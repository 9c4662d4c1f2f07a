import Mathlib

namespace Dockge.Data

/-! A map that keeps its keys in the order in which they were set first. -/

structure OrderedMap (Key Value : Type) where
  entries : List (Key × Value)
  distinct : (entries.map Prod.fst).Nodup

namespace OrderedMap

variable {Key Value : Type} [DecidableEq Key]

def empty : OrderedMap Key Value := ⟨[], List.nodup_nil⟩

def get (key : Key) (items : OrderedMap Key Value) : Option Value :=
  (items.entries.find? fun item => item.1 = key).map Prod.snd

def delete (key : Key) (items : OrderedMap Key Value) : OrderedMap Key Value :=
  { entries := items.entries.filter fun item => item.1 ≠ key
    distinct := items.distinct.sublist (List.filter_sublist.map Prod.fst) }

theorem set_distinct {entries : List (Key × Value)} (distinct : (entries.map Prod.fst).Nodup) (key : Key)
    (value : Value) (absent : key ∉ entries.map Prod.fst) : ((entries ++ [(key, value)]).map Prod.fst).Nodup := by
  rw [List.map_append, List.map_singleton, List.nodup_append]
  refine ⟨distinct, List.nodup_singleton key, ?_⟩
  intro first member second last same
  rw [List.mem_singleton.mp last] at same
  subst same
  exact absent member

/-- A key that is there keeps its place. -/
def set (key : Key) (value : Value) (items : OrderedMap Key Value) : OrderedMap Key Value :=
  if absent : key ∉ items.entries.map Prod.fst then
    { entries := items.entries ++ [(key, value)]
      distinct := set_distinct items.distinct key value absent }
  else
    { entries := items.entries.map fun item => (item.1, if item.1 = key then value else item.2)
      distinct := by
        rw [List.map_map]
        exact items.distinct }

theorem get_eq_some {items : OrderedMap Key Value} {key : Key} {value : Value} :
    items.get key = some value ↔ (key, value) ∈ items.entries := by
  obtain ⟨entries, distinct⟩ := items
  unfold get
  dsimp only
  induction entries with
  | nil =>
      constructor
      · intro found
        cases found
      · intro member
        cases member
  | cons item rest ih =>
      rw [List.map_cons, List.nodup_cons] at distinct
      rw [List.find?_cons, List.mem_cons]
      by_cases here : item.1 = key
      · rw [decide_eq_true here]
        dsimp only
        rw [Option.map_some, Option.some.injEq]
        constructor
        · intro same
          exact .inl (by rw [← here, ← same])
        · intro member
          obtain same | later := member
          · rw [← same]
          · exact absurd (List.mem_map_of_mem later) (here ▸ distinct.1)
      · rw [decide_eq_false here]
        dsimp only
        rw [ih distinct.2]
        constructor
        · exact .inr
        · intro member
          obtain same | later := member
          · exact absurd (congrArg Prod.fst same).symm here
          · exact later

theorem get_eq_none {items : OrderedMap Key Value} {key : Key} :
    items.get key = none ↔ key ∉ items.entries.map Prod.fst := by
  constructor
  · intro missing member
    obtain ⟨item, inside, same⟩ := List.mem_map.mp member
    have found : items.get key = some item.2 := get_eq_some.mpr (same ▸ inside)
    rw [missing] at found
    cases found
  · intro absent
    cases found : items.get key with
    | none => rfl
    | some value => exact absurd (List.mem_map_of_mem (get_eq_some.mp found)) absent

theorem delete_entries (key : Key) (items : OrderedMap Key Value) :
    (items.delete key).entries = items.entries.filter fun item => item.1 ≠ key := rfl

theorem delete_of_absent {items : OrderedMap Key Value} {key : Key} (missing : items.get key = none) :
    (items.delete key).entries = items.entries := by
  rw [delete_entries, List.filter_eq_self]
  intro item member
  rw [decide_eq_true_eq]
  intro same
  exact get_eq_none.mp missing (List.mem_map.mpr ⟨item, member, same⟩)

theorem delete_head {items : OrderedMap Key Value} {key : Key} {value : Value} {rest : List (Key × Value)}
    (found : items.entries = (key, value) :: rest) : (items.delete key).entries = rest := by
  have distinct := items.distinct
  rw [found, List.map_cons, List.nodup_cons] at distinct
  rw [delete_entries, found, List.filter_cons_of_neg (by rw [decide_eq_true_eq]; exact fun other => other rfl),
    List.filter_eq_self]
  intro item member
  rw [decide_eq_true_eq]
  intro same
  exact distinct.1 (List.mem_map.mpr ⟨item, member, same⟩)

theorem get_delete (key : Key) (items : OrderedMap Key Value) : (items.delete key).get key = none := by
  rw [get_eq_none]
  intro member
  obtain ⟨item, inside, same⟩ := List.mem_map.mp member
  rw [delete_entries, List.mem_filter, decide_eq_true_eq] at inside
  exact inside.2 same

theorem set_of_absent {items : OrderedMap Key Value} {key : Key} (value : Value) (missing : items.get key = none) :
    (items.set key value).entries = items.entries ++ [(key, value)] := by
  rw [set, dif_pos (get_eq_none.mp missing)]

theorem mem_set {items : OrderedMap Key Value} {key : Key} {value : Value} {item : Key × Value}
    (member : item ∈ (items.set key value).entries) : item ∈ items.entries ∨ item = (key, value) := by
  rw [set] at member
  split at member
  next => exact (List.mem_append.mp member).imp_right List.mem_singleton.mp
  next =>
    obtain ⟨held, inside, rfl⟩ := List.mem_map.mp member
    by_cases same : held.1 = key
    · rw [if_pos same, same]
      exact .inr rfl
    · rw [if_neg same]
      exact .inl inside

def filter (keep : Key → Value → Bool) (items : OrderedMap Key Value) : OrderedMap Key Value :=
  { entries := items.entries.filter fun item => keep item.1 item.2
    distinct := items.distinct.sublist (List.filter_sublist.map Prod.fst) }

/-- The key that was set first goes. -/
def deleteOldest (items : OrderedMap Key Value) : OrderedMap Key Value :=
  match items.entries.head? with
  | some oldest => items.delete oldest.1
  | none => items

theorem deleteOldest_subset (items : OrderedMap Key Value) : items.deleteOldest.entries ⊆ items.entries := by
  unfold deleteOldest
  split
  next => exact List.filter_subset' _
  next => exact List.Subset.refl _

/-! ## Keys -/

def keys (items : OrderedMap Key Value) : List Key := items.entries.map Prod.fst

theorem keys_nodup (items : OrderedMap Key Value) : items.keys.Nodup := items.distinct

theorem mem_keys {items : OrderedMap Key Value} {key : Key} : key ∈ items.keys ↔ (items.get key).isSome = true := by
  rw [Option.isSome_iff_ne_none, ne_eq, get_eq_none, not_not]
  rfl

theorem set_of_present {items : OrderedMap Key Value} {key : Key} (value : Value) (there : key ∈ items.keys) :
    (items.set key value).entries = items.entries.map fun item => (item.1, if item.1 = key then value else item.2) := by
  have there_ : ¬key ∉ items.entries.map Prod.fst := not_not.mpr there
  rw [set, dif_neg there_]

theorem keys_set {items : OrderedMap Key Value} {key : Key} (value : Value) (there : key ∈ items.keys) :
    (items.set key value).keys = items.keys := by
  rw [keys, set_of_present value there, List.map_map]
  rfl

theorem get_set {items : OrderedMap Key Value} {key : Key} (value : Value) (there : key ∈ items.keys) (other : Key) :
    (items.set key value).get other = if other = key then some value else items.get other := by
  apply Option.ext
  intro found
  rw [get_eq_some, set_of_present value there, List.mem_map]
  by_cases same : other = key
  · subst same
    rw [if_pos rfl, Option.some.injEq]
    constructor
    · intro ⟨item, _, equal⟩
      obtain ⟨name, held⟩ := Prod.mk.inj equal
      rw [if_pos name] at held
      exact held
    · intro equal
      obtain ⟨item, member, name⟩ := List.mem_map.mp there
      exact ⟨item, member, by rw [name, if_pos rfl, equal]⟩
  · rw [if_neg same, get_eq_some]
    constructor
    · intro ⟨item, member, equal⟩
      obtain ⟨name, held⟩ := Prod.mk.inj equal
      rw [if_neg (name ▸ same)] at held
      rw [← name, ← held]
      exact member
    · intro member
      exact ⟨(other, found), member, by rw [if_neg same]⟩

/-- What an entry counts for leaves the sum with it. -/
theorem sum_delete {items : OrderedMap Key Value} {key : Key} {value : Value} (weight : Value → ℚ)
    (found : items.get key = some value) :
    (((items.delete key).entries.map fun item => weight item.2).sum) =
      (items.entries.map fun item => weight item.2).sum - weight value := by
  obtain ⟨entries, distinct⟩ := items
  rw [get_eq_some] at found
  rw [delete_entries]
  dsimp only at found ⊢
  induction entries with
  | nil => cases found
  | cons item rest ih =>
      rw [List.map_cons, List.nodup_cons] at distinct
      rw [List.mem_cons] at found
      by_cases here : item.1 = key
      · have same : (key, value) = item := by
          obtain same | later := found
          · exact same
          · exact absurd (List.mem_map_of_mem later) (here ▸ distinct.1)
        have others : (rest.filter fun item => item.1 ≠ key) = rest := by
          rw [List.filter_eq_self]
          intro other member
          rw [decide_eq_true_eq]
          intro equal
          exact distinct.1 (List.mem_map.mpr ⟨other, member, equal.trans here.symm⟩)
        rw [List.filter_cons_of_neg (by rw [decide_eq_true_eq]; exact fun other => other here), others,
          List.map_cons, List.sum_cons, ← same, add_sub_cancel_left]
      · have later : (key, value) ∈ rest := by
          obtain same | later := found
          · exact absurd (congrArg Prod.fst same).symm here
          · exact later
        rw [List.filter_cons_of_pos (by rw [decide_eq_true_eq]; exact here), List.map_cons, List.map_cons,
          List.sum_cons, List.sum_cons, ih distinct.2 later, add_sub_assoc]

end OrderedMap

end Dockge.Data
