import Mathlib

namespace Dockge.Data

/-! Lists in which an item takes the place of the one with its key. -/

variable {Item Key : Type} [DecidableEq Key]

def insertBy (key : Item → Key) (item : Item) : List Item → List Item
  | [] => [item]
  | held :: rest => if key held = key item then item :: rest else held :: insertBy key item rest

/-- Items one after the other, each in the place of the one before it with its key -/
def collect (key : Item → Key) (start items : List Item) : List Item :=
  items.foldl (fun held item => insertBy key item held) start

variable {key : Item → Key} {item other : Item} {items rest start : List Item}

theorem insertBy_of_absent (absent : key item ∉ items.map key) : insertBy key item items = items ++ [item] := by
  induction items with
  | nil => rfl
  | cons held rest ih =>
      rw [List.map_cons, List.mem_cons, not_or] at absent
      rw [insertBy, if_neg fun same => absent.1 same.symm, ih absent.2, List.cons_append]

theorem keys_insertBy (there : key item ∈ items.map key) : (insertBy key item items).map key = items.map key := by
  induction items with
  | nil => cases there
  | cons held rest ih =>
      rw [insertBy]
      split
      next same => rw [List.map_cons, List.map_cons, same]
      next different =>
        rw [List.map_cons, List.map_cons, ih]
        exact (List.mem_cons.mp there).resolve_left fun same => different same.symm

theorem mem_keys_insertBy {name : Key} : name ∈ (insertBy key item items).map key ↔ name = key item ∨ name ∈ items.map key := by
  by_cases there : key item ∈ items.map key
  · rw [keys_insertBy there]
    constructor
    · exact .inr
    · intro held
      obtain rfl | held := held
      · exact there
      · exact held
  · rw [insertBy_of_absent there, List.map_append, List.mem_append, List.map_singleton, List.mem_singleton, or_comm]

theorem nodup_insertBy (distinct : (items.map key).Nodup) : ((insertBy key item items).map key).Nodup := by
  by_cases there : key item ∈ items.map key
  · rwa [keys_insertBy there]
  · rw [insertBy_of_absent there, List.map_append, List.map_singleton]
    exact List.nodup_append.mpr ⟨distinct, List.nodup_singleton _, fun first held second last same =>
      there (List.mem_singleton.mp last ▸ same ▸ held)⟩

theorem mem_insertBy (distinct : (items.map key).Nodup) :
    other ∈ insertBy key item items ↔ other = item ∨ other ∈ items ∧ key other ≠ key item := by
  induction items with
  | nil =>
      rw [insertBy, List.mem_singleton]
      simp only [List.not_mem_nil, false_and, or_false]
  | cons held rest ih =>
      rw [List.map_cons, List.nodup_cons] at distinct
      rw [insertBy]
      split
      next same =>
        rw [List.mem_cons, List.mem_cons]
        constructor
        · intro member
          obtain rfl | member := member
          · exact .inl rfl
          · exact .inr ⟨.inr member, fun equal => distinct.1 (same ▸ equal ▸ List.mem_map_of_mem member)⟩
        · intro member
          obtain rfl | ⟨rfl | member, different⟩ := member
          · exact .inl rfl
          · exact absurd same different
          · exact .inr member
      next different =>
        rw [List.mem_cons, List.mem_cons, ih distinct.2]
        constructor
        · intro member
          obtain rfl | rfl | ⟨member, apart⟩ := member
          · exact .inr ⟨.inl rfl, different⟩
          · exact .inl rfl
          · exact .inr ⟨.inr member, apart⟩
        · intro member
          obtain rfl | ⟨rfl | member, apart⟩ := member
          · exact .inr (.inl rfl)
          · exact .inl rfl
          · exact .inr (.inr ⟨member, apart⟩)

theorem insertBy_again (same : key other = key item) : insertBy key item (insertBy key other items) = insertBy key item items := by
  induction items with
  | nil =>
      rw [insertBy, insertBy, insertBy]
      exact if_pos same
  | cons held rest ih =>
      rw [insertBy, insertBy]
      by_cases here : key held = key item
      · rw [if_pos (here.trans same.symm), if_pos here, insertBy, if_pos same]
      · rw [if_neg fun equal => here (equal.trans same), if_neg here, insertBy, if_neg here, ih]

theorem insertBy_comm (different : key item ≠ key other) (there : key item ∈ items.map key) :
    insertBy key item (insertBy key other items) = insertBy key other (insertBy key item items) := by
  induction items with
  | nil => cases there
  | cons held rest ih =>
      rw [insertBy, insertBy]
      by_cases here : key held = key item
      · have apart : key held ≠ key other := fun equal => different (here.symm.trans equal)
        rw [if_pos here, if_neg apart, insertBy, if_pos here, insertBy, if_neg different]
      · rw [if_neg here]
        by_cases here_ : key held = key other
        · rw [if_pos here_, insertBy, if_neg (fun equal => different equal.symm), insertBy, if_pos here_]
        · have later : key item ∈ rest.map key := (List.mem_cons.mp there).resolve_left fun equal => here equal.symm
          rw [if_neg here_, insertBy, if_neg here, insertBy, if_neg here_, ih later]

/-! ## Collecting -/

theorem collect_cons (start : List Item) (item : Item) (items : List Item) :
    collect key start (item :: items) = collect key (insertBy key item start) items := rfl

theorem collect_append (start items rest : List Item) :
    collect key start (items ++ rest) = collect key (collect key start items) rest := List.foldl_append

theorem collect_concat (start items : List Item) (item : Item) :
    collect key start (items ++ [item]) = insertBy key item (collect key start items) := collect_append start items [item]

theorem nodup_collect (distinct : (start.map key).Nodup) (items : List Item) :
    ((collect key start items).map key).Nodup := by
  induction items generalizing start with
  | nil => exact distinct
  | cons item items ih => exact ih (nodup_insertBy distinct)

theorem nodup_collected (items : List Item) : ((collect key [] items).map key).Nodup :=
  @nodup_collect Item Key _ key [] List.nodup_nil items

/-- An item that is there and not named again can as well be put in its place first. -/
theorem insertBy_collect (there : key item ∈ start.map key) (apart : key item ∉ items.map key) :
    insertBy key item (collect key start items) = collect key (insertBy key item start) items := by
  induction items generalizing start with
  | nil => rfl
  | cons next items ih =>
      rw [List.map_cons, List.mem_cons, not_or] at apart
      rw [collect_cons, collect_cons, ih (mem_keys_insertBy.mpr (.inr there)) apart.2, insertBy_comm apart.1 there]

theorem collect_insertBy (start : List Item) (distinct : (items.map key).Nodup) :
    collect key start (insertBy key item items) = insertBy key item (collect key start items) := by
  induction items generalizing start with
  | nil => rfl
  | cons held rest ih =>
      rw [List.map_cons, List.nodup_cons] at distinct
      rw [insertBy]
      split
      next same =>
        have there : key item ∈ (insertBy key held start).map key := mem_keys_insertBy.mpr (.inl same.symm)
        rw [collect_cons, collect_cons, insertBy_collect there (same ▸ distinct.1), insertBy_again same]
      next => rw [collect_cons, collect_cons, ih _ distinct.2]

/-- What was collected can be collected again as one. -/
theorem collect_collect (start items : List Item) :
    collect key start (collect key [] items) = collect key start items := by
  induction items using List.reverseRecOn with
  | nil => rfl
  | append_singleton items item ih =>
      rw [collect_concat, collect_concat, collect_insertBy start (nodup_collected items), ih]

theorem insertBy_held (held : item ∈ items) (distinct : (items.map key).Nodup) : insertBy key item items = items := by
  induction items with
  | nil => cases held
  | cons first rest ih =>
      rw [List.map_cons, List.nodup_cons] at distinct
      rw [insertBy]
      obtain rfl | later := List.mem_cons.mp held
      · rw [if_pos rfl]
      · have different : key first ≠ key item := fun same => distinct.1 (same ▸ List.mem_map_of_mem later)
        rw [if_neg different, ih later distinct.2]

theorem collect_held (held : ∀ item ∈ items, item ∈ start) (distinct : (start.map key).Nodup) :
    collect key start items = start := by
  induction items with
  | nil => rfl
  | cons item items ih =>
      rw [collect_cons, insertBy_held (held item List.mem_cons_self) distinct]
      exact ih fun other member => held other (List.mem_cons_of_mem _ member)

theorem mem_collect_kept (held : item ∈ start) (distinct : (start.map key).Nodup) (apart : key item ∉ items.map key) :
    item ∈ collect key start items := by
  induction items generalizing start with
  | nil => exact held
  | cons next items ih =>
      rw [List.map_cons, List.mem_cons, not_or] at apart
      exact ih ((mem_insertBy distinct).mpr (.inr ⟨held, apart.1⟩)) (nodup_insertBy distinct) apart.2

theorem mem_collect_of_mem (start : List Item) (apart : (items.map key).Nodup) (distinct : (start.map key).Nodup)
    (member : item ∈ items) : item ∈ collect key start items := by
  induction items generalizing start with
  | nil => cases member
  | cons next items ih =>
      rw [List.map_cons, List.nodup_cons] at apart
      obtain rfl | later := List.mem_cons.mp member
      · have placed : item ∈ insertBy key item start := (mem_insertBy distinct).mpr (.inl rfl)
        rw [collect_cons]
        exact mem_collect_kept placed (nodup_insertBy distinct) apart.1
      · exact ih (insertBy key next start) apart.2 (nodup_insertBy distinct) later

/-- What is left is what came last under its key. -/
theorem mem_collect : item ∈ collect key [] items ↔
    ∃ before after, items = before ++ item :: after ∧ ∀ later ∈ after, key later ≠ key item := by
  induction items using List.reverseRecOn with
  | nil =>
      constructor
      · intro never
        cases never
      · intro ⟨before, after, same, _⟩
        exact absurd same.symm (List.append_ne_nil_of_right_ne_nil _ (List.cons_ne_nil _ _))
  | append_singleton items last ih =>
      rw [collect_concat, mem_insertBy (nodup_collected items), ih]
      constructor
      · intro member
        obtain rfl | ⟨⟨before, after, rfl, others⟩, different⟩ := member
        · exact ⟨items, [], rfl, fun later never => by cases never⟩
        · refine ⟨before, after ++ [last], by simp only [List.append_assoc, List.cons_append], ?_⟩
          intro later member
          obtain member | member := List.mem_append.mp member
          · exact others later member
          · rw [List.mem_singleton.mp member]
            exact different.symm
      · intro ⟨before, after, same, others⟩
        obtain rfl | ⟨front, final, rfl⟩ := List.eq_nil_or_concat after
        · exact .inl (List.cons.inj (List.append_inj' same rfl).2).1.symm
        · rw [List.concat_eq_append, ← List.cons_append, ← List.append_assoc] at same
          obtain ⟨rfl, equal⟩ := List.append_inj' same rfl
          obtain rfl := (List.cons.inj equal).1
          refine .inr ⟨⟨before, front, rfl, fun later member => others later ?_⟩, (others last ?_).symm⟩
          · rw [List.concat_eq_append]
            exact List.mem_append_left _ member
          · rw [List.concat_eq_append]
            exact List.mem_append_right _ List.mem_cons_self

end Dockge.Data
