import Dockge.Cache.Lru

namespace Dockge.Cache

open Data

/-! What a cache holds after any history, and how much of it. -/

variable {T : Type} {limits : Limits} {cache : BoundedCache T} {key : String} {entry : Entry T}

/-! ## Limits -/

/-- The list is within the limits; a limit below nothing admits nothing. -/
structure Lru.Fits (limits : Limits) (held : Lru T) : Prop where
  sizes : ∀ item ∈ held, 0 ≤ item.2.bytes
  bytes : ∀ limit, limits.maxBytes = some limit → 0 ≤ limit → held.weight ≤ limit
  entries : ∀ limit, limits.maxEntries = some limit → 0 ≤ limit → (held.length : ℤ) ≤ limit

theorem Lru.weight_sublist {part held : Lru T} (sizes : ∀ item ∈ held, 0 ≤ item.2.bytes) (sublist : part.Sublist held) :
    part.weight ≤ held.weight := by
  apply (sublist.map fun item => item.2.bytes).sum_le_sum
  intro bytes member
  obtain ⟨item, inside, rfl⟩ := List.mem_map.mp member
  exact sizes item inside

theorem Lru.Fits.sublist {part held : Lru T} (fits : held.Fits limits) (sublist : part.Sublist held) :
    part.Fits limits := by
  constructor
  · exact fun item member => fits.sizes item (sublist.subset member)
  · exact fun limit given positive => (weight_sublist fits.sizes sublist).trans (fits.bytes limit given positive)
  · intro limit given positive
    have fewer : (part.length : ℤ) ≤ held.length := Int.ofNat_le.mpr sublist.length_le
    exact fewer.trans (fits.entries limit given positive)

theorem Lru.fits_nil (limits : Limits) : Lru.Fits limits ([] : Lru T) := by
  constructor
  · intro item member
    cases member
  · exact fun limit _ positive => positive
  · exact fun limit _ positive => positive

theorem Lru.Fits.accept {held : Lru T} (fits : held.Fits limits) (key : String) (value : T) (bytes : Option ℚ) (now : ℚ) :
    (held.accept limits key value bytes now).2.Fits limits := by
  have rest : (held.without key).Fits limits := fits.sublist List.filter_sublist
  unfold Lru.accept
  dsimp only
  generalize held.without key = held at rest ⊢
  split
  next => exact rest
  next bytes =>
    split
    next takes =>
      rw [Lru.takes, Bool.and_eq_true, decide_eq_true_eq] at takes
      split
      next kept spared =>
        have suffix := (List.mem_tails _ _).mp (List.mem_of_find?_eq_some spared)
        have room := List.find?_some spared
        rw [Lru.room, Bool.and_eq_true] at room
        have below := rest.sublist suffix.sublist
        constructor
        · intro item member
          rw [List.mem_append, List.mem_singleton] at member
          obtain earlier | rfl := member
          · exact below.sizes item earlier
          · exact takes.1
        · intro limit given _
          have fits := room.2
          rw [given, Option.all_some, decide_eq_true_eq] at fits
          rw [Lru.weight, List.map_append, List.sum_append, List.map_singleton, List.sum_singleton]
          exact fits
        · intro limit given _
          have fits := room.1
          rw [given, Option.all_some, decide_eq_true_eq] at fits
          rw [List.length_append, List.length_singleton]
          omega
      next => exact fits_nil limits
    next => exact rest

theorem fits_step (fits : cache.held.Fits limits) (event : Event T) : (cache.held.step limits event).Fits limits := by
  cases event with
  | get key now =>
      rw [Lru.step]
      cases found : cache.held.find key with
      | none => exact fits
      | some entry =>
          dsimp only
          split
          next live =>
            have there : (key, entry) ∈ cache.held := OrderedMap.get_eq_some.mp found
            have members (item) (member : item ∈ cache.held.without key ++ [(key, entry)]) : item ∈ cache.held := by
              rw [List.mem_append, List.mem_singleton] at member
              obtain other | rfl := member
              · exact (List.mem_filter.mp other).1
              · exact there
            have count : (cache.held.without key ++ [(key, entry)]).length ≤ cache.held.length := by
              have fewer : (cache.held.without key).length < cache.held.length := by
                apply List.length_filter_lt_length_iff_exists.mpr
                refine ⟨(key, entry), there, ?_⟩
                rw [decide_eq_true_eq]
                exact fun other => other rfl
              rw [List.length_append, List.length_singleton]
              exact fewer
            constructor
            · exact fun item member => fits.sizes item (members item member)
            · rw [BoundedCache.weight_moved found]
              exact fits.bytes
            · intro limit given positive
              have most := fits.entries limit given positive
              omega
          next =>
            rw [List.append_nil]
            exact fits.sublist List.filter_sublist
  | set key value bytes now date => exact fits.accept key value bytes now
  | delete key => exact fits.sublist List.filter_sublist
  | clear => exact Lru.fits_nil limits
  | fires date => exact fits.sublist List.filter_sublist

theorem replay_fits (limits : Limits) (history : List (Event T)) :
    (replay (BoundedCache.step limits) {} history).held.Fits limits := by
  refine replay_induction (motive := fun _ (cache : BoundedCache T) => cache.held.Fits limits)
    ?_ ?_ history
  · exact Lru.fits_nil limits
  · intro past event fits
    obtain ⟨-, -, same⟩ := BoundedCache.step_spec limits (BoundedCache.replay_spec limits past).1 event
    rw [same]
    exact fits_step fits event

/-! ## Why an entry goes -/

inductive Loss where
  | replaced
  /-- Others needed the room. -/
  | dropped
  | deleted
  | expired
deriving DecidableEq

/-- The key is not among those spared for a value that is let in. -/
def Lru.drops (limits : Limits) (bytes : Option ℚ) (rest : Lru T) (key : String) : Bool :=
  match bytes with
  | none => false
  | some bytes => takes limits bytes && (((rest.spared limits bytes).getD []).find key).isNone

/-- What an event does to the entry of a key -/
def Lru.loss (limits : Limits) (key : String) (held : Lru T) : Event T → Option Loss
  | .get other now =>
      if other = key ∧ ((held.find key).any fun entry => entry.expires ≤ now) then some .expired else none
  | .set other _ bytes _ _ =>
      if other = key then some .replaced
      else if (held.without other).drops limits bytes key then some .dropped
      else none
  | .delete other => if other = key then some .deleted else none
  | .clear => some .deleted
  | .fires date => if (held.find key).any fun entry => entry.expires ≤ date then some .expired else none

theorem mem_without {held : Lru T} {other : String} {item : String × Entry T} :
    item ∈ held.without other ↔ item ∈ held ∧ item.1 ≠ other := by
  rw [Lru.without, List.mem_filter, decide_eq_true_eq]

theorem find_of_mem (member : (key, entry) ∈ cache.held) : cache.held.find key = some entry :=
  OrderedMap.get_eq_some.mpr member

theorem isNone_find {held : Lru T} : (held.find key).isNone = true ↔ ∀ item ∈ held, item.1 ≠ key := by
  rw [Option.isNone_iff_eq_none, Lru.find, Option.map_eq_none_iff, List.find?_eq_none]
  simp only [decide_eq_true_eq, ne_eq]

/-- What a value that is let in leaves of the rest -/
theorem mem_accept (other : String) (value : T) (bytes : Option ℚ) (now : ℚ) :
    (key, entry) ∈ (cache.held.accept limits other value bytes now).2 ↔
      ((key, entry) ∈ cache.held ∧ other ≠ key ∧ (cache.held.without other).drops limits bytes key = false) ∨
        other = key ∧ (cache.held.accept limits other value bytes now).1 = true ∧
          some entry = bytes.map fun bytes => { value, bytes, expires := now + limits.ttlMs } := by
  have inside : (key, entry) ∈ cache.held.without other ↔ (key, entry) ∈ cache.held ∧ other ≠ key :=
    mem_without.trans (and_congr_right fun _ => ne_comm)
  have unique (item) (member : item ∈ cache.held.without other) (same : item.1 = key)
      (there : (key, entry) ∈ cache.held.without other) : item = (key, entry) :=
    BoundedCache.held_unique (mem_without.mp member).1 (mem_without.mp there).1 same
  unfold Lru.accept Lru.drops
  dsimp only
  rw [← and_assoc, ← inside]
  generalize cache.held.without other = rest at unique ⊢
  cases bytes with
  | none => simp
  | some bytes =>
      dsimp only
      by_cases takes : Lru.takes limits bytes = true
      · rw [takes, if_pos rfl, Bool.true_and]
        cases spared : rest.spared limits bytes with
        | none => simp [Lru.find]
        | some kept =>
            have suffix := (List.mem_tails _ _).mp (List.mem_of_find?_eq_some spared)
            rw [Option.getD_some, List.mem_append, List.mem_singleton, Option.map_some]
            apply or_congr
            · constructor
              · intro member
                refine ⟨suffix.subset member, ?_⟩
                rw [← Bool.not_eq_true, isNone_find]
                exact fun others => others _ member rfl
              · rintro ⟨there, spares⟩
                rw [← Bool.not_eq_true, isNone_find] at spares
                push Not at spares
                obtain ⟨item, member, same⟩ := spares
                rw [← unique item (suffix.subset member) same there]
                exact member
            · rw [Prod.mk.injEq, Option.some.injEq]
              constructor
              · intro both
                exact ⟨both.1.symm, rfl, both.2⟩
              · intro all
                exact ⟨all.1.symm, all.2.2⟩
      · rw [Bool.not_eq_true] at takes
        rw [takes]
        simp

theorem loss_set (limits : Limits) (held : Lru T) (other : String) (value : T) (bytes : Option ℚ) (now date : ℚ) :
    held.loss limits key (.set other value bytes now date) = none ↔
      other ≠ key ∧ (held.without other).drops limits bytes key = false := by
  rw [Lru.loss]
  by_cases same : other = key
  · rw [if_pos same]
    constructor
    · intro never
      cases never
    · intro both
      exact absurd same both.1
  · rw [if_neg same]
    cases (held.without other).drops limits bytes key with
    | true => exact ⟨fun never => (by cases never), fun both => (by cases both.2)⟩
    | false => exact ⟨fun _ => ⟨same, rfl⟩, fun _ => rfl⟩

/-- An entry is held after an event where it was held and did not go, or where it was just let in. -/
theorem mem_step (limits : Limits) (event : Event T) :
    (key, entry) ∈ cache.held.step limits event ↔
      ((key, entry) ∈ cache.held ∧ cache.held.loss limits key event = none) ∨
        ∃ value bytes now date, event = .set key value (some bytes) now date ∧
          (cache.held.accept limits key value (some bytes) now).1 = true ∧
          entry = { value, bytes, expires := now + limits.ttlMs } := by
  have found : (key, entry) ∈ cache.held → cache.held.find key = some entry := find_of_mem
  have leaves {event : Event T} {held : Lru T} (other : ∀ value bytes now date, event ≠ .set key value bytes now date)
      (same : (key, entry) ∈ held ↔ (key, entry) ∈ cache.held ∧ cache.held.loss limits key event = none) :
      (key, entry) ∈ held ↔ ((key, entry) ∈ cache.held ∧ cache.held.loss limits key event = none) ∨
        ∃ value bytes now date, event = .set key value (some bytes) now date ∧
          (cache.held.accept limits key value (some bytes) now).1 = true ∧
          entry = { value, bytes, expires := now + limits.ttlMs } := by
    rw [same, or_iff_left]
    rintro ⟨value, bytes, now, date, equal, -⟩
    exact other value (some bytes) now date equal
  cases event with
  | get other now =>
      refine leaves (fun _ _ _ _ equal => by cases equal) ?_
      rw [Lru.step, Lru.loss]
      cases here : cache.held.find other with
      | none =>
          refine (and_iff_left_of_imp fun member => ?_).symm
          rw [if_neg]
          rintro ⟨rfl, -⟩
          rw [found member] at here
          cases here
      | some last =>
          dsimp only
          rw [List.mem_append, mem_without]
          by_cases same : key = other
          · subst same
            have there : (key, last) ∈ cache.held := OrderedMap.get_eq_some.mp here
            have alone : (key, entry) ∈ cache.held ↔ entry = last := by
              constructor
              · exact fun member => Option.some.inj ((found member).symm.trans here)
              · exact fun equal => equal ▸ there
            rw [here, alone, Option.any_some]
            by_cases live : now < last.expires
            · rw [if_pos live, if_neg (fun both => absurd live (not_lt.mpr (of_decide_eq_true both.2)))]
              simp
            · rw [if_neg live, if_pos ⟨rfl, decide_eq_true (not_lt.mp live)⟩]
              simp
          · have none_ : (key, entry) ∉ (if now < last.expires then [(other, last)] else []) := by
              split
              · intro member
                exact same (congrArg Prod.fst (List.mem_singleton.mp member))
              · exact List.not_mem_nil
            rw [or_iff_left none_, if_neg (fun both => same both.1.symm)]
            exact and_congr_right fun _ => ⟨fun _ => rfl, fun _ => same⟩
  | set other value bytes now date =>
      rw [Lru.step, mem_accept, loss_set]
      apply or_congr Iff.rfl
      constructor
      · rintro ⟨rfl, admitted, same⟩
        cases bytes with
        | none => cases same
        | some bytes => exact ⟨value, bytes, now, date, rfl, admitted, Option.some.inj same⟩
      · rintro ⟨value_, bytes_, now_, date_, equal, admitted, same⟩
        cases equal
        exact ⟨rfl, admitted, congrArg some same⟩
  | delete other =>
      refine leaves (fun _ _ _ _ equal => by cases equal) ?_
      rw [Lru.step, Lru.loss, mem_without]
      apply and_congr_right
      intro _
      by_cases same : other = key
      · rw [if_pos same]
        exact ⟨fun never => absurd same.symm never, fun never => (by cases never)⟩
      · rw [if_neg same]
        exact ⟨fun _ => rfl, fun _ => Ne.symm same⟩
  | clear =>
      refine leaves (fun _ _ _ _ equal => by cases equal) ?_
      exact ⟨fun never => (by cases never), fun never => (by cases never.2)⟩
  | fires date =>
      refine leaves (fun _ _ _ _ equal => by cases equal) ?_
      rw [Lru.step, Lru.loss, List.mem_filter, decide_eq_true_eq]
      apply and_congr_right
      intro member
      rw [found member, Option.any_some]
      by_cases live : date < entry.expires
      · rw [if_neg (fun expired => absurd live (not_lt.mpr (of_decide_eq_true expired)))]
        exact ⟨fun _ => rfl, fun _ => live⟩
      · rw [if_pos (decide_eq_true (not_lt.mp live))]
        exact ⟨fun now => absurd now live, fun never => (by cases never)⟩

/-! ## Any history -/

/-- The value of the last `set` of a key that was let in, where nothing has made it go since -/
def LastSet (limits : Limits) (history : List (Event T)) (key : String) (entry : Entry T) : Prop :=
  ∃ before value bytes now date after, history = before ++ .set key value (some bytes) now date :: after ∧
    ((replay (BoundedCache.step limits) {} before).set limits key value (some bytes) now date).1 = true ∧
    entry = { value, bytes, expires := now + limits.ttlMs } ∧
    Along (BoundedCache.step limits) (fun cache event => cache.held.loss limits key event = none)
      (replay (BoundedCache.step limits) {} (before ++ [.set key value (some bytes) now date])) after

theorem mem_held_iff (limits : Limits) (history : List (Event T)) (key : String) (entry : Entry T) :
    (key, entry) ∈ (replay (BoundedCache.step limits) {} history).held ↔ LastSet limits history key entry := by
  refine @replay_induction _ _ (BoundedCache.step limits) {}
    (fun past cache => (key, entry) ∈ cache.held ↔ LastSet limits past key entry) ?_ ?_ history
  · constructor
    · intro never
      cases never
    · intro ⟨before, value, bytes, now, date, after, same, _⟩
      exact absurd same.symm (List.append_ne_nil_of_right_ne_nil _ (List.cons_ne_nil _ _))
  · intro past event ih
    have sound := (BoundedCache.replay_spec limits past).1
    obtain ⟨-, -, next_⟩ := BoundedCache.step_spec limits sound event
    rw [next_, mem_step, ih]
    constructor
    · rintro (⟨⟨before, value, bytes, now, date, after, same, admitted, equal, along⟩, kept⟩ |
        ⟨value, bytes, now, date, same, admitted, equal⟩)
      · refine ⟨before, value, bytes, now, date, after ++ [event], ?_, admitted, equal, ?_⟩
        · rw [same, List.append_assoc, List.cons_append]
        · rw [along_concat]
          refine ⟨along, ?_⟩
          rw [← replay_append, List.append_assoc, List.singleton_append, ← same]
          exact kept
      · refine ⟨past, value, bytes, now, date, [], by rw [same], ?_, equal, trivial⟩
        exact (congrArg Prod.fst (BoundedCache.set_spec limits sound key value (some bytes) now date).2).trans admitted
    · intro ⟨before, value, bytes, now, date, after, same, admitted, equal, along⟩
      obtain rfl | ⟨middle, last, rfl⟩ := List.eq_nil_or_concat' after
      · obtain ⟨rfl, last⟩ := List.append_inj' same rfl
        refine .inr ⟨value, bytes, now, date, (List.cons.inj last).1, ?_, equal⟩
        exact (congrArg Prod.fst (BoundedCache.set_spec limits sound key value (some bytes) now date).2).symm.trans admitted
      · rw [← List.cons_append, ← List.append_assoc] at same
        obtain ⟨rfl, last_⟩ := List.append_inj' same rfl
        obtain rfl := (List.cons.inj last_).1
        rw [along_concat, ← replay_append, List.append_assoc, List.singleton_append] at along
        exact .inl ⟨⟨before, value, bytes, now, date, middle, rfl, admitted, equal, along.1⟩, along.2⟩

end Dockge.Cache
