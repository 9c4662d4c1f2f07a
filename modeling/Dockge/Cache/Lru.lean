import Dockge.Cache.BoundedCache

namespace Dockge.Cache

open Data

/-! The list a cache stands for: least recently used first. -/

variable {T : Type}

abbrev Lru (T : Type) := List (String × Entry T)

namespace Lru

def weight (held : Lru T) : ℚ := (held.map fun item => item.2.bytes).sum

def find (key : String) (held : Lru T) : Option (Entry T) := (held.find? fun item => item.1 = key).map Prod.snd

def without (key : String) (held : Lru T) : Lru T := held.filter fun item => item.1 ≠ key

/-- One entry of so many bytes fits in beside what is held. -/
def room (limits : Limits) (bytes : ℚ) (held : Lru T) : Bool :=
  (limits.maxEntries.all fun limit => (held.length : ℤ) < limit) && limits.maxBytes.all fun limit => held.weight + bytes ≤ limit

/-- The size is one a cache takes at all. -/
def takes (limits : Limits) (bytes : ℚ) : Bool := 0 ≤ bytes && limits.maxBytes.all fun limit => bytes ≤ limit

/-- The most that can stay where the least recently used go first -/
def spared (limits : Limits) (bytes : ℚ) (held : Lru T) : Option (Lru T) := held.tails.find? (room limits bytes)

def accept (limits : Limits) (key : String) (value : T) (bytes : Option ℚ) (now : ℚ) (held : Lru T) : Bool × Lru T :=
  let rest := held.without key
  match bytes with
  | none => (false, rest)
  | some bytes =>
      if takes limits bytes then
        match rest.spared limits bytes with
        | some held => (true, held ++ [(key, { value, bytes, expires := now + limits.ttlMs })])
        | none => (false, [])
      else (false, rest)

def answer (limits : Limits) (held : Lru T) : Event T → Answer T
  | .get key now => .value (((held.find key).filter fun entry => now < entry.expires).map Entry.value)
  | .set key value bytes now _ => .admitted (held.accept limits key value bytes now).1
  | _ => .nothing

def step (limits : Limits) (held : Lru T) : Event T → Lru T
  | .get key now =>
      match held.find key with
      | none => held
      | some entry => held.without key ++ if now < entry.expires then [(key, entry)] else []
  | .set key value bytes now _ => (held.accept limits key value bytes now).2
  | .delete key => held.without key
  | .clear => []
  | .fires date => held.filter fun item => date < item.2.expires

end Lru

variable {limits : Limits} {cache : BoundedCache T} {key : String} {entry : Entry T}

namespace BoundedCache

/-- What is held, by last use -/
def held (cache : BoundedCache T) : Lru T := cache.items.entries

/-- The bytes are counted, and a timer is pending where something is held. -/
structure Sound (cache : BoundedCache T) : Prop where
  used : cache.used = cache.held.weight
  timer : cache.timer.isSome = true ↔ cache.held ≠ []

/-! ## Dropping -/

theorem held_delete (key : String) (cache : BoundedCache T) : (cache.delete key).held = cache.held.without key := by
  unfold delete
  cases found : cache.items.get key with
  | none =>
      have same : cache.held.without key = cache.held := OrderedMap.delete_of_absent found
      dsimp only
      split <;> exact same.symm
  | some entry =>
      dsimp only
      split <;> rfl

theorem used_delete (key : String) (counted : cache.used = cache.held.weight) :
    (cache.delete key).used = (cache.delete key).held.weight := by
  rw [held_delete]
  unfold delete
  cases found : cache.items.get key with
  | none =>
      have same : cache.held.without key = cache.held := OrderedMap.delete_of_absent found
      rw [same]
      dsimp only
      split <;> exact counted
  | some entry =>
      have less : (cache.held.without key).weight = cache.held.weight - entry.bytes :=
        OrderedMap.sum_delete Entry.bytes found
      rw [less, ← counted]
      dsimp only
      split <;> rfl

/-- A timer is cleared with the last entry and with no other. -/
theorem timer_delete (key : String) (cache : BoundedCache T) :
    (cache.delete key).timer = if (cache.delete key).held = [] then none else cache.timer := by
  have empty (cache : BoundedCache T) : cache.size = 0 ↔ cache.held = [] := List.length_eq_zero_iff
  rw [held_delete]
  unfold delete
  cases found : cache.items.get key with
  | none =>
      have same : cache.held.without key = cache.held := OrderedMap.delete_of_absent found
      dsimp only
      rw [same]
      simp only [empty]
      split <;> rfl
  | some entry =>
      dsimp only
      simp only [empty]
      change (if cache.held.without key = [] then _ else _ : BoundedCache T).timer = _
      split <;> rfl

theorem Sound.delete (sound : cache.Sound) (key : String) : (cache.delete key).Sound := by
  constructor
  · exact used_delete key sound.used
  · rw [timer_delete]
    split
    next none_ =>
      constructor
      · intro pending
        cases pending
      · intro some_
        exact absurd none_ some_
    next some_ =>
      rw [sound.timer]
      constructor
      · exact fun _ => some_
      · intro _ none_
        rw [held_delete, none_] at some_
        exact some_ rfl

theorem full_eq (limits : Limits) (bytes : ℚ) (counted : cache.used = cache.held.weight) :
    cache.full limits bytes = !cache.held.room limits bytes := by
  have count : cache.size = cache.held.length := rfl
  unfold full Lru.room
  rw [counted, count]
  rw [Bool.not_and]
  congr 1
  · cases limits.maxEntries with
    | none => rfl
    | some limit => simp only [Option.any_some, Option.all_some, ← decide_not, not_lt]
  · cases limits.maxBytes with
    | none => rfl
    | some limit => simp only [Option.any_some, Option.all_some, ← decide_not, not_le]

theorem makeRoom_spec (limits : Limits) (bytes : ℚ) (sound : cache.Sound) :
    (cache.makeRoom limits bytes).2.Sound ∧
      ((cache.makeRoom limits bytes).1, (cache.makeRoom limits bytes).2.held) =
        (cache.held.spared limits bytes).elim (false, []) fun held => (true, held) := by
  generalize listed : cache.held = held
  induction held generalizing cache with
  | nil =>
      rw [makeRoom, full_eq limits bytes sound.used, listed, Lru.spared, List.tails, List.find?_singleton]
      cases Lru.room limits bytes ([] : Lru T) with
      | true => exact ⟨sound, congrArg (Prod.mk true) listed⟩
      | false =>
          rw [Bool.not_false, if_pos rfl]
          split
          next => exact ⟨sound, congrArg (Prod.mk false) listed⟩
          next more =>
            have some_ : cache.held ≠ [] := by
              rw [held, more]
              exact List.cons_ne_nil _ _
            exact absurd listed some_
  | cons item rest ih =>
      rw [makeRoom, full_eq limits bytes sound.used, listed, Lru.spared, List.tails, List.find?_cons]
      cases Lru.room limits bytes (item :: rest) with
      | true => exact ⟨sound, congrArg (Prod.mk true) listed⟩
      | false =>
          rw [Bool.not_false, if_pos rfl]
          split
          next none_ =>
            rw [held, none_] at listed
            cases listed
          next oldest entry more found =>
            have next_ : (cache.delete oldest).held = rest := by
              rw [held_delete]
              have head : (cache.items.delete oldest).entries = more := OrderedMap.delete_head found
              rw [held, found] at listed
              exact head.trans (List.cons.inj listed).2
            exact ih (sound.delete oldest) next_

/-! ## The operations -/

theorem schedule_sound (date : ℚ) (counted : cache.used = cache.held.weight) : (cache.schedule date).Sound := by
  constructor
  · exact counted
  · change ((cache.held.map fun item => item.2.expires).min?.map _).isSome = true ↔ cache.held ≠ []
    rw [Option.isSome_map, Option.isSome_iff_ne_none, ne_eq, List.min?_eq_none_iff, List.map_eq_nil_iff]

theorem get_none (missing : cache.held.find key = none) (now : ℚ) : cache.get key now = (none, cache) := by
  have missing_ : cache.items.get key = none := missing
  rw [get, missing_]

theorem get_expired (found : cache.held.find key = some entry) {now : ℚ} (expired : entry.expires ≤ now) :
    cache.get key now = (none, cache.delete key) := by
  have found_ : cache.items.get key = some entry := found
  rw [get, found_]
  exact if_pos expired

theorem get_live (found : cache.held.find key = some entry) {now : ℚ} (live : now < entry.expires) :
    (cache.get key now).1 = some entry.value ∧ (cache.get key now).2.held = cache.held.without key ++ [(key, entry)] ∧
      (cache.get key now).2.used = cache.used ∧ (cache.get key now).2.timer = cache.timer := by
  have found_ : cache.items.get key = some entry := found
  have moved : ((cache.items.delete key).set key entry).entries = cache.held.without key ++ [(key, entry)] :=
    OrderedMap.set_of_absent entry (OrderedMap.get_delete key cache.items)
  rw [get, found_]
  dsimp only
  rw [if_neg (not_le.mpr live)]
  exact ⟨rfl, moved, rfl, rfl⟩

theorem weight_moved (found : cache.held.find key = some entry) :
    (cache.held.without key ++ [(key, entry)] : Lru T).weight = cache.held.weight := by
  have less : (cache.held.without key).weight = cache.held.weight - entry.bytes :=
    OrderedMap.sum_delete Entry.bytes found
  rw [Lru.weight, List.map_append, List.sum_append, List.map_singleton, List.sum_singleton, ← Lru.weight, less,
    sub_add_cancel]

theorem get_spec (limits : Limits) (sound : cache.Sound) (key : String) (now : ℚ) :
    (cache.get key now).2.Sound ∧
      (cache.get key now).1 = ((cache.held.find key).filter fun entry => now < entry.expires).map Entry.value ∧
      (cache.get key now).2.held = cache.held.step limits (.get key now) := by
  rw [Lru.step]
  cases found : cache.held.find key with
  | none =>
      rw [get_none found]
      exact ⟨sound, rfl, rfl⟩
  | some entry =>
      dsimp only
      rw [Option.filter_some]
      by_cases live : now < entry.expires
      · obtain ⟨value, held, used, timer⟩ := get_live found live
        rw [if_pos (decide_eq_true live), if_pos live]
        refine ⟨⟨?_, ?_⟩, value, held⟩
        · rw [used, held, weight_moved found, sound.used]
        · rw [timer, sound.timer, held]
          have some_ : cache.held ≠ [] := by
            intro none_
            rw [none_] at found
            cases found
          exact ⟨fun _ => List.append_ne_nil_of_right_ne_nil _ (List.cons_ne_nil _ _), fun _ => some_⟩
      · rw [get_expired found (not_lt.mp live), if_neg (by rw [decide_eq_true_eq]; exact live), if_neg live]
        refine ⟨sound.delete key, rfl, ?_⟩
        rw [held_delete, List.append_nil]

theorem takes_iff (limits : Limits) (bytes : ℚ) :
    Lru.takes limits bytes = true ↔ ¬(bytes < 0 ∨ (limits.maxBytes.any fun limit => limit < bytes) = true) := by
  unfold Lru.takes
  cases limits.maxBytes with
  | none => simp
  | some limit => simp

theorem set_spec (limits : Limits) (sound : cache.Sound) (key : String) (value : T) (bytes : Option ℚ) (now date : ℚ) :
    (cache.set limits key value bytes now date).2.Sound ∧
      ((cache.set limits key value bytes now date).1, (cache.set limits key value bytes now date).2.held) =
        cache.held.accept limits key value bytes now := by
  have rest := sound.delete key
  have absent : (cache.delete key).held.find key = none := by
    rw [held_delete]
    exact OrderedMap.get_delete key cache.items
  have removed := held_delete key cache
  unfold BoundedCache.set Lru.accept
  dsimp only
  generalize cache.delete key = cache at rest absent removed ⊢
  rw [← removed]
  cases bytes with
  | none => exact ⟨rest, rfl⟩
  | some bytes =>
      dsimp only
      by_cases takes : Lru.takes limits bytes = true
      · rw [if_neg ((takes_iff limits bytes).mp takes), if_pos takes]
        obtain ⟨after, same⟩ := makeRoom_spec limits bytes rest
        have still : ∀ held, cache.held.spared limits bytes = some held → held.find key = none := by
          intro held found
          have suffix := (List.mem_tails _ _).mp (List.mem_of_find?_eq_some found)
          rw [Lru.find, Option.map_eq_none_iff, List.find?_eq_none] at absent ⊢
          exact fun item member => absent item (suffix.subset member)
        cases spared : cache.held.spared limits bytes with
        | none =>
            rw [spared, Option.elim_none] at same
            generalize cache.makeRoom limits bytes = made at after same
            obtain ⟨fits, cache⟩ := made
            obtain ⟨rfl, none_⟩ := Prod.mk.inj same
            exact ⟨after, congrArg (Prod.mk false) none_⟩
        | some held =>
            rw [spared, Option.elim_some] at same
            have gone := still held spared
            generalize cache.makeRoom limits bytes = made at after same
            obtain ⟨fits, cache⟩ := made
            obtain ⟨rfl, held_⟩ := Prod.mk.inj same
            have added : (cache.items.set key { value, bytes, expires := now + limits.ttlMs }).entries =
                held ++ [(key, { value, bytes, expires := now + limits.ttlMs })] := by
              rw [← held_]
              apply OrderedMap.set_of_absent
              rw [← held_] at gone
              exact gone
            constructor
            · apply schedule_sound
              change cache.used + bytes = Lru.weight (OrderedMap.entries _)
              rw [added, Lru.weight, List.map_append, List.sum_append, List.map_singleton, List.sum_singleton,
                ← Lru.weight, after.used, ← held_]
            · exact congrArg (Prod.mk true) added
      · rw [if_pos (not_not.mp (fun never => takes ((takes_iff limits bytes).mpr never))), if_neg takes]
        exact ⟨rest, rfl⟩

/-- The loop of the timer, over any list of entries -/
theorem expire_loop (date : ℚ) (items : Lru T) (counted : cache.used = cache.held.weight) :
    let after := items.foldl (fun cache item => if item.2.expires ≤ date then cache.delete item.1 else cache) cache
    after.used = after.held.weight ∧
      after.held = cache.held.filter fun item => ∀ gone ∈ items, gone.2.expires ≤ date → item.1 ≠ gone.1 := by
  induction items generalizing cache with
  | nil =>
      refine ⟨counted, (List.filter_eq_self.mpr ?_).symm⟩
      intro item _
      rw [decide_eq_true_eq]
      intro gone member
      cases member
  | cons first rest ih =>
      rw [List.foldl_cons]
      by_cases expired : first.2.expires ≤ date
      · rw [if_pos expired]
        obtain ⟨used, held⟩ := ih (used_delete first.1 counted)
        refine ⟨used, held.trans ?_⟩
        rw [held_delete, Lru.without, List.filter_filter]
        apply List.filter_congr
        intro item _
        rw [← Bool.decide_and, decide_eq_decide, List.forall_mem_cons]
        constructor
        · intro both
          exact ⟨fun _ => both.2, both.1⟩
        · intro both
          exact ⟨both.2, both.1 expired⟩
      · rw [if_neg expired]
        obtain ⟨used, held⟩ := ih counted
        refine ⟨used, held.trans ?_⟩
        apply List.filter_congr
        intro item _
        rw [decide_eq_decide, List.forall_mem_cons]
        constructor
        · intro others
          exact ⟨fun never => absurd never expired, others⟩
        · exact And.right

theorem held_unique {first second : String × Entry T} (one : first ∈ cache.held) (other : second ∈ cache.held)
    (same : first.1 = second.1) : first = second := by
  have found : cache.items.get first.1 = some first.2 := OrderedMap.get_eq_some.mpr one
  have again : cache.items.get second.1 = some second.2 := OrderedMap.get_eq_some.mpr other
  rw [same, again] at found
  exact Prod.ext same (Option.some.inj found).symm

theorem fires_spec (limits : Limits) (sound : cache.Sound) (date : ℚ) :
    (cache.fires date).Sound ∧ (cache.fires date).held = cache.held.step limits (.fires date) := by
  rw [fires]
  by_cases pending : cache.timer.isSome = true
  · rw [if_pos pending]
    obtain ⟨used, held⟩ := @expire_loop _ { cache with timer := none } date cache.items.entries sound.used
    refine ⟨schedule_sound date used, held.trans ?_⟩
    apply List.filter_congr
    intro item member
    rw [decide_eq_decide]
    constructor
    · intro others
      rw [← not_le]
      intro expired
      exact others item member expired rfl
    · intro live gone inside expired same
      rw [held_unique member inside same] at live
      exact absurd live (not_lt.mpr expired)
  · rw [if_neg pending]
    have none_ : cache.held = [] := by
      by_contra some_
      exact pending (sound.timer.mpr some_)
    refine ⟨sound, ?_⟩
    rw [none_]
    rfl

/-! ## One step and any number of them -/

theorem step_spec (limits : Limits) (sound : cache.Sound) (event : Event T) :
    (cache.step limits event).Sound ∧ cache.answer limits event = cache.held.answer limits event ∧
      (cache.step limits event).held = cache.held.step limits event := by
  cases event with
  | get key now =>
      obtain ⟨after, value, held⟩ := get_spec limits sound key now
      exact ⟨after, congrArg Answer.value value, held⟩
  | set key value bytes now date =>
      obtain ⟨after, same⟩ := set_spec limits sound key value bytes now date
      exact ⟨after, congrArg Answer.admitted (congrArg Prod.fst same), congrArg Prod.snd same⟩
  | delete key => exact ⟨sound.delete key, rfl, held_delete key cache⟩
  | clear => exact ⟨⟨rfl, by simp [step, clear, held, OrderedMap.empty]⟩, rfl, rfl⟩
  | fires date =>
      obtain ⟨after, held⟩ := fires_spec limits sound date
      exact ⟨after, rfl, held⟩

theorem replay_spec (limits : Limits) (history : List (Event T)) :
    (replay (step limits) {} history).Sound ∧
      (replay (step limits) {} history).held = replay (Lru.step limits) [] history := by
  refine replay_induction (motive := fun past (cache : BoundedCache T) => cache.Sound ∧ cache.held = replay (Lru.step limits) [] past)
    ?_ ?_ history
  · exact ⟨⟨rfl, by simp [held, OrderedMap.empty]⟩, rfl⟩
  · intro past event ih
    obtain ⟨sound, -, same⟩ := step_spec limits ih.1 event
    refine ⟨sound, same.trans ?_⟩
    rw [ih.2, replay_append, replay_cons, replay_nil]

end BoundedCache

end Dockge.Cache
