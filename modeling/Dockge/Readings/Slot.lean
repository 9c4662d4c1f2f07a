import Dockge.Data.History

namespace Dockge.Readings

/-! A value that is read once for everybody who asks while the reading runs, and kept until it is forgotten. -/

structure Reading (T : Type) where
  /-- How often the value had been forgotten when it started -/
  generation : Nat
  now : Int
  outcome : Option (Except Unit T) := none
  /-- What to do with its value was decided. -/
  handled : Bool := false
  finished : Bool := false

/-- A value that is kept, with the reading it came from -/
structure Held (T : Type) where
  value : T
  readAt : Int
  reading : Nat

structure Slot (T : Type) where
  held : Option (Held T) := none
  request : Option Nat := none
  generation : Nat := 0
  readings : List (Reading T) := []

inductive Answer (T : Type) where
  | held (held : Held T)
  /-- The promise of a reading -/
  | waits (reading : Nat)

def Answer.reading {T : Type} : Answer T → Nat
  | held kept => kept.reading
  | waits reading => reading

/-- A value has been read by the reading it is said to come from; a promise is one that still runs. -/
def Answer.BackedBy {T : Type} (reading : Reading T) : Answer T → Prop
  | held kept => reading.outcome = some (.ok kept.value)
  | waits _ => reading.finished = false

namespace Slot

variable {T : Type}

def change (slot : Slot T) (id : Nat) (update : Reading T → Reading T) : Slot T :=
  { slot with readings := slot.readings.modify id update }

def start (slot : Slot T) (now : Int) : Answer T × Slot T :=
  (.waits slot.readings.length,
    { slot with
      request := some slot.readings.length
      readings := slot.readings ++ [{ generation := slot.generation, now }] })

/-- The value that is kept as long as it is fresh, or the reading that runs, or a new one -/
def ask (slot : Slot T) (fresh : Held T → Bool) (now : Int) : Answer T × Slot T :=
  match slot.held.filter fresh, slot.request with
  | some held, _ => (.held held, slot)
  | none, some request => (.waits request, slot)
  | none, none => slot.start now

def forget (slot : Slot T) : Slot T := { slot with held := none, request := none, generation := slot.generation + 1 }

def drop (slot : Slot T) : Slot T := { slot with held := none }

def settle (slot : Slot T) (id : Nat) (outcome : Except Unit T) : Slot T :=
  match slot.readings[id]? with
  | some reading => if reading.outcome.isNone then slot.change id fun reading => { reading with outcome := some outcome } else slot
  | none => slot

/-- The handler of a reading: a value is kept where that is still allowed. -/
def handle (slot : Slot T) (id : Nat) (mayKeep : Reading T → Bool) (keep : Reading T → T → Option (Held T)) : Slot T :=
  match slot.readings[id]? with
  | some reading =>
      match reading.outcome with
      | some outcome =>
          if reading.handled then slot
          else
            let slot := slot.change id fun reading => { reading with handled := true }
            match outcome with
            | .ok value => if mayKeep reading then { slot with held := keep reading value } else slot
            | .error _ => slot
      | none => slot
  | none => slot

def finish (slot : Slot T) (id : Nat) : Slot T :=
  match slot.readings[id]? with
  | some reading =>
      if reading.handled && !reading.finished then
        let slot := slot.change id fun reading => { reading with finished := true }
        if slot.request = some id then { slot with request := none } else slot
      else slot
  | none => slot

/-! ## What is kept is of this generation -/

structure Sound (slot : Slot T) : Prop where
  bound : ∀ reading ∈ slot.readings, reading.generation ≤ slot.generation
  answered : ∀ reading ∈ slot.readings, reading.handled = true → reading.outcome.isSome = true
  ended : ∀ reading ∈ slot.readings, reading.finished = true → reading.handled = true
  held : ∀ held, slot.held = some held → ∃ reading, slot.readings[held.reading]? = some reading ∧
    reading.generation = slot.generation ∧ reading.outcome = some (.ok held.value)
  request : ∀ id, slot.request = some id → ∃ reading, slot.readings[id]? = some reading ∧
    reading.generation = slot.generation ∧ reading.finished = false
  alone : ∀ id reading, slot.readings[id]? = some reading → reading.generation = slot.generation →
    reading.finished = false → slot.request = some id

/-- What a run can have done to a slot -/
structure Grows (before after : Slot T) : Prop where
  generation : before.generation ≤ after.generation
  kept : ∀ (id : Nat) (reading : Reading T), before.readings[id]? = some reading → ∃ later : Reading T, after.readings[id]? = some later ∧
    later.generation = reading.generation
  newer : ∀ (id : Nat) (reading : Reading T), after.readings[id]? = some reading → before.readings.length ≤ id →
    before.generation ≤ reading.generation

variable {slot before after : Slot T} {id : Nat}

theorem Grows.refl (slot : Slot T) : Grows slot slot where
  generation := Nat.le_refl _
  kept _ reading found := ⟨reading, found, rfl⟩
  newer id reading found late := by
    obtain ⟨within, -⟩ := List.getElem?_eq_some_iff.mp found
    omega

theorem Grows.length (grows : Grows before after) : before.readings.length ≤ after.readings.length := by
  by_contra shorter
  have last : before.readings.length - 1 < before.readings.length := by omega
  obtain ⟨later, found, -⟩ := grows.kept _ _ (List.getElem?_eq_getElem last)
  obtain ⟨within, -⟩ := List.getElem?_eq_some_iff.mp found
  omega

theorem Grows.trans {middle : Slot T} (first : Grows before middle) (second : Grows middle after) : Grows before after where
  generation := Nat.le_trans first.generation second.generation
  kept id reading found := by
    obtain ⟨later, middle_, same⟩ := first.kept id reading found
    obtain ⟨last, found_, same_⟩ := second.kept id later middle_
    exact ⟨last, found_, same_.trans same⟩
  newer id reading found late := by
    by_cases old : id < middle.readings.length
    · obtain ⟨later, found_, same⟩ := second.kept id _ (List.getElem?_eq_getElem old)
      obtain rfl : reading = later := Option.some.inj (found.symm.trans found_)
      rw [same]
      exact first.newer id _ (List.getElem?_eq_getElem old) late
    · exact Nat.le_trans first.generation (second.newer id reading found (Nat.le_of_not_lt old))

theorem change_get (slot : Slot T) (id other : Nat) (update : Reading T → Reading T) :
    (slot.change id update).readings[other]? =
      if id = other then slot.readings[other]?.map update else slot.readings[other]? := by
  rw [change, List.getElem?_modify]
  split <;> simp_all

section

variable {update : Reading T → Reading T}

theorem change_grows (slot : Slot T) (id : Nat) (update : Reading T → Reading T)
    (same : ∀ reading, (update reading).generation = reading.generation) :
    Grows slot (slot.change id update) where
  generation := Nat.le_refl _
  kept other reading found := by
    rw [change_get, found]
    split
    · exact ⟨update reading, rfl, same reading⟩
    · exact ⟨reading, rfl, rfl⟩
  newer other reading found late := by
    obtain ⟨within, -⟩ := List.getElem?_eq_some_iff.mp found
    rw [change, List.length_modify] at within
    omega

/-- Where a reading is changed, it is one of those from before. -/
theorem change_cases {other : Nat} {reading : Reading T} (found : (slot.change id update).readings[other]? = some reading) :
    ∃ earlier, slot.readings[other]? = some earlier ∧ (reading = earlier ∨ other = id ∧ reading = update earlier) := by
  rw [change_get] at found
  split at found
  next same =>
    obtain ⟨earlier, held, rfl⟩ := Option.map_eq_some_iff.mp found
    exact ⟨earlier, held, .inr ⟨same.symm, rfl⟩⟩
  next => exact ⟨reading, found, .inl rfl⟩

theorem mem_change {reading : Reading T} (member : reading ∈ (slot.change id update).readings) :
    ∃ earlier ∈ slot.readings, reading = earlier ∨ slot.readings[id]? = some earlier ∧ reading = update earlier := by
  obtain ⟨other, found⟩ := List.mem_iff_getElem?.mp member
  obtain ⟨earlier, held, same⟩ := change_cases found
  refine ⟨earlier, List.mem_of_getElem? held, ?_⟩
  obtain same | ⟨rfl, same⟩ := same
  · exact .inl same
  · exact .inr ⟨held, same⟩

/-- A change that keeps what a reading came to, and does not end it -/
theorem Sound.change (sound : slot.Sound) (generation : ∀ reading, (update reading).generation = reading.generation)
    (finished : ∀ reading, (update reading).finished = reading.finished)
    (handled : ∀ reading, reading.handled = true → (update reading).handled = true)
    (answered : ∀ reading, slot.readings[id]? = some reading → (update reading).handled = true →
      (update reading).outcome.isSome = true)
    (outcome : ∀ reading, slot.readings[id]? = some reading → reading.outcome.isSome = true →
      (update reading).outcome = reading.outcome) : (slot.change id update).Sound where
  bound reading member := by
    obtain ⟨earlier, held, rfl | ⟨-, rfl⟩⟩ := mem_change member
    · exact sound.bound _ held
    · rw [generation]
      exact sound.bound _ held
  answered reading member marked := by
    obtain ⟨earlier, held, rfl | ⟨found, rfl⟩⟩ := mem_change member
    · exact sound.answered _ held marked
    · exact answered earlier found marked
  ended reading member finished_ := by
    obtain ⟨earlier, held, rfl | ⟨-, rfl⟩⟩ := mem_change member
    · exact sound.ended _ held finished_
    · rw [finished] at finished_
      exact handled earlier (sound.ended _ held finished_)
  held kept found := by
    obtain ⟨reading, held, same, value⟩ := sound.held kept found
    rw [change_get, held]
    split
    next own =>
      refine ⟨update reading, rfl, (generation reading).trans same, ?_⟩
      rw [outcome reading (own ▸ held) (by rw [value]; rfl), value]
    next => exact ⟨reading, rfl, same, value⟩
  request other found := by
    obtain ⟨reading, held, same, open_⟩ := sound.request other found
    rw [change_get, held]
    split
    · exact ⟨update reading, rfl, (generation reading).trans same, (finished reading).trans open_⟩
    · exact ⟨reading, rfl, same, open_⟩
  alone other reading found same open_ := by
    obtain ⟨earlier, held, rfl | ⟨rfl, rfl⟩⟩ := change_cases found
    · exact sound.alone other _ held same open_
    · exact sound.alone _ earlier held ((generation earlier).symm.trans same) ((finished earlier).symm.trans open_)

end

/-! ## What each operation does -/

/-- It stays sound, and grows. -/
def Moves (before after : Slot T) : Prop := (before.Sound → after.Sound) ∧ Grows before after

theorem Moves.refl (slot : Slot T) : Moves slot slot := ⟨id, Grows.refl slot⟩

theorem Moves.trans {middle : Slot T} (first : Moves before middle) (second : Moves middle after) : Moves before after :=
  ⟨fun sound => second.1 (first.1 sound), first.2.trans second.2⟩

theorem start_moves (slot : Slot T) (now : Int) (free : slot.request = none) : Moves slot (slot.start now).2 := by
  have found (id : Nat) (reading : Reading T) (held : (slot.start now).2.readings[id]? = some reading) :
      slot.readings[id]? = some reading ∨ id = slot.readings.length ∧ reading = { generation := slot.generation, now } := by
    have listed : (slot.readings ++ [{ generation := slot.generation, now }])[id]? = some reading := held
    rw [List.getElem?_append] at listed
    split at listed
    next => exact .inl listed
    next late =>
      rw [List.getElem?_singleton] at listed
      split at listed
      next first => exact .inr ⟨by omega, (Option.some.inj listed).symm⟩
      next => cases listed
  have kept (id : Nat) (reading : Reading T) (held : slot.readings[id]? = some reading) :
      (slot.start now).2.readings[id]? = some reading := by
    obtain ⟨within, -⟩ := List.getElem?_eq_some_iff.mp held
    exact (List.getElem?_append_left within).trans held
  constructor
  · intro sound
    constructor
    · intro reading member
      obtain held | same := List.mem_append.mp member
      · exact sound.bound reading held
      · rw [List.mem_singleton.mp same]
        exact Nat.le_refl _
    · intro reading member marked
      obtain held | same := List.mem_append.mp member
      · exact sound.answered reading held marked
      · rw [List.mem_singleton.mp same] at marked
        cases marked
    · intro reading member finished_
      obtain held | same := List.mem_append.mp member
      · exact sound.ended reading held finished_
      · rw [List.mem_singleton.mp same] at finished_
        cases finished_
    · intro value held
      obtain ⟨reading, found, rest⟩ := sound.held value held
      exact ⟨reading, kept _ _ found, rest⟩
    · intro id same
      obtain rfl : slot.readings.length = id := Option.some.inj same
      exact ⟨_, List.getElem?_concat_length, rfl, rfl⟩
    · intro id reading held same open_
      obtain earlier | ⟨rfl, -⟩ := found id reading held
      · have none_ := sound.alone id reading earlier same open_
        rw [free] at none_
        cases none_
      · rfl
  · constructor
    · exact Nat.le_refl _
    · intro id reading held
      exact ⟨reading, kept _ _ held, rfl⟩
    · intro id reading held late
      obtain earlier | ⟨-, rfl⟩ := found id reading held
      · obtain ⟨within, -⟩ := List.getElem?_eq_some_iff.mp earlier
        omega
      · exact Nat.le_refl _

theorem ask_moves (slot : Slot T) (fresh : Held T → Bool) (now : Int) : Moves slot (slot.ask fresh now).2 := by
  unfold ask
  split
  next => exact Moves.refl slot
  next => exact Moves.refl slot
  next free => exact start_moves slot now free

/-- What is answered comes from a reading of this generation that is not finished, or from one that has succeeded. -/
theorem ask_answer (sound : slot.Sound) (fresh : Held T → Bool) (now : Int) :
    ∃ reading, (slot.ask fresh now).2.readings[(slot.ask fresh now).1.reading]? = some reading ∧
      reading.generation = slot.generation ∧ (slot.ask fresh now).1.BackedBy reading := by
  unfold ask
  split
  next held found =>
    exact sound.held held (Option.eq_some_of_filter_eq_some found)
  next id _ found => exact sound.request id found
  next => exact ⟨_, List.getElem?_concat_length, rfl, rfl⟩

theorem forget_moves (slot : Slot T) : Moves slot slot.forget := by
  constructor
  · intro sound
    refine ⟨fun reading member => Nat.le_succ_of_le (sound.bound reading member), sound.answered, sound.ended, nofun, nofun, ?_⟩
    intro id reading found same
    have bound := sound.bound reading (List.mem_of_getElem? found)
    rw [same] at bound
    exact absurd bound (Nat.not_succ_le_self _)
  · refine ⟨Nat.le_succ _, fun id reading found => ⟨reading, found, rfl⟩, fun id reading found late => ?_⟩
    obtain ⟨within, -⟩ := List.getElem?_eq_some_iff.mp found
    exact absurd within (Nat.not_lt.mpr late)

theorem drop_moves (slot : Slot T) : Moves slot slot.drop :=
  ⟨fun sound => ⟨sound.bound, sound.answered, sound.ended, nofun, sound.request, sound.alone⟩,
    ⟨Nat.le_refl _, (Grows.refl slot).kept, (Grows.refl slot).newer⟩⟩

theorem settle_moves (slot : Slot T) (id : Nat) (outcome : Except Unit T) : Moves slot (slot.settle id outcome) := by
  unfold settle
  split
  next reading found =>
    split
    next running =>
      refine ⟨fun sound => ?_, change_grows slot id _ fun _ => rfl⟩
      refine sound.change (fun _ => rfl) (fun _ => rfl) (fun _ marked => marked) (fun _ _ _ => rfl) fun other held decided => ?_
      obtain rfl : reading = other := Option.some.inj (found.symm.trans held)
      rw [Option.isNone_iff_eq_none.mp running] at decided
      cases decided
    next => exact Moves.refl slot
  next => exact Moves.refl slot

/-- A value is only kept for a reading that is of this generation where the slot is sound. -/
theorem handle_moves (slot : Slot T) (id : Nat) (mayKeep : Reading T → Bool) (keep : Reading T → T → Option (Held T))
    (current : slot.Sound → ∀ reading, slot.readings[id]? = some reading → mayKeep reading = true →
      reading.generation = slot.generation)
    (own : ∀ reading value kept, keep reading value = some kept → kept.reading = id ∧ kept.value = value) :
    Moves slot (slot.handle id mayKeep keep) := by
  unfold handle
  split
  next reading found =>
    split
    next outcome decided =>
      have marked : Moves slot (slot.change id fun reading => { reading with handled := true }) := by
        refine ⟨fun sound => ?_, change_grows slot id _ fun _ => rfl⟩
        refine sound.change (fun _ => rfl) (fun _ => rfl) (fun _ _ => rfl) (fun other held _ => ?_) fun _ _ _ => rfl
        obtain rfl : reading = other := Option.some.inj (found.symm.trans held)
        exact Option.isSome_of_eq_some decided
      split
      next => exact Moves.refl slot
      next =>
        dsimp only
        split
        next value =>
          split
          next may =>
            refine ⟨fun sound => ?_, ⟨marked.2.generation, marked.2.kept, marked.2.newer⟩⟩
            have after := marked.1 sound
            refine ⟨after.bound, after.answered, after.ended, fun kept held => ?_, after.request, after.alone⟩
            obtain ⟨same, value_⟩ := own reading value kept held
            have changed := change_get slot id id fun reading => { reading with handled := true }
            rw [if_pos rfl, found] at changed
            rw [same]
            exact ⟨_, changed, current sound reading found may, by rw [value_]; exact decided⟩
          next => exact marked
        next => exact marked
    next => exact Moves.refl slot
  next => exact Moves.refl slot

theorem finish_moves (slot : Slot T) (id : Nat) : Moves slot (slot.finish id) := by
  unfold finish
  split
  next reading found =>
    split
    next ready =>
      obtain ⟨marked, -⟩ := Bool.and_eq_true_iff.mp ready
      have grows := change_grows slot id (fun reading => { reading with finished := true }) fun _ => rfl
      have ended : ∀ other ∈ (slot.change id fun reading => { reading with finished := true }).readings, other.finished = true →
          slot.Sound → other.handled = true := by
        intro other member finished_ sound
        obtain ⟨earlier, held, rfl | ⟨found_, rfl⟩⟩ := mem_change member
        · exact sound.ended _ held finished_
        · obtain rfl : reading = earlier := Option.some.inj (found.symm.trans found_)
          exact marked
      have after (sound : slot.Sound) (request : Option Nat)
          (asked : ∀ other, request = some other ↔ slot.request = some other ∧ other ≠ id) :
          Sound { slot.change id (fun reading => { reading with finished := true }) with request } := by
        constructor
        · intro other member
          obtain ⟨earlier, held, rfl | ⟨-, rfl⟩⟩ := mem_change member
          · exact sound.bound _ held
          · exact sound.bound earlier held
        · intro other member marked_
          obtain ⟨earlier, held, rfl | ⟨-, rfl⟩⟩ := mem_change member
          · exact sound.answered _ held marked_
          · exact sound.answered earlier held marked_
        · exact fun other member finished_ => ended other member finished_ sound
        · intro kept held
          obtain ⟨earlier, found_, same, value⟩ := sound.held kept held
          have changed := change_get slot id kept.reading fun reading => { reading with finished := true }
          rw [found_] at changed
          split at changed
          · exact ⟨_, changed, same, value⟩
          · exact ⟨_, changed, same, value⟩
        · intro other waits
          obtain ⟨waits, differs⟩ := (asked other).mp waits
          obtain ⟨earlier, found_, same, open_⟩ := sound.request other waits
          have changed := change_get slot id other fun reading => { reading with finished := true }
          rw [if_neg (Ne.symm differs), found_] at changed
          exact ⟨earlier, changed, same, open_⟩
        · intro other later found_ same open_
          obtain ⟨earlier, held, rfl | ⟨-, rfl⟩⟩ := change_cases found_
          · refine (asked other).mpr ⟨sound.alone other _ held same open_, fun own => ?_⟩
            have changed := change_get slot id other fun reading => { reading with finished := true }
            rw [if_pos own.symm, held] at changed
            have both := Option.some.inj (found_.symm.trans changed)
            rw [both] at open_
            cases open_
          · cases open_
      dsimp only
      split
      next own =>
        refine ⟨fun sound => after sound none fun other => ⟨nofun, fun both => ?_⟩, ⟨grows.generation, grows.kept, grows.newer⟩⟩
        exact absurd (Option.some.inj (both.1.symm.trans own)) both.2
      next other_ =>
        refine ⟨fun sound => after sound slot.request fun other => ⟨fun waits => ⟨waits, fun own => ?_⟩, fun both => both.1⟩,
          grows⟩
        exact other_ (own ▸ waits)
    next => exact Moves.refl slot
  next => exact Moves.refl slot

/-! ## Runs -/

/-- A reading that was started before a slot was forgotten is not the answer to who asks later. -/
theorem answer_late (beforeSound : before.Sound) (sound : slot.Sound) (grows : Grows before.forget slot)
    (fresh : Held T → Bool) (now : Int) : before.readings.length ≤ (slot.ask fresh now).1.reading := by
  obtain ⟨reading, found, same, -⟩ := ask_answer sound fresh now
  by_contra early
  have old := List.getElem?_eq_getElem (Nat.lt_of_not_le early)
  have bound := beforeSound.bound _ (List.mem_of_getElem? old)
  obtain ⟨later, found_, same_⟩ := ((grows.trans (ask_moves slot fresh now).2).kept _ _ old)
  obtain rfl : reading = later := Option.some.inj (found.symm.trans found_)
  have passed := grows.generation
  rw [← same_, same] at bound
  exact absurd (Nat.le_trans passed bound) (Nat.not_succ_le_self _)

theorem held_late (beforeSound : before.Sound) (sound : slot.Sound) (grows : Grows before.forget slot) {held : Held T}
    (found : slot.held = some held) : before.readings.length ≤ held.reading := by
  obtain ⟨reading, found_, same, -⟩ := sound.held held found
  by_contra early
  have old := List.getElem?_eq_getElem (Nat.lt_of_not_le early)
  have bound := beforeSound.bound _ (List.mem_of_getElem? old)
  obtain ⟨later, later_, same_⟩ := grows.kept _ _ old
  obtain rfl : reading = later := Option.some.inj (found_.symm.trans later_)
  have passed := grows.generation
  rw [← same_, same] at bound
  exact absurd (Nat.le_trans passed bound) (Nat.not_succ_le_self _)

/-- Of the readings started since, at most one runs. -/
theorem one_runs (sound : slot.Sound) (grows : Grows before slot) (generation : slot.generation = before.generation)
    {first second : Nat} {one other : Reading T} (found : slot.readings[first]? = some one)
    (found_ : slot.readings[second]? = some other) (late : before.readings.length ≤ first)
    (late_ : before.readings.length ≤ second) (runs : one.outcome = none) (runs_ : other.outcome = none) : first = second := by
  have waits (id : Nat) (reading : Reading T) (found : slot.readings[id]? = some reading) (late : before.readings.length ≤ id)
      (runs : reading.outcome = none) : slot.request = some id := by
    have member := List.mem_of_getElem? found
    have current := Nat.le_antisymm (sound.bound reading member) (generation ▸ grows.newer id reading found late)
    refine sound.alone id reading found current ?_
    cases finished : reading.finished with
    | false => rfl
    | true =>
        have answered := sound.answered reading member (sound.ended reading member finished)
        rw [runs] at answered
        cases answered
  exact Option.some.inj ((waits first one found late runs).symm.trans (waits second other found_ late_ runs_))

/-- What everybody is told who asks in a run, where the run forgets now and then -/
structure HandsOutFresh {E : Type} (slotAt : List E → Slot T) (forgets : E → Prop)
    (get : Int → Slot T → Answer T × Slot T) : Prop where
  fresh : ∀ before event after now, forgets event →
    (slotAt before).readings.length ≤ (get now (slotAt (before ++ event :: after))).1.reading
  kept : ∀ before event after held, forgets event → (slotAt (before ++ event :: after)).held = some held →
    (slotAt before).readings.length ≤ held.reading
  alone : ∀ before between first second one other, (∀ event ∈ between, ¬ forgets event) →
    (slotAt (before ++ between)).readings[first]? = some one → (slotAt (before ++ between)).readings[second]? = some other →
    (slotAt before).readings.length ≤ first → (slotAt before).readings.length ≤ second →
    one.outcome = none → other.outcome = none → first = second
  succeeded : ∀ history held, (slotAt history).held = some held →
    ∃ reading, (slotAt history).readings[held.reading]? = some reading ∧ reading.outcome = some (.ok held.value)
  backed : ∀ history now, ∃ reading,
    (get now (slotAt history)).2.readings[(get now (slotAt history)).1.reading]? = some reading ∧
      (get now (slotAt history)).1.BackedBy reading

theorem handsOutFresh {E : Type} {slotAt : List E → Slot T} {forgets : E → Prop} {get : Int → Slot T → Answer T × Slot T}
    (start : (slotAt []).Sound) (moves : ∀ history event, Moves (slotAt history) (slotAt (history ++ [event])))
    (forgotten : ∀ history event, forgets event → Grows (slotAt history).forget (slotAt (history ++ [event])))
    (same : ∀ history event, ¬ forgets event → (slotAt (history ++ [event])).generation = (slotAt history).generation)
    (asks : ∀ now slot, ∃ fresh after, Moves slot after ∧ get now slot = after.ask fresh now) :
    HandsOutFresh slotAt forgets get := by
  have through (history more : List E) : Moves (slotAt history) (slotAt (history ++ more)) := by
    induction more generalizing history with
    | nil =>
        rw [List.append_nil]
        exact Moves.refl _
    | cons event rest ih =>
        have next := ih (history ++ [event])
        rw [List.append_assoc, List.singleton_append] at next
        exact (moves history event).trans next
  have sound (history : List E) : (slotAt history).Sound := (through [] history).1 start
  have later (before : List E) (event : E) (after : List E) (forgets_ : forgets event) :
      Grows (slotAt before).forget (slotAt (before ++ event :: after)) := by
    have rest := (through (before ++ [event]) after).2
    rw [List.append_assoc, List.singleton_append] at rest
    exact (forgotten before event forgets_).trans rest
  constructor
  · intro before event after now forgets_
    obtain ⟨fresh, asked, moved, same⟩ := asks now (slotAt (before ++ event :: after))
    rw [same]
    exact answer_late (sound before) (moved.1 (sound _)) ((later before event after forgets_).trans moved.2) fresh now
  · intro before event after held forgets_ found
    exact held_late (sound before) (sound _) (later before event after forgets_) found
  · intro before between first second one other quiet found found_ late late_ runs runs_
    have unchanged : (slotAt (before ++ between)).generation = (slotAt before).generation := by
      clear found found_ late late_
      induction between generalizing before with
      | nil => rw [List.append_nil]
      | cons event rest ih =>
          have next := ih (before ++ [event]) fun event member => quiet event (List.mem_cons_of_mem _ member)
          rw [List.append_assoc, List.singleton_append] at next
          rw [next, same before event (quiet event List.mem_cons_self)]
    exact one_runs (sound _) (through before between).2 unchanged found found_ late late_ runs runs_
  · intro history held found
    obtain ⟨reading, found_, -, value⟩ := (sound history).held held found
    exact ⟨reading, found_, value⟩
  · intro history now
    obtain ⟨fresh, asked, moved, same⟩ := asks now (slotAt history)
    obtain ⟨reading, found, -, backed⟩ := ask_answer (moved.1 (sound history)) fresh now
    rw [same]
    exact ⟨reading, found, backed⟩

/-! ## What forgets -/

section

variable (slot : Slot T) (id : Nat)

theorem ask_generation (fresh : Held T → Bool) (now : Int) : (slot.ask fresh now).2.generation = slot.generation := by
  unfold ask
  split <;> rfl

theorem settle_generation (outcome : Except Unit T) : (slot.settle id outcome).generation = slot.generation := by
  unfold settle
  split
  · split <;> rfl
  · rfl

theorem handle_generation (mayKeep : Reading T → Bool) (keep : Reading T → T → Option (Held T)) :
    (slot.handle id mayKeep keep).generation = slot.generation := by
  unfold handle
  split
  · split
    · split
      · rfl
      · dsimp only
        split
        · split <;> rfl
        · rfl
    · rfl
  · rfl

theorem finish_generation : (slot.finish id).generation = slot.generation := by
  unfold finish
  split
  · split
    · dsimp only
      split <;> rfl
    · rfl
  · rfl

end

theorem empty_sound : Sound ({} : Slot T) where
  bound _ member := by cases member
  answered _ member := by cases member
  ended _ member := by cases member
  held _ found := by cases found
  request _ found := by cases found
  alone _ _ found := by simp at found

end Slot

end Dockge.Readings
