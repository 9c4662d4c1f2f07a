import Dockge.Readings.Slot
import Mathlib.Logic.Function.Basic

namespace Dockge.Readings

open Data

variable {T : Type}

/-! The two caches that share a reading: `SharedReading`, and where the directory of a stack comes from. -/

/-! ## `SharedReading` -/

namespace SharedReading

def get (ttlMs now : Int) (shared : Slot T) : Answer T × Slot T := shared.ask (fun held => now - held.readAt < ttlMs) now

def invalidate (shared : Slot T) : Slot T := shared.forget

/-- The handler of `then`: the value is kept where nothing was forgotten since the reading started. -/
def remember (id : Nat) (now : Int) (shared : Slot T) : Slot T :=
  shared.handle id (fun reading => shared.generation = reading.generation)
    fun _ value => some { value, readAt := now, reading := id }

inductive Event (T : Type) where
  | get (now : Int)
  | invalidate
  | settles (id : Nat) (outcome : Except Unit T)
  | thenRuns (id : Nat) (now : Int)
  | finallyRuns (id : Nat)

def step (ttlMs : Int) (shared : Slot T) : Event T → Slot T
  | .get now => (get ttlMs now shared).2
  | .invalidate => invalidate shared
  | .settles id outcome => shared.settle id outcome
  | .thenRuns id now => remember id now shared
  | .finallyRuns id => shared.finish id

theorem remember_moves (id : Nat) (now : Int) (shared : Slot T) : shared.Moves (remember id now shared) := by
  refine Slot.handle_moves shared id _ _ ?_ ?_
  · intro _ reading _ may
    exact (of_decide_eq_true may).symm
  · intro _ value kept same
    cases same
    exact ⟨rfl, rfl⟩

theorem step_moves (ttlMs : Int) (shared : Slot T) (event : Event T) : shared.Moves (step ttlMs shared event) := by
  cases event with
  | get now => exact Slot.ask_moves shared _ now
  | invalidate => exact Slot.forget_moves shared
  | settles id outcome => exact Slot.settle_moves shared id outcome
  | thenRuns id now => exact remember_moves id now shared
  | finallyRuns id => exact Slot.finish_moves shared id

theorem step_generation (ttlMs : Int) (shared : Slot T) {event : Event T} (other : event ≠ .invalidate) :
    (step ttlMs shared event).generation = shared.generation := by
  cases event with
  | get now => exact Slot.ask_generation shared _ now
  | invalidate => exact absurd rfl other
  | settles id outcome => exact Slot.settle_generation shared id outcome
  | thenRuns id now => exact Slot.handle_generation shared id _ _
  | finallyRuns id => exact Slot.finish_generation shared id

end SharedReading

/-! ## `readStackSource` -/

namespace StackSource

def cacheMs : Int := 60000

/-- What is kept of each directory, and who reads it -/
abbrev Sources (T : Type) := String → Slot T

def onDirectory (sources : Sources T) (dir : String) (update : Slot T → Slot T) : Sources T :=
  Function.update sources dir (update (sources dir))

/-- The cache drops an entry that has expired when it is asked for it. -/
def unexpired (now : Int) (source : Slot T) : Slot T :=
  if source.held.any fun held => held.readAt + cacheMs ≤ now then source.drop else source

def readStackSource (now : Int) (source : Slot T) : Answer T × Slot T :=
  (unexpired now source).ask (fun held => now - held.readAt < cacheMs) now

/-- The handler of `then`: the source is kept where its reading is still the one that is waited for, and where the
cache admits it. -/
def remember (id : Nat) (admitted : Bool) (source : Slot T) : Slot T :=
  source.handle id (fun _ => source.request = some id)
    fun reading value => if admitted then some { value, readAt := reading.now, reading := id } else none

def clearStackSourceCache (dir : Option String) (sources : Sources T) : Sources T :=
  if dir.getD "" ≠ "" then onDirectory sources (dir.getD "") Slot.forget else fun dir => (sources dir).forget

inductive Event (T : Type) where
  | read (dir : String) (now : Int)
  | clear (dir : Option String)
  | settles (dir : String) (id : Nat) (outcome : Except Unit T)
  | thenRuns (dir : String) (id : Nat) (admitted : Bool)
  | finallyRuns (dir : String) (id : Nat)
  /-- The cache lets an entry go, for its age or for room. -/
  | evicts (dir : String)

def step (sources : Sources T) : Event T → Sources T
  | .read dir now => onDirectory sources dir fun source => (readStackSource now source).2
  | .clear dir => clearStackSourceCache dir sources
  | .settles dir id outcome => onDirectory sources dir fun source => source.settle id outcome
  | .thenRuns dir id admitted => onDirectory sources dir (remember id admitted)
  | .finallyRuns dir id => onDirectory sources dir fun source => source.finish id
  | .evicts dir => onDirectory sources dir Slot.drop

/-- The events that clear a directory -/
def Clears (dir : String) (event : Event T) : Prop :=
  ∃ named, event = .clear named ∧ (named.getD "" = "" ∨ named.getD "" = dir)

theorem unexpired_moves (now : Int) (source : Slot T) : source.Moves (unexpired now source) := by
  unfold unexpired
  split
  · exact Slot.drop_moves source
  · exact Slot.Moves.refl source

/-- The reading that is waited for is of this generation. -/
theorem remember_moves (id : Nat) (admitted : Bool) (source : Slot T) : source.Moves (remember id admitted source) := by
  refine Slot.handle_moves source id _ _ ?_ ?_
  · intro sound reading found may
    obtain ⟨waits, held, same, -⟩ := sound.request id (of_decide_eq_true may)
    obtain rfl : reading = waits := Option.some.inj (found.symm.trans held)
    exact same
  · intro reading value kept same
    split at same
    · cases same
      exact ⟨rfl, rfl⟩
    · cases same

variable {sources : Sources T} {dir : String}

theorem onDirectory_moves (named : String) {update : Slot T → Slot T} (moves : ∀ source : Slot T, source.Moves (update source)) :
    (sources dir).Moves (onDirectory sources named update dir) := by
  by_cases same : dir = named
  · rw [same, onDirectory, Function.update_self]
    exact moves _
  · rw [onDirectory, Function.update_of_ne same]
    exact Slot.Moves.refl _

theorem onDirectory_generation (named : String) {update : Slot T → Slot T}
    (kept : ∀ source : Slot T, (update source).generation = source.generation) :
    (onDirectory sources named update dir).generation = (sources dir).generation := by
  by_cases same : dir = named
  · rw [same, onDirectory, Function.update_self, kept]
  · rw [onDirectory, Function.update_of_ne same]

theorem clear_cases (named : Option String) :
    clearStackSourceCache named sources dir = (sources dir).forget ∧ Clears dir (.clear named : Event T) ∨
      clearStackSourceCache named sources dir = sources dir ∧ ¬ Clears dir (.clear named : Event T) := by
  unfold clearStackSourceCache
  split
  next one =>
    by_cases same : dir = named.getD ""
    · refine .inl ⟨?_, named, rfl, .inr same.symm⟩
      rw [same, onDirectory, Function.update_self]
    · refine .inr ⟨Function.update_of_ne same _ _, ?_⟩
      intro clears
      obtain ⟨other, own, all | named_⟩ := clears
      · cases own
        exact one all
      · cases own
        exact same named_.symm
  next all => exact .inl ⟨rfl, named, rfl, .inl (not_not.mp all)⟩

theorem step_moves (sources : Sources T) (dir : String) (event : Event T) : (sources dir).Moves (step sources event dir) := by
  cases event with
  | read named now =>
      exact onDirectory_moves named fun source => (unexpired_moves now source).trans (Slot.ask_moves _ _ now)
  | clear named =>
      obtain ⟨same, -⟩ | ⟨same, -⟩ := @clear_cases T sources dir named
      · rw [step, same]
        exact Slot.forget_moves _
      · rw [step, same]
        exact Slot.Moves.refl _
  | settles named id outcome => exact onDirectory_moves named fun source => Slot.settle_moves source id outcome
  | thenRuns named id admitted => exact onDirectory_moves named (remember_moves id admitted)
  | finallyRuns named id => exact onDirectory_moves named fun source => Slot.finish_moves source id
  | evicts named => exact onDirectory_moves named Slot.drop_moves

theorem step_generation (sources : Sources T) {dir : String} {event : Event T} (other : ¬ Clears dir event) :
    (step sources event dir).generation = (sources dir).generation := by
  cases event with
  | read named now =>
      refine onDirectory_generation named fun source => (Slot.ask_generation _ _ now).trans ?_
      unfold unexpired
      split <;> rfl
  | clear named =>
      obtain ⟨-, clears⟩ | ⟨same, -⟩ := @clear_cases T sources dir named
      · exact absurd clears other
      · rw [step, same]
  | settles named id outcome => exact onDirectory_generation named fun source => Slot.settle_generation source id outcome
  | thenRuns named id admitted => exact onDirectory_generation named fun source => Slot.handle_generation source id _ _
  | finallyRuns named id => exact onDirectory_generation named fun source => Slot.finish_generation source id
  | evicts named => exact onDirectory_generation named fun _ => rfl

end StackSource

/-- In every run of either cache nobody who asks after it was invalidated is told of a reading from before, at most one
reading runs between two invalidations, and what is kept was read by a reading that succeeded. -/
theorem readings_fresh (T : Type) :
    (∀ ttlMs, Slot.HandsOutFresh (replay (SharedReading.step ttlMs) ({} : Slot T)) (· = .invalidate)
      (SharedReading.get ttlMs)) ∧
    ∀ dir, Slot.HandsOutFresh (fun history => replay StackSource.step (fun _ => ({} : Slot T)) history dir)
      (StackSource.Clears dir) StackSource.readStackSource := by
  constructor
  · intro ttlMs
    refine Slot.handsOutFresh Slot.empty_sound ?_ ?_ ?_ ?_
    · intro history event
      rw [replay_append]
      exact SharedReading.step_moves ttlMs _ event
    · intro history event forgets
      rw [replay_append, forgets]
      exact Slot.Grows.refl _
    · intro history event other
      rw [replay_append]
      exact SharedReading.step_generation ttlMs _ other
    · intro now slot
      exact ⟨_, slot, Slot.Moves.refl slot, rfl⟩
  · intro dir
    refine Slot.handsOutFresh Slot.empty_sound ?_ ?_ ?_ ?_
    · intro history event
      rw [replay_append]
      exact StackSource.step_moves _ dir event
    · intro history event clears
      obtain ⟨named, rfl, own⟩ := clears
      rw [replay_append, replay_cons, replay_nil, StackSource.step]
      obtain ⟨same, -⟩ | ⟨-, other⟩ := @StackSource.clear_cases T (replay StackSource.step (fun _ => {}) history) dir named
      · rw [same]
        exact Slot.Grows.refl _
      · exact absurd ⟨named, rfl, own⟩ other
    · intro history event other
      rw [replay_append]
      exact StackSource.step_generation _ other
    · intro now slot
      exact ⟨_, _, StackSource.unexpired_moves now slot, rfl⟩

end Dockge.Readings
