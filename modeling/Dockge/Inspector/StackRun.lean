import Dockge.Data.History

namespace Dockge.Inspector

open Data

/-! The operation that a screen shows, `StackRun`, and whose answers and reports reach it. -/

structure StackRunTarget where
  endpoint : String
  stack : String
deriving DecidableEq, Repr

inductive StackRunOutcome where
  | empty
  | ok
  | failed
  | unknown
deriving DecidableEq, Repr

structure StackRunProgress (Task : Type) where
  tasks : List Task
  hasOutput : Bool
deriving DecidableEq, Repr

/-- What the screen shows of a run -/
structure Screen (Task : Type) where
  event : String
  elapsed : Int
  outcome : StackRunOutcome
  tasks : List Task
  hasOutput : Bool
deriving DecidableEq, Repr

structure StackRun (Task : Type) extends Screen Task where
  target : Option StackRunTarget
  timer : Option Nat
  startedAt : Int
  /-- The intervals that were set and not cleared -/
  intervals : List Nat
  nextInterval : Nat
deriving DecidableEq, Repr

variable {Task : Type}

namespace StackRun

def initial : StackRun Task :=
  { event := "", elapsed := 0, outcome := .empty, tasks := [], hasOutput := false
    target := none, timer := none, startedAt := 0, intervals := [], nextInterval := 0 }

def running (run : StackRun Task) : Bool := run.event ≠ ""

def belongsToScreen (run : StackRun Task) (target : StackRunTarget) : Bool :=
  match run.target with
  | some held => held.endpoint = target.endpoint && held.stack = target.stack
  | none => false

def stopClock (run : StackRun Task) : StackRun Task :=
  match run.timer with
  | some timer => { run with intervals := run.intervals.filter (· ≠ timer), timer := none }
  | none => run

def start (run : StackRun Task) (target : StackRunTarget) (event : String) (now : Int) : StackRun Task :=
  { run.stopClock with
    target := some ⟨target.endpoint, target.stack⟩
    event := event
    elapsed := 0
    outcome := .empty
    startedAt := now
    timer := some run.stopClock.nextInterval
    intervals := run.stopClock.intervals ++ [run.stopClock.nextInterval]
    nextInterval := run.stopClock.nextInterval + 1 }

def finish (run : StackRun Task) (target : StackRunTarget) (outcome : StackRunOutcome) : Bool × StackRun Task :=
  if !run.belongsToScreen target then (false, run)
  else (true, { run with event := "", outcome := outcome }.stopClock)

def setProgress (run : StackRun Task) (target : StackRunTarget) (progress : StackRunProgress Task) :
    Bool × StackRun Task :=
  if run.target.isSome && !run.belongsToScreen target then (false, run)
  else (true, { run with tasks := progress.tasks, hasOutput := progress.hasOutput })

def release (run : StackRun Task) : StackRun Task :=
  { run.stopClock with
    target := none, event := "", elapsed := 0, outcome := .empty, tasks := [], hasOutput := false }

/-- The callback of an interval, which runs as long as that was not cleared -/
def tick (run : StackRun Task) (interval : Nat) (now : Int) : StackRun Task :=
  if interval ∈ run.intervals then { run with elapsed := (now - run.startedAt) / 1000 } else run

end StackRun

inductive Event (Task : Type) where
  | start (target : StackRunTarget) (event : String) (now : Int)
  | finish (target : StackRunTarget) (outcome : StackRunOutcome)
  | setProgress (target : StackRunTarget) (progress : StackRunProgress Task)
  | release
  | tick (interval : Nat) (now : Int)

def step (run : StackRun Task) : Event Task → StackRun Task
  | .start target event now => run.start target event now
  | .finish target outcome => (run.finish target outcome).2
  | .setProgress target progress => (run.setProgress target progress).2
  | .release => run.release
  | .tick interval now => run.tick interval now

/-! ## Whose the screen is -/

/-- The target last started, and none once it was released -/
def ownerStep (owner : Option StackRunTarget) : Event Task → Option StackRunTarget
  | .start target _ _ => some target
  | .release => none
  | _ => owner

def owner (history : List (Event Task)) : Option StackRunTarget := history.foldl ownerStep none

/-- An event that hands the screen over -/
def Event.hands : Event Task → Bool
  | .start .. | .release => true
  | _ => false

variable {run : StackRun Task} {target : StackRunTarget}

@[simp] theorem stopClock_target : run.stopClock.target = run.target := by
  unfold StackRun.stopClock
  split <;> rfl

@[simp] theorem stopClock_toScreen (run : StackRun Task) : run.stopClock.toScreen = run.toScreen := by
  unfold StackRun.stopClock
  split <;> rfl

theorem belongsToScreen_iff : run.belongsToScreen target = true ↔ run.target = some target := by
  unfold StackRun.belongsToScreen
  cases held : run.target with
  | none => simp
  | some other => cases other; cases target; simp

theorem step_target (event : Event Task) : (step run event).target = ownerStep run.target event := by
  cases event with
  | start => rfl
  | release => rfl
  | finish target outcome =>
      simp only [step, StackRun.finish]
      split
      · rfl
      · exact stopClock_target
  | setProgress target progress =>
      simp only [step, StackRun.setProgress]
      split <;> rfl
  | tick interval now =>
      simp only [step, StackRun.tick]
      split <;> rfl

theorem target_eq_owner (history : List (Event Task)) : (replay step .initial history).target = owner history := by
  refine replay_induction (motive := fun past (run : StackRun Task) => run.target = owner past) rfl (fun past event ih => ?_) history
  rw [step_target, ih, owner, owner, List.foldl_append]
  rfl

/-- The clock of an operation is the only interval that may still run. -/
theorem intervals_eq (history : List (Event Task)) : (replay step .initial history).intervals =
    (replay step .initial history).timer.toList := by
  have stopped {run : StackRun Task} (only : run.intervals = run.timer.toList) : run.stopClock.intervals = [] := by
    unfold StackRun.stopClock
    split
    next timer found => simp [only, found]
    next none_ => simpa [none_] using only
  have quiet {run : StackRun Task} (only : run.intervals = run.timer.toList) :
      run.stopClock.intervals = run.stopClock.timer.toList := by
    rw [stopped only]
    unfold StackRun.stopClock
    split
    next timer found => rfl
    next none_ => rw [none_]; rfl
  refine replay_invariant (motive := fun run : StackRun Task => run.intervals = run.timer.toList) rfl
    (fun run event only => ?_) history
  cases event with
  | start target event now => simp [step, StackRun.start, stopped only]
  | release => exact quiet only
  | finish target outcome =>
      simp only [step, StackRun.finish]
      split
      · exact only
      · exact quiet only
  | setProgress target progress =>
      simp only [step, StackRun.setProgress]
      split <;> exact only
  | tick interval now =>
      simp only [step, StackRun.tick]
      split <;> exact only

/-! ## What reaches the screen -/

theorem finish_other (other : run.target ≠ some target) (outcome : StackRunOutcome) :
    step run (.finish target outcome : Event Task) = run := by
  have foreign : run.belongsToScreen target = false :=
    Bool.eq_false_iff.mpr fun belongs => other (belongsToScreen_iff.mp belongs)
  simp only [step, StackRun.finish, foreign]
  rfl

theorem setProgress_other (owned : run.target.isSome) (other : run.target ≠ some target)
    (progress : StackRunProgress Task) : step run (.setProgress target progress) = run := by
  have foreign : run.belongsToScreen target = false :=
    Bool.eq_false_iff.mpr fun belongs => other (belongsToScreen_iff.mp belongs)
  simp only [step, StackRun.setProgress, owned, foreign]
  rfl

theorem setProgress_applied (reaches : run.target = none ∨ run.target = some target)
    (progress : StackRunProgress Task) : step run (.setProgress target progress) =
      { run with tasks := progress.tasks, hasOutput := progress.hasOutput } := by
  have applied : (run.target.isSome && !run.belongsToScreen target) = false := by
    obtain none_ | owned := reaches
    · simp [none_]
    · simp [belongsToScreen_iff.mpr owned]
  simp only [step, StackRun.setProgress, applied]
  rfl

theorem step_progress (event : Event Task) (stays : event.hands = false)
    (foreign : ∀ progress, event ≠ .setProgress target progress) (owned : run.target = some target) :
    (step run event).tasks = run.tasks ∧ (step run event).hasOutput = run.hasOutput := by
  cases event with
  | start | release => cases stays
  | finish other outcome =>
      simp only [step, StackRun.finish]
      split
      · exact ⟨rfl, rfl⟩
      · have screen := stopClock_toScreen { run with event := "", outcome := outcome }
        have tasks := congrArg Screen.tasks screen
        have hasOutput := congrArg Screen.hasOutput screen
        exact ⟨tasks, hasOutput⟩
  | setProgress other progress =>
      have differs : run.target ≠ some other := by
        rw [owned]
        intro same
        exact foreign progress (by rw [Option.some.inj same])
      rw [setProgress_other (by rw [owned]; rfl) differs]
      exact ⟨rfl, rfl⟩
  | tick interval now =>
      simp only [step, StackRun.tick]
      split <;> exact ⟨rfl, rfl⟩

/-- What is shown of the steps was there before, or is the last that was reported for the owner. -/
theorem shown_progress (run : StackRun Task) (owned : run.target = some target) (after : List (Event Task))
    (stays : ∀ event ∈ after, event.hands = false) :
    (replay step run after).target = some target ∧
      (((replay step run after).tasks = run.tasks ∧ (replay step run after).hasOutput = run.hasOutput ∧
          ∀ progress, .setProgress target progress ∉ after) ∨
        ∃ progress, .setProgress target progress ∈ after ∧ (replay step run after).tasks = progress.tasks ∧
          (replay step run after).hasOutput = progress.hasOutput) := by
  induction after using List.reverseRecOn with
  | nil => exact ⟨owned, .inl ⟨rfl, rfl, fun _ => List.not_mem_nil⟩⟩
  | append_singleton past event ih =>
      obtain ⟨held, shown⟩ := ih fun earlier member => stays earlier (List.mem_append_left _ member)
      have keeps := stays event (List.mem_append_right _ (List.mem_singleton_self _))
      rw [replay_append, replay_cons, replay_nil]
      constructor
      · rw [step_target, held]
        cases event <;> first | rfl | cases keeps
      · by_cases reports : ∃ progress, event = .setProgress target progress
        · obtain ⟨progress, rfl⟩ := reports
          rw [setProgress_applied (.inr held)]
          exact .inr ⟨progress, List.mem_append_right _ (List.mem_singleton_self _), rfl, rfl⟩
        · have foreign : ∀ progress, event ≠ .setProgress target progress :=
            fun progress same => reports ⟨progress, same⟩
          obtain ⟨tasks, hasOutput⟩ := step_progress event keeps foreign held
          rw [tasks, hasOutput]
          obtain ⟨before, output, none_⟩ | ⟨progress, member, its⟩ := shown
          · refine .inl ⟨before, output, fun progress member => ?_⟩
            obtain member | member := List.mem_append.mp member
            · exact none_ progress member
            · exact foreign progress (List.mem_singleton.mp member).symm
          · exact .inr ⟨progress, List.mem_append_left _ member, its⟩

/-- After any calls in any order: no answer for a target other than the owner changes anything, and no
report does while there is an owner; without one, a report shows its steps and changes nothing else.  A
start shows no outcome and counts from zero, on the one clock that runs; and once a report of its target
came, the steps shown are of such a report. -/
theorem only_owner_shows (history : List (Event Task)) :
    let run : StackRun Task := replay step .initial history
    (∀ target outcome, owner history ≠ some target → step run (.finish target outcome) = run) ∧
    (∀ target progress, (owner history).isSome → owner history ≠ some target →
      step run (.setProgress target progress) = run) ∧
    (∀ target progress, owner history = none → step run (.setProgress target progress) =
      { run with tasks := progress.tasks, hasOutput := progress.hasOutput }) ∧
    (∀ target event now, (step run (.start target event now)).event = event ∧
      (step run (.start target event now)).outcome = .empty ∧ (step run (.start target event now)).elapsed = 0 ∧
      (step run (.start target event now)).intervals = (step run (.start target event now)).timer.toList) ∧
    (∀ target event now after, (∀ later ∈ after, later.hands = false) →
      (∃ progress, .setProgress target progress ∈ after) →
      ∃ progress, .setProgress target progress ∈ after ∧
        (replay step (step run (.start target event now)) after).tasks = progress.tasks ∧
        (replay step (step run (.start target event now)) after).hasOutput = progress.hasOutput) := by
  intro run
  have target_eq : run.target = owner history := target_eq_owner history
  refine ⟨?_, ?_, ?_, ?_, ?_⟩
  · intro target outcome other
    exact finish_other (target_eq ▸ other) outcome
  · intro target progress owned other
    exact setProgress_other (target_eq ▸ owned) (target_eq ▸ other) progress
  · intro target progress none_
    exact setProgress_applied (.inl (target_eq.trans none_)) progress
  · intro target event now
    have only := intervals_eq (history ++ [.start target event now])
    rw [replay_append, replay_cons, replay_nil] at only
    exact ⟨rfl, rfl, rfl, only⟩
  · intro target event now after stays ⟨progress, reported⟩
    obtain ⟨-, ⟨-, -, none_⟩ | shown⟩ := shown_progress (step run (.start target event now)) rfl after stays
    · exact absurd reported (none_ progress)
    · exact shown

/-- A report after a release is shown, and a start leaves the steps of the operation before it. -/
theorem screen_not_blank :
    ¬ ∀ history : List (Event Nat),
      (owner history = none → ∀ target progress, (step (replay step .initial history) (.setProgress target progress)).toScreen =
        (replay step .initial history).toScreen) ∧
      (∀ target event now, (step (replay step .initial history) (.start target event now)).tasks = []) := by
  intro blank
  have shown := (blank [.release]).1 rfl ⟨"", "alpha"⟩ ⟨[1], true⟩
  cases congrArg (·.tasks) shown

end Dockge.Inspector
