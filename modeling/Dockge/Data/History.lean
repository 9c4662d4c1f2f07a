import Mathlib.Data.List.Induction

namespace Dockge.Data

/-! Runs of a machine that takes one event after another.

The machine is its step function; a history is the list of events it was fed,
oldest first.  A machine that refuses an event returns its state unchanged, so
that every list of events is a run.
-/

variable {State Event : Type} {step : State → Event → State} {start : State}

/-- The state a history leads to. -/
def replay (step : State → Event → State) (start : State) (history : List Event) : State :=
  history.foldl step start

@[simp] theorem replay_nil : replay step start [] = start := rfl

@[simp] theorem replay_cons (event : Event) (rest : List Event) :
    replay step start (event :: rest) = replay step (step start event) rest := rfl

@[simp] theorem replay_append (before after : List Event) :
    replay step start (before ++ after) = replay step (replay step start before) after :=
  List.foldl_append

/-- What holds of the empty history and survives one more event holds of every history. -/
theorem replay_induction {motive : List Event → State → Prop}
    (initial : motive [] start)
    (advance : ∀ past event, motive past (replay step start past) →
      motive (past ++ [event]) (step (replay step start past) event))
    (history : List Event) : motive history (replay step start history) := by
  induction history using List.reverseRecOn with
  | nil => exact initial
  | append_singleton past event ih =>
      rw [replay_append]
      exact advance past event ih

theorem replay_invariant {motive : State → Prop}
    (initial : motive start)
    (preserved : ∀ state event, motive state → motive (step state event))
    (history : List Event) : motive (replay step start history) :=
  replay_induction (motive := fun _ state => motive state) initial
    (fun past event held => preserved (replay step start past) event held) history

/-- Every step of the run is taken in a state that meets the condition. -/
def Along (step : State → Event → State) (condition : State → Event → Prop) :
    State → List Event → Prop
  | _, [] => True
  | state, event :: rest => condition state event ∧ Along step condition (step state event) rest

instance Along.decidable {condition : State → Event → Prop}
    [∀ state event, Decidable (condition state event)] :
    (start : State) → (history : List Event) → Decidable (Along step condition start history)
  | _, [] => isTrue trivial
  | state, event :: rest =>
      @instDecidableAnd _ _ _ (Along.decidable (step state event) rest)

theorem Along.append_left {condition : State → Event → Prop} {before after : List Event}
    (met : Along step condition start (before ++ after)) : Along step condition start before := by
  induction before generalizing start with
  | nil => trivial
  | cons event rest ih => exact ⟨met.1, ih met.2⟩

theorem Along.append_right {condition : State → Event → Prop} {before after : List Event}
    (met : Along step condition start (before ++ after)) :
    Along step condition (replay step start before) after := by
  induction before generalizing start with
  | nil => exact met
  | cons event rest ih => exact ih met.2

theorem Along.last {condition : State → Event → Prop} {before : List Event} {event : Event}
    (met : Along step condition start (before ++ [event])) :
    condition (replay step start before) event := by
  induction before generalizing start with
  | nil => exact met.1
  | cons first rest ih => exact ih met.2

theorem along_concat {condition : State → Event → Prop} {before : List Event} {event : Event} :
    Along step condition start (before ++ [event]) ↔
      Along step condition start before ∧ condition (replay step start before) event := by
  induction before generalizing start with
  | nil => exact and_comm
  | cons first rest ih => exact (and_congr_right fun _ => ih).trans and_assoc.symm

/-- An invariant that only the steps meeting a condition preserve. -/
theorem Along.invariant {condition : State → Event → Prop} {motive : State → Prop}
    {history : List Event} (met : Along step condition start history)
    (initial : motive start)
    (preserved : ∀ state event, motive state → condition state event →
      motive (step state event)) :
    motive (replay step start history) := by
  induction history generalizing start with
  | nil => exact initial
  | cons event rest ih => exact ih met.2 (preserved start event initial met.1)

/-- Where each step keeps the motive exactly under the condition, it holds in every state of a run exactly along it. -/
theorem Along.every_iff {condition : State → Event → Prop} {kept motive : State → Prop} {history : List Event}
    (sound : kept start) (initial : motive start)
    (keeps : ∀ state event, kept state → kept (step state event))
    (exact : ∀ state event, kept state → motive state → (motive (step state event) ↔ condition state event)) :
    (∀ before after, history = before ++ after → motive (replay step start before)) ↔
      Along step condition start history := by
  induction history generalizing start with
  | nil =>
      constructor
      · intro _
        trivial
      · intro _ before after same
        obtain ⟨rfl, -⟩ := List.append_eq_nil_iff.mp same.symm
        exact initial
  | cons event rest ih =>
      have one := exact start event sound initial
      constructor
      · intro every
        have next := every [event] rest rfl
        refine ⟨one.mp next, (ih (keeps start event sound) next).mp ?_⟩
        intro before after same
        exact every (event :: before) after (by rw [same]; rfl)
      · intro along before after same
        cases before with
        | nil => exact initial
        | cons first before =>
            obtain ⟨rfl, rest_⟩ := List.cons.inj same
            exact (ih (keeps start event sound) (one.mpr along.1)).mpr along.2 before after rest_

end Dockge.Data
