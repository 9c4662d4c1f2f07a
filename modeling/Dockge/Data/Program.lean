import Mathlib.Data.List.Basic

namespace Dockge.Data

/-! Programs whose operations may each fail, and which may be stopped between any two.

A program runs one operation after another against a state it shares with nobody.  What
happens to each operation is its fate, and the fates of a run are an input of the program,
one for each operation in the order they are tried; a run that uses them all up goes on
undisturbed.  `Ensures` bounds every run from a state: what holds when the program returns,
when it throws, and wherever it is stopped.
-/

/-- What happens to one operation: it works; it fails without effect; it fails although its
effect took place; or the program is stopped in its place. -/
inductive Fate where
  | ok
  | fail
  | late
  | kill
deriving DecidableEq, Repr

inductive Ending (ε α : Type) where
  | done (value : α)
  | threw (error : ε)
  | killed

def Ending.isDone {ε α : Type} : Ending ε α → Bool
  | .done _ => true
  | _ => false

/-- How a run ended, in which state, and the fates it did not reach. -/
structure Outcome (σ ε α : Type) where
  ending : Ending ε α
  state : σ
  rest : List Fate

def Program (σ ε α : Type) : Type := List Fate → σ → Outcome σ ε α

namespace Program

variable {σ ε α β : Type}

/-- Go on with the value of a run that returned. -/
def andThen (outcome : Outcome σ ε α) (next : α → Program σ ε β) : Outcome σ ε β :=
  match outcome with
  | ⟨.done value, state, rest⟩ => next value rest state
  | ⟨.threw error, state, rest⟩ => ⟨.threw error, state, rest⟩
  | ⟨.killed, state, rest⟩ => ⟨.killed, state, rest⟩

instance : Monad (Program σ ε) where
  pure value := fun fates state => ⟨.done value, state, fates⟩
  bind program next := fun fates state => andThen (program fates state) next

theorem andThen_assoc {γ : Type} (outcome : Outcome σ ε α) (next : α → Program σ ε β)
    (last : β → Program σ ε γ) :
    andThen (andThen outcome next) last = andThen outcome fun value => next value >>= last := by
  obtain ⟨ending, state, rest⟩ := outcome
  cases ending <;> rfl

instance : LawfulMonad (Program σ ε) :=
  LawfulMonad.mk' (Program σ ε)
    (by
      intro α program
      funext fates state
      change andThen (program fates state) _ = _
      generalize program fates state = outcome
      obtain ⟨ending, reached, rest⟩ := outcome
      cases ending <;> rfl)
    (fun _ _ => rfl)
    (fun program next last => by
      funext fates state
      exact andThen_assoc (program fates state) next last)

theorem bind_run {program : Program σ ε α} {next : α → Program σ ε β} {fates rest : List Fate}
    {state reached : σ} {value : α} (ran : program fates state = ⟨.done value, reached, rest⟩) :
    (program >>= next) fates state = next value rest reached := by
  change andThen (program fates state) next = _
  rw [ran]
  rfl

theorem bind_threw {program : Program σ ε α} {next : α → Program σ ε β} {fates rest : List Fate}
    {state reached : σ} {error : ε} (ran : program fates state = ⟨.threw error, reached, rest⟩) :
    (program >>= next) fates state = ⟨.threw error, reached, rest⟩ := by
  change andThen (program fates state) next = _
  rw [ran]
  rfl

/-- A sequence returned: so did both parts of it. -/
theorem bind_done {program : Program σ ε α} {next : α → Program σ ε β} {fates rest : List Fate}
    {state final : σ} {result : β} (ran : (program >>= next) fates state = ⟨.done result, final, rest⟩) :
    ∃ value reached left, program fates state = ⟨.done value, reached, left⟩ ∧
      next value left reached = ⟨.done result, final, rest⟩ := by
  change andThen (program fates state) next = _ at ran
  cases first : program fates state with
  | mk ending reached left =>
      rw [first] at ran
      cases ending with
      | done value => exact ⟨value, reached, left, rfl, ran⟩
      | threw error => cases ran
      | killed => cases ran

/-- Look at the state; the operations that read it are the caller's. -/
def look : Program σ ε σ := fun fates state => ⟨.done state, state, fates⟩

def fail (error : ε) : Program σ ε α := fun fates state => ⟨.threw error, state, fates⟩

/-- One operation, by what each fate makes of it. -/
def operation (act : Fate → σ → Ending ε α × σ) : Program σ ε α := fun fates state =>
  ⟨(act (fates.headD .ok) state).1, (act (fates.headD .ok) state).2, fates.tail⟩

/-- Run a program and hand its error on as a value. -/
def attempt {ε' : Type} (program : Program σ ε α) : Program σ ε' (Except ε α) := fun fates state =>
  match program fates state with
  | ⟨.done value, state, rest⟩ => ⟨.done (.ok value), state, rest⟩
  | ⟨.threw error, state, rest⟩ => ⟨.done (.error error), state, rest⟩
  | ⟨.killed, state, rest⟩ => ⟨.killed, state, rest⟩

/-- Run a program whose failure changes nothing in what follows. -/
def ignore (program : Program σ ε α) : Program σ ε Unit := do
  let _ ← attempt program

/-- Run a program, and another one in place of its error. -/
def orElse {ε' : Type} (program : Program σ ε α) (handler : ε → Program σ ε' α) : Program σ ε' α := do
  match ← attempt program with
  | .ok value => pure value
  | .error error => handler error

theorem orElse_threw {ε' : Type} {program : Program σ ε α} {handler : ε → Program σ ε' α}
    {fates rest : List Fate} {state reached : σ} {error : ε}
    (ran : program fates state = ⟨.threw error, reached, rest⟩) :
    orElse program handler fates state = handler error rest reached := by
  have tried : (attempt program : Program σ ε' (Except ε α)) fates state =
      ⟨.done (.error error), reached, rest⟩ := by
    unfold attempt
    rw [ran]
  exact bind_run tried

/-- Run a program under a condition. -/
def onlyIf (condition : Bool) (program : Program σ ε Unit) : Program σ ε Unit :=
  if condition then program else pure ()

def forEach (items : List β) (body : β → Program σ ε Unit) : Program σ ε Unit :=
  match items with
  | [] => pure ()
  | item :: rest => do
      body item
      forEach rest body

/-- A change that nothing can disturb. -/
def modify (change : σ → σ) : Program σ ε Unit := fun fates state => ⟨.done (), change state, fates⟩

/-- Run a program on a part of the state. -/
def zoom {τ ε' : Type} (part : τ → σ) (replace : σ → τ → τ) (wrap : ε → ε') (program : Program σ ε α) :
    Program τ ε' α := fun fates whole =>
  match program fates (part whole) with
  | ⟨.done value, reached, rest⟩ => ⟨.done value, replace reached whole, rest⟩
  | ⟨.threw error, reached, rest⟩ => ⟨.threw (wrap error), replace reached whole, rest⟩
  | ⟨.killed, reached, rest⟩ => ⟨.killed, replace reached whole, rest⟩

/-- Run a program that meets fates of its own. -/
def under (own : List Fate) (program : Program σ ε α) : Program σ ε α := fun fates state =>
  ⟨(program own state).ending, (program own state).state, fates⟩

end Program

/-! ### Every run of a program -/

/-- The outcome meets the postcondition of the way it ended. -/
def Outcome.Meets {σ ε α : Type} (outcome : Outcome σ ε α) (returned : α → σ → Prop)
    (threw : ε → σ → Prop) (stopped : σ → Prop) : Prop :=
  match outcome.ending with
  | .done value => returned value outcome.state
  | .threw error => threw error outcome.state
  | .killed => stopped outcome.state

/-- Whatever of this happens to its operations, the program run from this state returns, throws
or is stopped only as stated. -/
def Ensures {σ ε α : Type} (allowed : Fate → Prop) (program : Program σ ε α) (state : σ)
    (returned : α → σ → Prop) (threw : ε → σ → Prop) (stopped : σ → Prop) : Prop :=
  ∀ fates, (∀ fate ∈ fates, allowed fate) →
    (program fates state).Meets returned threw stopped ∧ ∀ fate ∈ (program fates state).rest, allowed fate

/-- Nothing is ruled out. -/
def Fate.Any : Fate → Prop := fun _ => True

namespace Ensures

variable {σ ε ε' α β : Type} {allowed : Fate → Prop} {program : Program σ ε α} {state : σ}
  {returned : α → σ → Prop} {threw : ε → σ → Prop} {stopped : σ → Prop}

theorem pure {value : α} (post : returned value state) :
    Ensures allowed (Pure.pure value : Program σ ε α) state returned threw stopped :=
  fun _ within => ⟨post, within⟩

/-- Nothing is said of the run. -/
theorem trivial : Ensures Fate.Any program state (fun _ _ => True) (fun _ _ => True) fun _ => True := by
  intro fates _
  refine ⟨?_, fun _ _ => True.intro⟩
  unfold Outcome.Meets
  split <;> exact True.intro

theorem fail {error : ε} (post : threw error state) :
    Ensures allowed (Program.fail error : Program σ ε α) state returned threw stopped :=
  fun _ within => ⟨post, within⟩

theorem look {returned : σ → σ → Prop} (post : returned state state) :
    Ensures allowed (Program.look : Program σ ε σ) state returned threw stopped :=
  fun _ within => ⟨post, within⟩

theorem bind {first : Program σ ε β} {next : β → Program σ ε α} (middle : β → σ → Prop)
    (before : Ensures allowed first state middle threw stopped)
    (after : ∀ value state, middle value state →
      Ensures allowed (next value) state returned threw stopped) :
    Ensures allowed (first >>= next) state returned threw stopped := by
  intro fates within
  have met := before fates within
  change (Program.andThen (first fates state) next).Meets returned threw stopped ∧
    ∀ fate ∈ (Program.andThen (first fates state) next).rest, allowed fate
  generalize first fates state = outcome at met ⊢
  obtain ⟨ending, reached, rest⟩ := outcome
  cases ending with
  | done value => exact after value reached met.1 rest met.2
  | threw error => exact met
  | killed => exact met

theorem mono {returned' : α → σ → Prop} {threw' : ε → σ → Prop} {stopped' : σ → Prop}
    (before : Ensures allowed program state returned threw stopped)
    (done : ∀ value state, returned value state → returned' value state)
    (failed : ∀ error state, threw error state → threw' error state)
    (killed : ∀ state, stopped state → stopped' state) :
    Ensures allowed program state returned' threw' stopped' := by
  intro fates within
  obtain ⟨met, left⟩ := before fates within
  refine ⟨?_, left⟩
  generalize program fates state = outcome at met ⊢
  obtain ⟨ending, reached, rest⟩ := outcome
  cases ending with
  | done value => exact done value reached met
  | threw error => exact failed error reached met
  | killed => exact killed reached met

/-- Nothing is said of where the program is stopped. -/
theorem unstopped (each : Ensures allowed program state returned threw stopped) :
    Ensures allowed program state returned threw fun _ => True :=
  each.mono (fun _ _ held => held) (fun _ _ held => held) fun _ _ => True.intro

/-- What holds whatever happens holds beside what holds of fewer runs. -/
theorem and {returned' : α → σ → Prop} {threw' : ε → σ → Prop} {stopped' : σ → Prop}
    (first : Ensures allowed program state returned threw stopped)
    (second : Ensures Fate.Any program state returned' threw' stopped') :
    Ensures allowed program state (fun value reached => returned value reached ∧ returned' value reached)
      (fun error reached => threw error reached ∧ threw' error reached)
      (fun reached => stopped reached ∧ stopped' reached) := by
  intro fates within
  obtain ⟨met, left⟩ := first fates within
  obtain ⟨met', _⟩ := second fates fun _ _ => True.intro
  refine ⟨?_, left⟩
  generalize program fates state = outcome at met met' ⊢
  obtain ⟨ending, reached, rest⟩ := outcome
  cases ending <;> exact ⟨met, met'⟩

theorem operation {act : Fate → σ → Ending ε α × σ} (undisturbed : allowed .ok)
    (each : ∀ fate, allowed fate →
      (⟨(act fate state).1, (act fate state).2, []⟩ : Outcome σ ε α).Meets returned threw stopped) :
    Ensures allowed (Program.operation act) state returned threw stopped := by
  intro fates within
  refine ⟨each _ ?_, fun fate left => within fate (List.mem_of_mem_tail left)⟩
  cases fates with
  | nil => exact undisturbed
  | cons fate rest => exact within fate List.mem_cons_self

/-- An attempt returns what its program does, and throws nothing. -/
theorem attempt {tried : Except ε α → σ → Prop} {threw' : ε' → σ → Prop}
    (before : Ensures allowed program state (fun value => tried (.ok value))
      (fun error => tried (.error error)) stopped) :
    Ensures allowed (Program.attempt program) state tried threw' stopped := by
  intro fates within
  have met := before fates within
  unfold Program.attempt
  generalize program fates state = outcome at met ⊢
  obtain ⟨ending, reached, rest⟩ := outcome
  cases ending with
  | done value => exact met
  | threw error => exact met
  | killed => exact met

theorem ignore {returned : Unit → σ → Prop}
    (before : Ensures allowed program state (fun _ => returned ()) (fun _ => returned ()) stopped) :
    Ensures allowed (Program.ignore program) state returned threw stopped := by
  refine bind (fun _ => returned ()) (attempt before) ?_
  intro _ reached post
  exact pure post

theorem orElse {handler : ε → Program σ ε' α} {threw : ε' → σ → Prop} (failed : ε → σ → Prop)
    (before : Ensures allowed program state returned failed stopped)
    (after : ∀ error state, failed error state →
      Ensures allowed (handler error) state returned threw stopped) :
    Ensures allowed (Program.orElse program handler) state returned threw stopped := by
  refine bind (fun tried reached =>
    match tried with
    | .ok value => returned value reached
    | .error error => failed error reached) (attempt before) ?_
  intro tried reached post
  cases tried with
  | ok value => exact pure post
  | error error => exact after error reached post

theorem onlyIf {condition : Bool} {program : Program σ ε Unit} {returned : Unit → σ → Prop}
    (run : condition = true → Ensures allowed program state returned threw stopped)
    (skip : condition = false → returned () state) :
    Ensures allowed (Program.onlyIf condition program) state returned threw stopped := by
  cases condition with
  | true => exact run rfl
  | false => exact pure (skip rfl)

theorem modify {change : σ → σ} {returned : Unit → σ → Prop} (post : returned () (change state)) :
    Ensures allowed (Program.modify change : Program σ ε Unit) state returned threw stopped :=
  fun _ within => ⟨post, within⟩

theorem zoom {τ : Type} {part : τ → σ} {replace : σ → τ → τ} {wrap : ε → ε'} {whole : τ}
    {returned : α → τ → Prop} {threw : ε' → τ → Prop} {stopped : τ → Prop}
    (before : Ensures allowed program (part whole) (fun value reached => returned value (replace reached whole))
      (fun error reached => threw (wrap error) (replace reached whole))
      fun reached => stopped (replace reached whole)) :
    Ensures allowed (Program.zoom part replace wrap program) whole returned threw stopped := by
  intro fates within
  have met := before fates within
  unfold Program.zoom
  generalize program fates (part whole) = outcome at met ⊢
  obtain ⟨ending, reached, rest⟩ := outcome
  cases ending <;> exact met

theorem under {inner : Fate → Prop} {own : List Fate} (fair : ∀ fate ∈ own, inner fate)
    (before : Ensures inner program state returned threw stopped) :
    Ensures allowed (Program.under own program) state returned threw stopped :=
  fun _ within => ⟨(before own fair).1, within⟩

/-- A loop keeps what holds of the items it has been through. -/
theorem forEach {body : β → Program σ ε Unit} {items : List β} (Through : List β → σ → Prop)
    (start : Through [] state)
    (round : ∀ before item after state, items = before ++ item :: after → Through before state →
      Ensures allowed (body item) state (fun _ => Through (before ++ [item])) threw stopped) :
    Ensures allowed (Program.forEach items body) state (fun _ => Through items) threw stopped := by
  have tail : ∀ before after state, items = before ++ after → Through before state →
      Ensures allowed (Program.forEach after body) state (fun _ => Through items) threw stopped := by
    intro before after
    induction after generalizing before with
    | nil =>
        intro state same held
        rw [List.append_nil] at same
        exact pure (same ▸ held)
    | cons item rest ih =>
        intro state same held
        refine bind _ (round before item rest state same held) ?_
        intro _ reached through
        exact ih (before ++ [item]) reached (by simp [same]) through
  exact tail [] items state rfl start

/-- What holds however a program ends holds of the state every run leaves. -/
theorem state_of {Holds : σ → Prop}
    (every : Ensures allowed program state (fun _ => Holds) (fun _ => Holds) Holds)
    {fates : List Fate} (within : ∀ fate ∈ fates, allowed fate) :
    Holds (program fates state).state := by
  have met := (every fates within).1
  generalize program fates state = outcome at met ⊢
  obtain ⟨ending, reached, rest⟩ := outcome
  cases ending <;> exact met

/-- A run that returned this value meets what its program ensures of it. -/
theorem done_of (each : Ensures allowed program state returned threw stopped) {fates : List Fate} {value : α}
    (within : ∀ fate ∈ fates, allowed fate) (done : (program fates state).ending = .done value) :
    returned value (program fates state).state := by
  have met := (each fates within).1
  unfold Outcome.Meets at met
  rw [done] at met
  exact met

theorem threw_of (each : Ensures allowed program state returned threw stopped) {fates : List Fate} {error : ε}
    (within : ∀ fate ∈ fates, allowed fate) (failed : (program fates state).ending = .threw error) :
    threw error (program fates state).state := by
  have met := (each fates within).1
  unfold Outcome.Meets at met
  rw [failed] at met
  exact met

/-- A program that can only throw throws. -/
theorem throws {fates : List Fate}
    (each : Ensures allowed program state (fun _ _ => False) threw fun _ => False)
    (within : ∀ fate ∈ fates, allowed fate) :
    ∃ error, (program fates state).ending = .threw error ∧ threw error (program fates state).state := by
  have met := (each fates within).1
  unfold Outcome.Meets at met
  split at met
  · exact met.elim
  · exact ⟨_, ‹_›, met⟩
  · exact met.elim

/-- A run that returned meets what its program ensures of that. -/
theorem returned_of (each : Ensures allowed program state returned threw stopped) {fates : List Fate}
    (within : ∀ fate ∈ fates, allowed fate) (done : (program fates state).ending.isDone = true) :
    ∃ value, returned value (program fates state).state := by
  have met := (each fates within).1
  generalize program fates state = outcome at met done ⊢
  obtain ⟨ending, reached, rest⟩ := outcome
  cases ending with
  | done value => exact ⟨value, met⟩
  | threw error => cases done
  | killed => cases done

end Ensures

/-! ### The undisturbed run -/

/-- Left alone, the program returns such a value in such a state. -/
def Returns {σ ε α : Type} (program : Program σ ε α) (state : σ) (returned : α → σ → Prop) : Prop :=
  ∃ value reached, program [] state = ⟨.done value, reached, []⟩ ∧ returned value reached

namespace Returns

variable {σ ε ε' α β : Type} {program : Program σ ε α} {state : σ} {returned : α → σ → Prop}

theorem pure {value : α} (post : returned value state) :
    Returns (Pure.pure value : Program σ ε α) state returned :=
  ⟨value, state, rfl, post⟩

theorem look {returned : σ → σ → Prop} (post : returned state state) :
    Returns (Program.look : Program σ ε σ) state returned :=
  ⟨state, state, rfl, post⟩

theorem bind {first : Program σ ε β} {next : β → Program σ ε α} (middle : β → σ → Prop)
    (before : Returns first state middle)
    (after : ∀ value state, middle value state → Returns (next value) state returned) :
    Returns (first >>= next) state returned := by
  obtain ⟨value, reached, ran, met⟩ := before
  obtain ⟨result, final, went, post⟩ := after value reached met
  refine ⟨result, final, ?_, post⟩
  change Program.andThen (first [] state) next = _
  rw [ran]
  exact went

theorem operation {act : Fate → σ → Ending ε α × σ} {value : α} {reached : σ}
    (works : act .ok state = (.done value, reached)) (post : returned value reached) :
    Returns (Program.operation act) state returned := by
  refine ⟨value, reached, ?_, post⟩
  simp [Program.operation, works]

theorem attempt {tried : Except ε α → σ → Prop}
    (before : Returns program state (fun value => tried (.ok value))) :
    Returns (Program.attempt program : Program σ ε' (Except ε α)) state tried := by
  obtain ⟨value, reached, ran, met⟩ := before
  refine ⟨.ok value, reached, ?_, met⟩
  simp [Program.attempt, ran]

theorem orElse {handler : ε → Program σ ε' α} (before : Returns program state returned) :
    Returns (Program.orElse program handler) state returned := by
  refine bind (fun tried reached => ∃ value, tried = .ok value ∧ returned value reached)
    (attempt ?_) ?_
  · obtain ⟨value, reached, ran, met⟩ := before
    exact ⟨value, reached, ran, value, rfl, met⟩
  · rintro _ reached ⟨value, rfl, met⟩
    exact pure met

theorem onlyIf {condition : Bool} {program : Program σ ε Unit} {returned : Unit → σ → Prop}
    (run : condition = true → Returns program state returned)
    (skip : condition = false → returned () state) :
    Returns (Program.onlyIf condition program) state returned := by
  cases condition with
  | true => exact run rfl
  | false => exact pure (skip rfl)

theorem isDone (returns : Returns program state returned) :
    (program [] state).ending.isDone = true := by
  obtain ⟨value, reached, ran, _⟩ := returns
  rw [ran]
  rfl

end Returns

/-! ### Some run -/

/-- Some run ends so, whatever happens to the operations after it. -/
def Reaches {σ ε α : Type} (allowed : Fate → Prop) (program : Program σ ε α) (state : σ)
    (ending : Ending ε α) (reached : σ) : Prop :=
  ∃ used, (∀ fate ∈ used, allowed fate) ∧ ∀ rest, program (used ++ rest) state = ⟨ending, reached, rest⟩

namespace Reaches

variable {σ ε ε' α β : Type} {allowed : Fate → Prop} {program : Program σ ε α} {state reached final : σ}
  {ending : Ending ε α}

theorem pure {value : α} : Reaches allowed (Pure.pure value : Program σ ε α) state (.done value) state :=
  ⟨[], by simp, fun _ => rfl⟩

theorem fail {error : ε} : Reaches allowed (Program.fail error : Program σ ε α) state (.threw error) state :=
  ⟨[], by simp, fun _ => rfl⟩

theorem look : Reaches allowed (Program.look : Program σ ε σ) state (.done state) state :=
  ⟨[], by simp, fun _ => rfl⟩

theorem operation {act : Fate → σ → Ending ε α × σ} (fate : Fate) (within : allowed fate)
    (acts : act fate state = (ending, reached)) :
    Reaches allowed (Program.operation act) state ending reached :=
  ⟨[fate], by simpa using within, fun rest => by simp [Program.operation, acts]⟩

theorem bind {first : Program σ ε β} {next : β → Program σ ε α} {value : β}
    (before : Reaches allowed first state (.done value) reached)
    (after : Reaches allowed (next value) reached ending final) :
    Reaches allowed (first >>= next) state ending final := by
  obtain ⟨early, earlyWithin, ran⟩ := before
  obtain ⟨late, lateWithin, went⟩ := after
  refine ⟨early ++ late, ?_, ?_⟩
  · intro fate member
    rcases List.mem_append.mp member with first | second
    · exact earlyWithin fate first
    · exact lateWithin fate second
  · intro rest
    rw [List.append_assoc, Program.bind_run (ran _), went]

/-- One part after another, through this state. -/
theorem seq {first : Program σ ε Unit} {next : Unit → Program σ ε α} (middle : σ)
    (before : Reaches allowed first state (.done ()) middle)
    (after : Reaches allowed (next ()) middle ending final) :
    Reaches allowed (first >>= next) state ending final :=
  before.bind after

theorem bind_threw {first : Program σ ε β} {next : β → Program σ ε α} {error : ε}
    (before : Reaches allowed first state (.threw error) reached) :
    Reaches allowed (first >>= next) state (.threw error) reached := by
  obtain ⟨used, within, ran⟩ := before
  exact ⟨used, within, fun rest => Program.bind_threw (ran rest)⟩

theorem orElse {handler : ε → Program σ ε' α} {value : α}
    (before : Reaches allowed program state (.done value) reached) :
    Reaches allowed (Program.orElse program handler) state (.done value) reached := by
  obtain ⟨used, within, ran⟩ := before
  refine ⟨used, within, ?_⟩
  intro rest
  change Program.andThen (Program.attempt program (used ++ rest) state) _ = _
  simp only [Program.attempt, ran]
  rfl

theorem orElse_threw {handler : ε → Program σ ε' α} {ending : Ending ε' α} {error : ε}
    (before : Reaches allowed program state (.threw error) reached)
    (after : Reaches allowed (handler error) reached ending final) :
    Reaches allowed (Program.orElse program handler) state ending final := by
  obtain ⟨early, earlyWithin, ran⟩ := before
  have tried : Reaches allowed (Program.attempt program : Program σ ε' (Except ε α)) state
      (.done (.error error)) reached := by
    refine ⟨early, earlyWithin, ?_⟩
    intro rest
    simp only [Program.attempt, ran]
  exact tried.bind after

/-- A loop runs through where each of its rounds does. -/
theorem forEach {body : β → Program σ ε Unit} {items : List β} (Through : List β → σ → Prop)
    (start : Through [] state)
    (round : ∀ before item after state, items = before ++ item :: after → Through before state →
      ∃ reached, Reaches allowed (body item) state (.done ()) reached ∧ Through (before ++ [item]) reached) :
    ∃ reached, Reaches allowed (Program.forEach items body) state (.done ()) reached ∧ Through items reached := by
  have tail : ∀ before after state, items = before ++ after → Through before state →
      ∃ reached, Reaches allowed (Program.forEach after body) state (.done ()) reached ∧
        Through items reached := by
    intro before after
    induction after generalizing before with
    | nil =>
        intro state same held
        rw [List.append_nil] at same
        exact ⟨state, pure, same ▸ held⟩
    | cons item rest ih =>
        intro state same held
        obtain ⟨middle, first, through⟩ := round before item rest state same held
        obtain ⟨reached, later, through⟩ := ih (before ++ [item]) middle (by simp [same]) through
        exact ⟨reached, first.bind later, through⟩
  exact tail [] items state rfl start

theorem mono {more : Fate → Prop} (reaches : Reaches allowed program state ending reached)
    (wider : ∀ fate, allowed fate → more fate) : Reaches more program state ending reached := by
  obtain ⟨used, within, ran⟩ := reaches
  exact ⟨used, fun fate member => wider fate (within fate member), ran⟩

theorem done_of {value : α} {returned : α → σ → Prop} {threw : ε → σ → Prop} {stopped : σ → Prop}
    (reaches : Reaches allowed program state (.done value) reached)
    (each : Ensures allowed program state returned threw stopped) : returned value reached := by
  obtain ⟨used, within, ran⟩ := reaches
  have ran := ran []
  rw [List.append_nil] at ran
  have met := each.done_of within (congrArg Outcome.ending ran)
  rwa [ran] at met

end Reaches

end Dockge.Data
