import Dockge.Data.History

namespace Dockge.Data

/-! Asynchronous functions over a state that they share.

An asynchronous function runs undisturbed from one await to the next.  What it does at an await is
one step on the shared state, taken with an input from outside; in between, any number of steps of
other functions may have been taken.  `Keeps` bounds a function under a protocol, which says what
each task may do to the state and what it may rely on the others to leave alone.
-/

/-- What is left of an asynchronous function. -/
inductive Async (σ ι ε α : Type) : Type where
  | done (value : α)
  | threw (error : ε)
  | await (effect : ι → σ → σ) (next : ι → σ → Async σ ι ε α)

namespace Async

variable {σ ι ε α β : Type}

def andThen (first : Async σ ι ε α) (after : α → Async σ ι ε β) : Async σ ι ε β :=
  match first with
  | .done value => after value
  | .threw error => .threw error
  | .await effect next => .await effect fun input state => (next input state).andThen after

instance : Monad (Async σ ι ε) where
  pure := .done
  bind := andThen

def fail (error : ε) : Async σ ι ε α := .threw error

/-- The outcome of a step. -/
def ofExcept : Except ε α → Async σ ι ε α
  | .ok value => .done value
  | .error error => .threw error

/-- One awaited operation, with the synchronous code that goes on after it. -/
def op (act : ι → σ → Except ε α × σ) : Async σ ι ε α :=
  .await (fun input state => (act input state).2) fun input state => ofExcept (act input state).1

/-- `try`, `catch` and go on. -/
def orElse (tried : Async σ ι ε α) (handler : ε → Async σ ι ε α) : Async σ ι ε α :=
  match tried with
  | .done value => .done value
  | .threw error => handler error
  | .await effect next => .await effect fun input state => (next input state).orElse handler

/-- `throw` under a condition -/
def failIf (condition : Bool) (error : ε) : Async σ ι ε Unit :=
  if condition then .threw error else .done ()

def repeatTimes (count : Nat) (body : Async σ ι ε Unit) : Async σ ι ε Unit :=
  match count with
  | 0 => .done ()
  | count + 1 => body.andThen fun _ => repeatTimes count body

end Async

/-- What the tasks of a state do to it.  A task may rely on the others: every step of one is a step
the others expect. -/
structure Protocol (σ : Type) where
  /-- What holds in every state. -/
  sound : σ → Prop
  /-- The steps of a task. -/
  own : Nat → σ → σ → Prop
  /-- What a task may find done since its last step. -/
  others : Nat → σ → σ → Prop
  refl : ∀ task state, others task state state
  trans : ∀ task first second third, others task first second → others task second third →
    others task first third
  kept : ∀ task before after, sound before → own task before after → sound after
  expected : ∀ task other before after, task ≠ other → sound before → own task before after →
    others other before after

section
variable {σ ι ε α β : Type} {protocol : Protocol σ} {task : Nat} {state : σ}
  {returned : α → σ → Prop} {threw : ε → σ → Prop}

/-- From this state on, the task takes only steps of its own, and ends only as stated. -/
def Async.Keeps (protocol : Protocol σ) (task : Nat) (returned : α → σ → Prop) (threw : ε → σ → Prop) :
    Async σ ι ε α → σ → Prop
  | .done value, state => returned value state
  | .threw error, state => threw error state
  | .await effect next, state => ∀ later, protocol.others task state later → protocol.sound later →
      ∀ input, protocol.own task later (effect input later) ∧
        (next input later).Keeps protocol task returned threw (effect input later)

namespace Async.Keeps

theorem pure {value : α} (post : returned value state) :
    Keeps protocol task returned threw (Pure.pure value : Async σ ι ε α) state := post

theorem fail {error : ε} (post : threw error state) :
    Keeps protocol task returned threw (Async.fail error : Async σ ι ε α) state := post

theorem failIf {condition : Bool} {error : ε} {returned : Unit → σ → Prop}
    (passed : condition = false → returned () state) (failed : condition = true → threw error state) :
    Keeps protocol task returned threw (Async.failIf condition error : Async σ ι ε Unit) state := by
  cases condition with
  | true => exact failed rfl
  | false => exact passed rfl

/-- What a check that passed leaves as it was. -/
theorem check {condition : Bool} {error : ε} {Kept : σ → Prop} (kept : Kept state) :
    Keeps protocol task (fun _ reached => state = reached ∧ condition = false) (fun _ => Kept)
      (Async.failIf condition error : Async σ ι ε Unit) state :=
  failIf (fun passed => ⟨rfl, passed⟩) fun _ => kept

theorem ofExcept {result : Except ε α} (done : ∀ value, result = .ok value → returned value state)
    (failed : ∀ error, result = .error error → threw error state) :
    Keeps protocol task returned threw (Async.ofExcept result : Async σ ι ε α) state := by
  cases result with
  | ok value => exact done value rfl
  | error error => exact failed error rfl

theorem mono {program : Async σ ι ε α} {returned' : α → σ → Prop} {threw' : ε → σ → Prop}
    (before : program.Keeps protocol task returned threw state)
    (done : ∀ value state, returned value state → returned' value state)
    (failed : ∀ error state, threw error state → threw' error state) :
    program.Keeps protocol task returned' threw' state := by
  induction program generalizing state with
  | done value => exact done value state before
  | threw error => exact failed error state before
  | await effect next ih =>
      intro later passed sound input
      obtain ⟨own, rest⟩ := before later passed sound input
      exact ⟨own, ih input later rest⟩

theorem bind {first : Async σ ι ε β} {next : β → Async σ ι ε α} (middle : β → σ → Prop)
    (before : first.Keeps protocol task middle threw state)
    (after : ∀ value state, middle value state → (next value).Keeps protocol task returned threw state) :
    (first >>= next).Keeps protocol task returned threw state := by
  change (first.andThen next).Keeps protocol task returned threw state
  induction first generalizing state with
  | done value => exact after value state before
  | threw error => exact before
  | await effect remaining ih =>
      intro later passed sound input
      obtain ⟨own, rest⟩ := before later passed sound input
      exact ⟨own, ih input later rest⟩

theorem orElse {tried : Async σ ι ε α} {handler : ε → Async σ ι ε α} (failed : ε → σ → Prop)
    (before : tried.Keeps protocol task returned failed state)
    (after : ∀ error state, failed error state → (handler error).Keeps protocol task returned threw state) :
    (tried.orElse handler).Keeps protocol task returned threw state := by
  induction tried generalizing state with
  | done value => exact before
  | threw error => exact after error state before
  | await effect next ih =>
      intro later passed sound input
      obtain ⟨own, rest⟩ := before later passed sound input
      exact ⟨own, ih input later rest⟩

/-- An operation finds the state as the others left it. -/
theorem op {act : ι → σ → Except ε α × σ}
    (each : ∀ later, protocol.others task state later → protocol.sound later → ∀ input,
      protocol.own task later (act input later).2 ∧
        (∀ value, (act input later).1 = .ok value → returned value (act input later).2) ∧
        ∀ error, (act input later).1 = .error error → threw error (act input later).2) :
    Keeps protocol task returned threw (Async.op act) state := by
  intro later passed sound input
  obtain ⟨own, done, failed⟩ := each later passed sound input
  refine ⟨own, ?_⟩
  exact ofExcept done failed

theorem repeatTimes {body : Async σ ι ε Unit} {Kept : σ → Prop} (count : Nat)
    (kept : Kept state) (round : ∀ state, Kept state → body.Keeps protocol task (fun _ => Kept) threw state) :
    (Async.repeatTimes count body).Keeps protocol task (fun _ => Kept) threw state := by
  induction count generalizing state with
  | zero => exact kept
  | succ count ih => exact bind (fun _ => Kept) (round state kept) fun _ _ kept => ih kept

/-- What the others do meanwhile does not matter to a task that waits. -/
theorem later {program : Async σ ι ε α} {reached : σ}
    (before : program.Keeps protocol task (fun _ _ => True) (fun _ _ => True) state)
    (passed : protocol.others task state reached) :
    program.Keeps protocol task (fun _ _ => True) (fun _ _ => True) reached := by
  cases program with
  | done value => trivial
  | threw error => trivial
  | await effect next =>
      intro final since sound input
      exact before final (protocol.trans task _ _ _ passed since) sound input

end Async.Keeps

end

/-! ### Many tasks -/

structure Pool (σ ι ε : Type) where
  shared : σ
  tasks : List (Async σ ι ε Unit)

/-- A task starts or goes on, or something outside all tasks changes the state. -/
inductive PoolEvent (κ ι ω : Type) where
  | start (kind : κ)
  | advance (task : Nat) (input : ι)
  | outside (change : ω)

namespace Pool

variable {σ ι ε κ ω : Type}

def step (program : κ → Nat → Async σ ι ε Unit) (outside : ω → σ → σ) (pool : Pool σ ι ε) :
    PoolEvent κ ι ω → Pool σ ι ε
  | .start kind => { pool with tasks := pool.tasks ++ [program kind pool.tasks.length] }
  | .advance task input =>
      match pool.tasks[task]? with
      | some (.await effect next) =>
          { shared := effect input pool.shared
            tasks := pool.tasks.set task (next input pool.shared) }
      | _ => pool
  | .outside change => { pool with shared := outside change pool.shared }

def initial (shared : σ) : Pool σ ι ε := { shared, tasks := [] }

/-- Every task keeps to the protocol from here on. -/
structure Good (protocol : Protocol σ) (pool : Pool σ ι ε) : Prop where
  sound : protocol.sound pool.shared
  keeps : ∀ (task : Nat) (program : Async σ ι ε Unit), pool.tasks[task]? = some program →
    program.Keeps protocol task (fun _ _ => True) (fun _ _ => True) pool.shared

section
variable {protocol : Protocol σ} {program : κ → Nat → Async σ ι ε Unit} {outside : ω → σ → σ}
  {pool : Pool σ ι ε}

theorem Good.step
    (starts : ∀ kind task state, protocol.sound state →
      (program kind task).Keeps protocol task (fun _ _ => True) (fun _ _ => True) state)
    (changes : ∀ change state, protocol.sound state → protocol.sound (outside change state) ∧
      ∀ task, protocol.others task state (outside change state))
    (good : pool.Good protocol) (event : PoolEvent κ ι ω) :
    (pool.step program outside event).Good protocol := by
  cases event with
  | start kind =>
      refine ⟨good.sound, ?_⟩
      intro task running found
      change (pool.tasks ++ [program kind pool.tasks.length])[task]? = some running at found
      by_cases earlier : task < pool.tasks.length
      · rw [List.getElem?_append_left earlier] at found
        exact good.keeps task running found
      · have last : task = pool.tasks.length := by
          have bound := (List.getElem?_eq_some_iff.mp found).1
          simp only [List.length_append, List.length_singleton] at bound
          omega
        subst last
        simp only [List.getElem?_concat_length, Option.some.injEq] at found
        subst found
        exact starts kind _ _ good.sound
  | advance task input =>
      unfold Pool.step
      dsimp only
      split
      · rename_i effect next found
        obtain ⟨own, rest⟩ := good.keeps task _ found pool.shared (protocol.refl task _) good.sound input
        refine ⟨protocol.kept task _ _ good.sound own, ?_⟩
        intro other running held
        dsimp only at held ⊢
        by_cases same : task = other
        · subst same
          have bound := (List.getElem?_eq_some_iff.mp found).1
          rw [List.getElem?_set_self bound] at held
          cases held
          exact rest
        · rw [List.getElem?_set_ne same] at held
          exact (good.keeps other running held).later (protocol.expected task other _ _ same good.sound own)
      · exact good
  | outside change =>
      obtain ⟨sound, others⟩ := changes change pool.shared good.sound
      exact ⟨sound, fun task running found => (good.keeps task running found).later (others task)⟩

/-- Where all tasks keep to a protocol, it holds in every state of every run. -/
theorem sound_of_run {start : σ}
    (starts : ∀ kind task state, protocol.sound state →
      (program kind task).Keeps protocol task (fun _ _ => True) (fun _ _ => True) state)
    (changes : ∀ change state, protocol.sound state → protocol.sound (outside change state) ∧
      ∀ task, protocol.others task state (outside change state))
    (sound : protocol.sound start) (history : List (PoolEvent κ ι ω)) :
    (replay (step program outside) (initial start) history).Good protocol :=
  replay_invariant ⟨sound, by simp [initial]⟩
    (fun _ event good => good.step starts changes event) history

/-- What every step does, a run does. -/
theorem Good.related {Related : σ → σ → Prop} (refl : ∀ state, Related state state)
    (trans : ∀ first second third, Related first second → Related second third → Related first third)
    (owns : ∀ task before after, protocol.own task before after → Related before after)
    (moves : ∀ change state, Related state (outside change state))
    (starts : ∀ kind task state, protocol.sound state →
      (program kind task).Keeps protocol task (fun _ _ => True) (fun _ _ => True) state)
    (changes : ∀ change state, protocol.sound state → protocol.sound (outside change state) ∧
      ∀ task, protocol.others task state (outside change state))
    (good : pool.Good protocol) (history : List (PoolEvent κ ι ω)) :
    Related pool.shared (replay (Pool.step program outside) pool history).shared := by
  induction history generalizing pool with
  | nil => exact refl _
  | cons event rest ih =>
      refine trans _ _ _ ?_ (ih (good.step starts changes event))
      cases event with
      | start kind => exact refl _
      | advance task input =>
          unfold Pool.step
          dsimp only
          split
          · rename_i effect next found
            exact owns task _ _ (good.keeps task _ found pool.shared (protocol.refl task _) good.sound input).1
          · exact refl _
      | outside change => exact moves change _

end

end Pool

end Dockge.Data
