import Mathlib.Data.List.Basic
import Dockge.StackConfig.Store

namespace Dockge.StackConfig

open Dockge.Data

/-! Which runs keep the selections of all stacks. -/

variable {Config : Type}

/-- The selection of a stack after these calls, in the order they took effect. -/
def lastOf (log : List (Entry Config)) (before : Selections Config) (stack : String) : Option Config :=
  match log with
  | [] => before stack
  | entry :: rest => if entry.stack = stack then entry.config else lastOf rest before stack

/-- What took effect since. -/
def recent (log seen : List (Entry Config)) : List (Entry Config) :=
  log.take (log.length - seen.length)

/-- Nobody wrote the row for such a stack since the selections were read, and they were read. -/
def Undisturbed (log : List (Entry Config)) (seen : Option (List (Entry Config)))
    (concerned : String → Prop) : Prop :=
  ∃ known, seen = some known ∧ ∀ entry ∈ recent log known, entry.wrote = true → ¬ concerned entry.stack

/-- A call that writes was not overtaken by a call for another stack, and one that finds nothing to
remove was not overtaken by a call for its own. -/
def State.NotOvertaken (state : State Config) (task : Task Config) (works : Bool) : Prop :=
  match task.stage with
  | .got all seen => task.call.config = none → has all task.call.stack = false →
      Undisturbed state.log seen (· = task.call.stack)
  | .writing _ seen existing => state.accepts existing works = true →
      Undisturbed state.log seen (· ≠ task.call.stack) ∧
        (task.call.config.isSome → task.call.stack ≠ "__proto__")
  | _ => True

def NotOvertaken (state : State Config) : Event Config → Prop
  | .advance index works => ∀ task ∈ state.tasks[index]?, state.NotOvertaken task works
  | _ => True

/-! ### What a read tells -/

/-- These selections are the stored ones of every such stack that was not written since. -/
def Tells (state : State Config) (all : Selections Config) (seen : List (Entry Config))
    (concerned : String → Prop) : Prop :=
  ∃ since, state.log = since ++ seen ∧ ∀ stack, concerned stack →
    (∀ entry ∈ since, entry.wrote = true → entry.stack ≠ stack) → all stack = state.selection stack

theorem recent_append (since seen : List (Entry Config)) : recent (since ++ seen) seen = since := by
  simp [recent]

theorem Undisturbed.read {log : List (Entry Config)} {seen : Option (List (Entry Config))}
    {concerned : String → Prop} (undisturbed : Undisturbed log seen concerned) :
    ∃ known, seen = some known := by
  obtain ⟨known, read, _⟩ := undisturbed
  exact ⟨known, read⟩

theorem Tells.stored {state : State Config} {all : Selections Config} {seen : List (Entry Config)}
    {concerned touched : String → Prop} {stack : String} (tells : Tells state all seen concerned)
    (undisturbed : Undisturbed state.log (some seen) touched) (asked : concerned stack)
    (untouched : touched stack) : all stack = state.selection stack := by
  obtain ⟨since, log, same⟩ := tells
  obtain ⟨known, found, quiet⟩ := undisturbed
  cases found
  rw [log, recent_append] at quiet
  apply same stack asked
  intro entry member wrote other
  exact quiet entry member wrote (other ▸ untouched)

/-- A call took effect on its own stack only. -/
structure Advances (before after : State Config) (entry : Entry Config) : Prop where
  log : after.log = entry :: before.log
  wrote : entry.wrote = false → after.selection = before.selection
  others : ∀ stack, stack ≠ entry.stack → after.selection stack = before.selection stack

theorem Tells.advance {before after : State Config} {entry : Entry Config} {all : Selections Config}
    {seen : List (Entry Config)} {concerned : String → Prop} (advances : Advances before after entry)
    (tells : Tells before all seen concerned) : Tells after all seen concerned := by
  obtain ⟨since, log, same⟩ := tells
  refine ⟨entry :: since, by rw [advances.log, log]; rfl, ?_⟩
  intro stack asked quiet
  have stored := same stack asked fun other member => quiet other (List.mem_cons_of_mem _ member)
  rw [stored]
  cases wrote : entry.wrote with
  | false => rw [advances.wrote wrote]
  | true =>
      have different := quiet entry List.mem_cons_self wrote
      exact (advances.others stack different.symm).symm

/-- The call works on selections that tell what is stored, but for its own stack, which has the
wanted selection in them. -/
def Task.Tells (state : State Config) (task : Task Config) : Prop :=
  match task.stage with
  | .fetched value seen => StackConfig.Tells state (selectionsOf value) seen fun _ => True
  | .got all seen => ∀ known, seen = some known → StackConfig.Tells state all known fun _ => True
  | .looking all seen | .writing all seen _ =>
      (task.call.stack ≠ "__proto__" ∨ task.call.config = none → all task.call.stack = task.call.config) ∧
        ∀ known, seen = some known → StackConfig.Tells state all known (· ≠ task.call.stack)
  | _ => True

theorem Task.Tells.of_tells {before after : State Config} {task : Task Config}
    (kept : ∀ all seen concerned, StackConfig.Tells before all seen concerned →
      StackConfig.Tells after all seen concerned) (tells : task.Tells before) : task.Tells after := by
  unfold Task.Tells at *
  cases stage : task.stage with
  | fetched value seen =>
      simp only [stage] at tells ⊢
      exact kept _ _ _ tells
  | got all seen =>
      simp only [stage] at tells ⊢
      exact fun known same => kept _ _ _ (tells known same)
  | looking all seen =>
      simp only [stage] at tells ⊢
      exact ⟨tells.1, fun known same => kept _ _ _ (tells.2 known same)⟩
  | writing all seen existing =>
      simp only [stage] at tells ⊢
      exact ⟨tells.1, fun known same => kept _ _ _ (tells.2 known same)⟩
  | _ => trivial

/-- The stored selections are those of the calls that took effect, and whatever was read of them
tells them. -/
structure Coherent (before : Selections Config) (state : State Config) : Prop where
  stored : ∀ stack, state.selection stack = lastOf state.log before stack
  cached : ∀ value seen, state.cache = some (value, seen) →
    Tells state (selectionsOf (some value)) seen fun _ => True
  tasks : ∀ task ∈ state.tasks, task.Tells state

section
variable {before : Selections Config} {state : State Config} {task : Task Config} {index : Nat}

theorem Tells.current (state : State Config) (concerned : String → Prop) :
    Tells state state.selection state.log concerned :=
  ⟨[], rfl, fun _ _ _ => rfl⟩

/-- A step that changes only where a call waits and what is cached. -/
theorem Coherent.put {stage : Stage Config} {cache : Option (Value Config × List (Entry Config))}
    (coherent : Coherent before state) (told : Task.Tells state { task with stage })
    (cached : ∀ value seen, cache = some (value, seen) →
      Tells state (selectionsOf (some value)) seen fun _ => True) :
    Coherent before ({ state with cache }.put index task stage) where
  stored := coherent.stored
  cached := cached
  tasks := by
    intro other member
    rcases List.mem_or_eq_of_mem_set member with earlier | rfl
    · exact coherent.tasks other earlier
    · exact told

/-- A step in which a call takes effect. -/
theorem Coherent.advance {stage : Stage Config} {wrote : Bool} {next : State Config}
    (coherent : Coherent before state)
    (advances : Advances state next { stack := task.call.stack, config := task.call.config, wrote })
    (cache : next.cache = state.cache) (tasks : next.tasks = state.tasks)
    (effect : next.selection task.call.stack = task.call.config)
    (told : Task.Tells next { task with stage }) :
    Coherent before (next.put index task stage) := by
  have put : Advances state (next.put index task stage)
      { stack := task.call.stack, config := task.call.config, wrote } :=
    ⟨advances.log, advances.wrote, advances.others⟩
  constructor
  · intro stack
    change next.selection stack = lastOf next.log before stack
    rw [advances.log, lastOf]
    split
    · rename_i same
      rw [← effect]
      exact congrArg next.selection same.symm
    · rename_i different
      rw [advances.others stack fun same => different same.symm]
      exact coherent.stored stack
  · intro value seen held
    change next.cache = _ at held
    rw [cache] at held
    exact (coherent.cached value seen held).advance put
  · intro other member
    rcases List.mem_or_eq_of_mem_set member with earlier | rfl
    · rw [tasks] at earlier
      exact (coherent.tasks other earlier).of_tells fun _ _ _ tells => tells.advance put
    · exact told

theorem coherent_fill {value : Option (Value Config)} {seen : List (Entry Config)}
    (coherent : Coherent before state) (tells : Tells state (selectionsOf value) seen fun _ => True)
    (waits : task.stage = .fetched value seen) :
    Coherent before ((state.fill value seen).put index task (.got (selectionsOf value) (some seen))) := by
  have told : Task.Tells state { task with stage := .got (selectionsOf value) (some seen) } := by
    intro known same
    cases same
    exact tells
  unfold State.fill
  cases value with
  | none => exact coherent.put told coherent.cached
  | some found =>
      dsimp only
      split
      · apply coherent.put told
        intro value known held
        cases held
        exact tells
      · exact coherent.put told coherent.cached

theorem coherent_edit {all : Selections Config} {seen : Option (List (Entry Config))}
    (coherent : Coherent before state)
    (tells : ∀ known, seen = some known → Tells state all known fun _ => True)
    (undisturbed : task.call.config = none → has all task.call.stack = false →
      Undisturbed state.log seen (· = task.call.stack)) :
    Coherent before (state.edit index task all seen) := by
  have others {edited : Selections Config} (same : ∀ stack, stack ≠ task.call.stack → edited stack = all stack)
      (known : List (Entry Config)) (read : seen = some known) :
      Tells state edited known (· ≠ task.call.stack) := by
    obtain ⟨since, log, stored⟩ := tells known read
    refine ⟨since, log, ?_⟩
    intro stack different quiet
    rw [same stack different]
    exact stored stack trivial quiet
  unfold State.edit
  split
  · rename_i config wanted
    apply coherent.put ?_ coherent.cached
    constructor
    · intro allowed
      have named : task.call.stack ≠ "__proto__" := by
        rcases allowed with named | absent
        · exact named
        · simp [wanted] at absent
      simp [assign, named, wanted]
    · apply others
      intro stack different
      unfold assign
      split
      · rfl
      · exact Function.update_of_ne different _ _
  · rename_i wanted
    split
    · apply coherent.put ?_ coherent.cached
      constructor
      · simp [erase, wanted]
      · apply others
        intro stack different
        exact Function.update_of_ne different _ _
    · rename_i absent
      have absent : has all task.call.stack = false := by simpa using absent
      have quiet := undisturbed wanted absent
      obtain ⟨known, read⟩ := quiet.read
      rw [read] at quiet
      have stored := (tells known read).stored quiet trivial rfl
      have noted : Advances state (state.note task.call false) ⟨task.call.stack, task.call.config, false⟩ :=
        ⟨rfl, fun _ => rfl, fun _ _ => rfl⟩
      apply coherent.advance noted rfl rfl
      · change state.selection task.call.stack = task.call.config
        rw [← stored, wanted]
        simp only [has, Bool.or_eq_false_iff] at absent
        simpa using absent.1
      · trivial

theorem coherent_resume {works : Bool} (coherent : Coherent before state) (member : task ∈ state.tasks)
    (notOvertaken : state.NotOvertaken task works) :
    Coherent before (state.resume index task works) := by
  have told := coherent.tasks task member
  unfold State.resume
  unfold State.NotOvertaken at notOvertaken
  unfold Task.Tells at told
  cases stage : task.stage with
  | fetching =>
      dsimp only
      split
      · exact coherent.put (Tells.current state _) coherent.cached
      · apply coherent.put ?_ coherent.cached
        intro known same
        cases same
  | fetched value seen =>
      simp only [stage] at told
      exact coherent_fill coherent told stage
  | got all seen =>
      simp only [stage] at told notOvertaken
      exact coherent_edit coherent told notOvertaken
  | looking all seen =>
      simp only [stage] at told
      dsimp only
      split
      · exact coherent.put told coherent.cached
      · exact coherent.put trivial coherent.cached
  | writing all seen existing =>
      simp only [stage] at told notOvertaken
      dsimp only
      split
      · rename_i accepted
        obtain ⟨quiet, named⟩ := notOvertaken accepted
        obtain ⟨known, read⟩ := quiet.read
        rw [read] at quiet
        have others : ∀ stack, stack ≠ task.call.stack → all stack = state.selection stack := by
          intro stack different
          exact (told.2 known read).stored quiet different different
        have wanted : all task.call.stack = task.call.config := by
          apply told.1
          cases config : task.call.config with
          | none => exact .inr rfl
          | some config => exact .inl (named (by simp [config]))
        have written : Advances state ({ state with row := some (.selections all) }.note task.call true)
            ⟨task.call.stack, task.call.config, true⟩ := by
          refine ⟨rfl, ?_, others⟩
          intro wrote
          cases wrote
        apply coherent.advance written rfl rfl wanted
        trivial
      · exact coherent.put trivial coherent.cached
  | clearing =>
      apply coherent.put
      · trivial
      · intro value seen held
        cases held
  | returned => exact coherent
  | rejected => exact coherent

theorem coherent_step {event : Event Config} (coherent : Coherent before state)
    (notOvertaken : NotOvertaken state event) : Coherent before (step state event) := by
  cases event with
  | start call =>
      refine ⟨coherent.stored, coherent.cached, ?_⟩
      intro task member
      rcases List.mem_append.mp member with earlier | new
      · exact coherent.tasks task earlier
      · obtain rfl := List.mem_singleton.mp new
        unfold firstStage
        cases held : state.cache with
        | none => trivial
        | some cached =>
            intro known same
            cases same
            exact coherent.cached _ _ held
  | advance index works =>
      unfold step
      dsimp only
      split
      · rename_i task found
        exact coherent_resume coherent (List.mem_of_getElem? found) (notOvertaken task found)
      · exact coherent
  | expire =>
      refine ⟨coherent.stored, ?_, coherent.tasks⟩
      intro value seen held
      cases held

theorem coherent_initial (row : Option (Value Config)) : Coherent (selectionsOf row) (initial row) where
  stored := fun _ => rfl
  cached := by
    intro value seen held
    cases held
  tasks := by simp [initial]

end

/-- In every run in which no call is overtaken, each stack has the selection of the last call that
named it. -/
theorem selections_not_lost (row : Option (Value Config)) (history : List (Event Config))
    (undisturbed : Along step NotOvertaken (initial row) history) (stack : String) :
    (replay step (initial row) history).selection stack =
      lastOf (replay step (initial row) history).log (selectionsOf row) stack := by
  have coherent : Coherent (selectionsOf row) (replay step (initial row) history) :=
    undisturbed.invariant (coherent_initial row) fun _ _ coherent met => coherent_step coherent met
  exact coherent.stored stack

/-! Two stacks are saved, one after the other and at the same moment. -/

def sampleHistory (turns : List Nat) : List (Event String) :=
  [.start ⟨"app", some "app.env"⟩, .start ⟨"web", some "web.env"⟩] ++
    turns.map fun index => .advance index true

instance (log : List (Entry Config)) (seen : Option (List (Entry Config))) (concerned : String → Prop)
    [DecidablePred concerned] : Decidable (Undisturbed log seen concerned) :=
  match seen with
  | some known => decidable_of_iff
      (∀ entry ∈ recent log known, entry.wrote = true → ¬ concerned entry.stack) (by simp [Undisturbed])
  | none => isFalse (by simp [Undisturbed])

instance (state : State Config) (task : Task Config) (works : Bool) :
    Decidable (state.NotOvertaken task works) :=
  match task with
  | ⟨call, .got all seen⟩ => inferInstanceAs (Decidable (call.config = none →
      has all call.stack = false → Undisturbed state.log seen (· = call.stack)))
  | ⟨call, .writing _ seen existing⟩ => inferInstanceAs (Decidable (state.accepts existing works = true →
      Undisturbed state.log seen (· ≠ call.stack) ∧ (call.config.isSome → call.stack ≠ "__proto__")))
  | ⟨_, .fetching⟩ => isTrue trivial
  | ⟨_, .fetched _ _⟩ => isTrue trivial
  | ⟨_, .looking _ _⟩ => isTrue trivial
  | ⟨_, .clearing⟩ => isTrue trivial
  | ⟨_, .returned⟩ => isTrue trivial
  | ⟨_, .rejected⟩ => isTrue trivial

instance (state : State Config) (event : Event Config) : Decidable (NotOvertaken state event) :=
  match event with
  | .start _ => isTrue trivial
  | .advance index works =>
      inferInstanceAs (Decidable (∀ task ∈ state.tasks[index]?, state.NotOvertaken task works))
  | .expire => isTrue trivial

/-- Both are stored where the second one waits. -/
theorem selections_not_lost_in_turn :
    (replay step (initial none) (sampleHistory [0, 0, 0, 0, 0, 0, 1, 1, 1, 1, 1, 1])).selection "app" =
      some "app.env" := by
  have undisturbed : Along step NotOvertaken (initial none)
      (sampleHistory [0, 0, 0, 0, 0, 0, 1, 1, 1, 1, 1, 1]) := by decide +kernel
  have kept := selections_not_lost none (sampleHistory [0, 0, 0, 0, 0, 0, 1, 1, 1, 1, 1, 1]) undisturbed "app"
  rw [kept]
  decide +kernel

/-- Both calls returned, and the second one wrote what it had read before the first one did. -/
theorem selections_lost :
    let final := replay step (initial none) (sampleHistory [0, 0, 1, 1, 0, 0, 0, 0, 1, 1, 1, 1])
    final.log.map (fun entry => (entry.stack, entry.config)) =
        [("web", some "web.env"), ("app", some "app.env")] ∧
      final.selection "web" = some "web.env" ∧ final.selection "app" = none := by
  decide +kernel

end Dockge.StackConfig
