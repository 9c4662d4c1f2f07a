import Dockge.Lifecycle.Operations
import Dockge.Terminals.Sound

namespace Dockge.Lifecycle

open Data StackStatus Terminals

/-! The commands of one stack, and when two of them overlap. -/

variable {registry : Registry} {running : List Running} {tasks : List Progress} {panel : Panel} {task : Nat}
  {name : String} {command : Command} {stackName : String}

/-- Every command that runs in a terminal has it to itself, and the others have none. -/
structure Held (registry : Registry) (running : List Running) : Prop where
  sound : Sound registry
  terminal : ∀ each ∈ running, ∀ id, each.terminal = some id →
    ∃ name, each.through = .terminal name ∧ Runs registry id name
  process : ∀ each ∈ running, each.terminal = none → each.through = .process
  distinct : (running.filterMap (·.terminal)).Nodup

/-- An operation waits for a command that runs, and for its own. -/
def Listed (tasks : List Progress) (running : List Running) : Prop :=
  ∀ task each next, tasks[task]? = some (.waiting each next) → each ∈ running ∧ each.task = task

namespace Held

/-- The name of a command is taken as long as it runs. -/
theorem taken (held : Held registry running) {each : Running} (member : each ∈ running)
    (through : each.through = .terminal name) : ∃ id, registry.getTerminal name none = some id := by
  cases terminal : each.terminal with
  | none =>
      have plain := held.process each member terminal
      rw [through] at plain
      cases plain
  | some id =>
      obtain ⟨named, same, runs⟩ := held.terminal each member id terminal
      rw [through] at same
      cases same
      exact ⟨id, runs.taken held.sound⟩

theorem carried (held : Held registry running) {after : Registry} (sound : Sound after)
    (carries : ∀ each ∈ running, ∀ id, each.terminal = some id → Carries registry after id) :
    Held after running where
  sound := sound
  terminal each member id terminal := by
    obtain ⟨name, through, runs⟩ := held.terminal each member id terminal
    exact ⟨name, through, runs.carried held.sound (carries each member id terminal)⟩
  process := held.process
  distinct := held.distinct

theorem exec (held : Held registry running) (spawned : Bool) : Held (registry.exec name spawned).2 running :=
  held.carried (held.sound.exec name spawned) fun _ _ _ _ => .exec

theorem began (held : Held registry running) {id : Nat} (opened : (registry.exec name true).1 = .ok id) :
    Held (registry.exec name true).2 (running ++ [⟨task, .terminal name, command, some id⟩]) where
  sound := held.sound.exec name true
  terminal each member holder terminal := by
    rw [List.mem_append, List.mem_singleton] at member
    obtain member | rfl := member
    · exact (held.exec true).terminal each member holder terminal
    · cases terminal
      exact ⟨name, rfl, (Runs.exec opened).2⟩
  process each member terminal := by
    rw [List.mem_append, List.mem_singleton] at member
    obtain member | rfl := member
    · exact held.process each member terminal
    · cases terminal
  distinct := by
    rw [List.filterMap_append]
    refine List.nodup_append.mpr ⟨held.distinct, by simp, ?_⟩
    intro holder member added found same
    obtain ⟨each, running, terminal⟩ := List.mem_filterMap.mp member
    obtain ⟨_, -, runs⟩ := held.terminal each running holder terminal
    have fresh : added = id := by simpa using found
    have bound := runs.bound
    rw [same, fresh, (Runs.exec opened).1] at bound
    exact Nat.lt_irrefl _ bound

theorem beganProcess (held : Held registry running) : Held registry (running ++ [⟨task, .process, command, none⟩]) where
  sound := held.sound
  terminal each member id terminal := by
    rw [List.mem_append, List.mem_singleton] at member
    obtain member | rfl := member
    · exact held.terminal each member id terminal
    · cases terminal
  process each member terminal := by
    rw [List.mem_append, List.mem_singleton] at member
    obtain member | rfl := member
    · exact held.process each member terminal
    · rfl
  distinct := by simpa using held.distinct

theorem erase (held : Held registry running) (each : Running) : Held registry (running.erase each) where
  sound := held.sound
  terminal other member := held.terminal other (List.mem_of_mem_erase member)
  process other member := held.process other (List.mem_of_mem_erase member)
  distinct := held.distinct.sublist (List.erase_sublist.filterMap _)

/-- With a command goes its terminal, which no other one has. -/
theorem exit (held : Held registry running) {each : Running} {id : Nat} (member : each ∈ running)
    (terminal : each.terminal = some id) (exitCode : Int) (signal : Bool) :
    Held (registry.exit id exitCode signal) (running.erase each) := by
  refine (held.erase each).carried (held.sound.exit exitCode signal) ?_
  intro other left holder its
  refine .exit fun same => ?_
  subst same
  have split := ((List.perm_cons_erase member).filterMap (·.terminal)).nodup held.distinct
  rw [List.filterMap_cons_some terminal, List.nodup_cons] at split
  exact split.1 (List.mem_filterMap.mpr ⟨other, left, its⟩)

theorem outside (held : Held registry running) (event : Terminals.Event)
    (apart : ∀ id exitCode signal, event = .exits id exitCode signal → ∀ each ∈ running, each.terminal ≠ some id) :
    Held (Terminals.step registry event) running := by
  refine held.carried (held.sound.step event) ?_
  intro each member id terminal
  exact .step event fun exitCode signal same => apart id exitCode signal same each member terminal

end Held

namespace Listed

theorem goOn (listed : Listed tasks running) (operation : Operation Int) :
    Listed (tasks.set task (.next operation)) running := by
  intro other each next found
  rw [List.getElem?_set] at found
  split at found
  · split at found <;> cases found
  · exact listed other each next found

theorem began (listed : Listed tasks running) {each : Running} (next : Except Failure Int → Operation Int) :
    Listed (tasks.set each.task (.waiting each next)) (running ++ [each]) := by
  intro other held after found
  rw [List.getElem?_set] at found
  split at found
  next same =>
    split at found
    · cases found
      exact ⟨by simp, same⟩
    · cases found
  · obtain ⟨member, own⟩ := listed other held after found
    exact ⟨List.mem_append_left _ member, own⟩

theorem exits (listed : Listed tasks running) {each : Running} (own : each.task = task) (operation : Operation Int) :
    Listed (tasks.set task (.next operation)) (running.erase each) := by
  intro other held after found
  rw [List.getElem?_set] at found
  split at found
  · split at found <;> cases found
  next differs =>
    obtain ⟨member, its⟩ := listed other held after found
    refine ⟨(List.mem_erase_of_ne ?_).mpr member, its⟩
    intro same
    subst same
    exact differs (own.symm.trans its)

theorem request (listed : Listed tasks running) (operation : Operation Int) :
    Listed (tasks ++ [.next operation]) running := by
  intro other each next found
  rw [List.getElem?_append] at found
  split at found
  · exact listed other each next found
  · rw [List.getElem?_singleton] at found
    split at found <;> cases found

end Listed

structure Tracked (panel : Panel) : Prop where
  held : Held panel.registry panel.running
  listed : Listed panel.tasks panel.running

namespace Panel

variable {operation : Operation Int}

@[simp] theorem proceed_registry : (panel.proceed task operation).registry = panel.registry := by
  unfold proceed
  split <;> rfl

@[simp] theorem proceed_running : (panel.proceed task operation).running = panel.running := by
  unfold proceed
  split <;> rfl

@[simp] theorem proceed_tasks :
    (panel.proceed task operation).tasks = panel.tasks.set task (.next operation) := by
  unfold proceed
  split <;> rfl

end Panel

theorem Tracked.proceed (tracked : Tracked panel) (operation : Operation Int) :
    Tracked (panel.proceed task operation) where
  held := by
    rw [Panel.proceed_registry, Panel.proceed_running]
    exact tracked.held
  listed := by
    rw [Panel.proceed_tasks, Panel.proceed_running]
    exact tracked.listed.goOn operation

/-- What `execute` does: it goes on at once, or the command runs. -/
theorem Panel.execute_cases (panel : Panel) (task : Nat) (through : Through) (command : Command)
    (next : Except Failure Int → Operation Int) (spawned : Bool) :
    (∃ name, through = .terminal name ∧ ∃ outcome,
        panel.execute task through command next spawned =
          { panel with registry := (panel.registry.exec name spawned).2 }.proceed task (next outcome)) ∨
      (∃ name id, through = .terminal name ∧ spawned = true ∧ (panel.registry.exec name true).1 = .ok id ∧
        panel.execute task through command next spawned =
          { panel with registry := (panel.registry.exec name true).2 }.began ⟨task, through, command, some id⟩ next) ∨
      through = .process ∧ (∃ outcome, panel.execute task through command next spawned =
          panel.proceed task (next outcome)) ∨
      through = .process ∧ spawned = true ∧
        panel.execute task through command next spawned = panel.began ⟨task, through, command, none⟩ next := by
  cases through with
  | process =>
      cases spawned with
      | false => exact .inr (.inr (.inl ⟨rfl, _, rfl⟩))
      | true => exact .inr (.inr (.inr ⟨rfl, rfl, rfl⟩))
  | terminal name =>
      cases answered : panel.registry.exec name spawned with
      | mk answer registry =>
          cases answer with
          | error error =>
              have same : registry = panel.registry := by
                unfold Registry.exec at answered
                split at answered <;> cases answered
                rfl
              exact .inl ⟨name, rfl, .error (.operation error), by simp only [Panel.execute, answered, same]⟩
          | ok id =>
              cases spawned with
              | false =>
                  exact .inl ⟨name, rfl, .error (.operation spawnFailed), by
                    simp only [Panel.execute, answered, if_neg, Bool.false_eq_true, not_false_eq_true]⟩
              | true =>
                  refine .inr (.inl ⟨name, id, rfl, rfl, by rw [answered], ?_⟩)
                  simp only [Panel.execute, answered, if_pos]

theorem exec_free {id : Nat} {spawned : Bool} (opened : (registry.exec name spawned).1 = .ok id) :
    registry.getTerminal name none = none := by
  unfold Registry.exec at opened
  split at opened
  · cases opened
  next free => exact free

/-- The step by which a command begins to run: its operation was about to execute it, and no terminal
stood under its name. -/
structure Begins (panel after : Panel) (task : Nat) (each : Running) : Prop where
  own : each.task = task
  about : ∃ next, panel.tasks[task]? = some (.next (.execute each.through each.command next))
  free : ∀ name, each.through = .terminal name → panel.registry.getTerminal name none = none
  running : after.running = panel.running ++ [each]

theorem Tracked.execute (tracked : Tracked panel) {through : Through} {next : Except Failure Int → Operation Int}
    (about : panel.tasks[task]? = some (.next (.execute through command next))) (spawned : Bool) :
    Tracked (panel.execute task through command next spawned) ∧
      ((panel.execute task through command next spawned).running.Sublist panel.running ∨
        spawned = true ∧ ∃ each, Begins panel (panel.execute task through command next spawned) task each) := by
  obtain ⟨name, -, outcome, same⟩ | ⟨name, id, rfl, started, opened, same⟩ | ⟨-, outcome, same⟩ |
    ⟨rfl, started, same⟩ := panel.execute_cases task through command next spawned
  · rw [same]
    have going : Tracked { panel with registry := (panel.registry.exec name spawned).2 } :=
      ⟨tracked.held.exec spawned, tracked.listed⟩
    exact ⟨going.proceed _, .inl (by rw [Panel.proceed_running])⟩
  · rw [same]
    refine ⟨⟨tracked.held.began opened, tracked.listed.began next⟩, .inr ⟨started, ⟨task, .terminal name, command, some id⟩, ?_⟩⟩
    exact {
      own := rfl
      about := ⟨next, about⟩
      free := by
        intro named through
        cases through
        exact exec_free opened
      running := rfl }
  · rw [same]
    exact ⟨tracked.proceed _, .inl (by rw [Panel.proceed_running])⟩
  · rw [same]
    refine ⟨⟨tracked.held.beganProcess, tracked.listed.began next⟩, .inr ⟨started, ⟨task, .process, command, none⟩, ?_⟩⟩
    exact {
      own := rfl
      about := ⟨next, about⟩
      free := fun named through => nomatch through
      running := rfl }

theorem Tracked.advance (tracked : Tracked panel) (task : Nat) (answer : Answer) (spawned : Bool) :
    Tracked (panel.advance task answer spawned) ∧
      ((panel.advance task answer spawned).running.Sublist panel.running ∨
        spawned = true ∧ ∃ each, Begins panel (panel.advance task answer spawned) task each) := by
  have going {changed : Panel} (operation : Operation Int) (registry : changed.registry = panel.registry)
      (tasks : changed.tasks = panel.tasks) (running : changed.running = panel.running) :
      Tracked (changed.proceed task operation) ∧ ((changed.proceed task operation).running.Sublist panel.running ∨
        spawned = true ∧ ∃ each, Begins panel (changed.proceed task operation) task each) := by
    have kept : Tracked changed := ⟨by rw [registry, running]; exact tracked.held,
      by rw [tasks, running]; exact tracked.listed⟩
    exact ⟨kept.proceed operation, .inl (by rw [Panel.proceed_running, running])⟩
  have still : Tracked panel ∧ (panel.running.Sublist panel.running ∨
      spawned = true ∧ ∃ each, Begins panel panel task each) := ⟨tracked, .inl (List.Sublist.refl _)⟩
  unfold Panel.advance
  split
  · exact going _ rfl rfl rfl
  · split
    · exact still
    · exact going _ rfl rfl rfl
  · split
    · exact going _ rfl rfl rfl
    · exact going _ rfl rfl rfl
  next about => exact tracked.execute about spawned
  · exact going _ rfl rfl rfl
  · exact still

theorem Tracked.exits (tracked : Tracked panel) (task : Nat) (exitCode : Int) (signal : Bool) :
    Tracked (panel.exits task exitCode signal) ∧
      (panel.exits task exitCode signal).running.Sublist panel.running := by
  unfold Panel.exits
  split
  next each next waits =>
    obtain ⟨member, own⟩ := tracked.listed task each next waits
    have listed (operation : Operation Int) := tracked.listed.exits own operation
    split
    next id terminal =>
      constructor
      · constructor
        · rw [Panel.proceed_registry, Panel.proceed_running]
          exact tracked.held.exit member terminal exitCode signal
        · rw [Panel.proceed_tasks, Panel.proceed_running]
          exact listed _
      · rw [Panel.proceed_running]
        exact List.erase_sublist
    · constructor
      · constructor
        · rw [Panel.proceed_registry, Panel.proceed_running]
          exact tracked.held.erase each
        · rw [Panel.proceed_tasks, Panel.proceed_running]
          exact listed _
      · rw [Panel.proceed_running]
        exact List.erase_sublist
  · exact ⟨tracked, List.Sublist.refl _⟩

theorem Tracked.outside (tracked : Tracked panel) (event : Terminals.Event) :
    Tracked (panel.outside event) ∧ (panel.outside event).running = panel.running := by
  unfold Panel.outside
  split
  next id exitCode signal =>
    split
    · exact ⟨tracked, rfl⟩
    next free =>
      refine ⟨⟨tracked.held.outside (.exits id exitCode signal) ?_, tracked.listed⟩, rfl⟩
      intro holder _ _ same each member terminal
      cases same
      exact free (List.any_eq_true.mpr ⟨each, member, by simpa using terminal⟩)
  next other =>
    exact ⟨⟨tracked.held.outside _ fun id exitCode signal same => absurd same (other id exitCode signal),
      tracked.listed⟩, rfl⟩

/-- A step keeps what runs or takes out of it, unless it is the one by which a command begins. -/
theorem Tracked.step (tracked : Tracked panel) (event : Happens stackName) :
    Tracked (step panel event) ∧
      ((step panel event).running.Sublist panel.running ∨
        ∃ task answer each, event = .advance task answer true ∧ Begins panel (step panel event) task each) := by
  cases event with
  | request project mine request =>
      exact ⟨⟨tracked.held, tracked.listed.request _⟩, .inl (List.Sublist.refl _)⟩
  | advance task answer spawned =>
      obtain ⟨kept, less | ⟨rfl, each, begins⟩⟩ := tracked.advance task answer spawned
      · exact ⟨kept, .inl less⟩
      · exact ⟨kept, .inr ⟨task, answer, each, rfl, begins⟩⟩
  | exits task exitCode signal =>
      obtain ⟨kept, less⟩ := tracked.exits task exitCode signal
      exact ⟨kept, .inl less⟩
  | outside event =>
      obtain ⟨kept, same⟩ := tracked.outside event
      exact ⟨kept, .inl (by
        change (panel.outside event).running.Sublist panel.running
        rw [same])⟩

theorem Tracked.empty : Tracked .empty where
  held := {
    sound := Sound.empty
    terminal := nofun
    process := nofun
    distinct := List.nodup_nil }
  listed _ _ _ found := by cases found

theorem Tracked.reached (history : List (Happens stackName)) : Tracked (replay Lifecycle.step .empty history) :=
  replay_invariant (motive := Tracked) Tracked.empty (fun _ event tracked => (tracked.step event).1) history

/-! ## When no two commands overlap -/

/-- At most one command that changes containers is running. -/
def Panel.RunsOne (panel : Panel) : Prop := (panel.running.filter (·.command.changesContainers)).length ≤ 1

/-- No command changes containers between the check and the removal of another operation's delete. -/
def SparesDeletes (before after : Panel) : Prop :=
  ∀ each ∈ after.running, each ∉ before.running → each.command.changesContainers = true →
    ∀ other ∈ before.deleting, other = each.task

/-- The state in which a command that changes containers may be started: all that run do so in the
terminal that it asks for, and where another operation is deleting the stack, that terminal is there. -/
def Guarded (panel : Panel) (task : Nat) (through : Through) : Prop :=
  (∀ each ∈ panel.running, each.command.changesContainers = true →
    ∃ name, through = .terminal name ∧ each.through = .terminal name) ∧
  ∀ other ∈ panel.deleting, other ≠ task →
    ∃ name, through = .terminal name ∧ (panel.registry.getTerminal name none).isSome

def Undisturbed (panel : Panel) : Happens stackName → Prop
  | .advance task _ spawned => spawned = true → ∀ through command next,
      panel.tasks[task]? = some (.next (.execute through command next)) →
      command.changesContainers = true → Guarded panel task through
  | _ => True

/-- A command that begins where the step is undisturbed finds none beside it. -/
theorem Begins.alone {after : Panel} {each : Running} (begins : Begins panel after task each)
    (tracked : Tracked panel) (guarded : Guarded panel task each.through) :
    (∀ other ∈ panel.running, ¬ other.command.changesContainers = true) ∧
      ∀ other ∈ panel.deleting, other = task := by
  constructor
  · intro other member changing
    obtain ⟨name, through, same⟩ := guarded.1 other member changing
    obtain ⟨id, taken⟩ := tracked.held.taken member same
    rw [begins.free name through] at taken
    cases taken
  · intro other deleting
    by_contra differs
    obtain ⟨name, through, taken⟩ := guarded.2 other deleting differs
    rw [begins.free name through] at taken
    cases taken

theorem Tracked.runsOne (tracked : Tracked panel) {event : Happens stackName} (one : panel.RunsOne)
    (undisturbed : Undisturbed panel event) : (Lifecycle.step panel event).RunsOne := by
  obtain ⟨-, less | ⟨task, answer, each, rfl, begins⟩⟩ := tracked.step event
  · exact (less.filter _).length_le.trans one
  · obtain ⟨next, about⟩ := begins.about
    rw [Panel.RunsOne, begins.running, List.filter_append]
    cases changes : each.command.changesContainers with
    | false => simpa [Panel.RunsOne, changes] using one
    | true =>
        have alone := (begins.alone tracked (undisturbed rfl _ _ next about changes)).1
        rw [List.filter_eq_nil_iff.mpr alone]
        simp [changes]

theorem Tracked.sparesDeletes (tracked : Tracked panel) {event : Happens stackName}
    (undisturbed : Undisturbed panel event) : SparesDeletes panel (Lifecycle.step panel event) := by
  intro each member fresh changes other deleting
  obtain ⟨-, less | ⟨task, answer, begun, rfl, begins⟩⟩ := tracked.step event
  · exact absurd (less.mem member) fresh
  · rw [begins.running, List.mem_append, List.mem_singleton] at member
    obtain member | rfl := member
    · exact absurd member fresh
    · obtain ⟨next, about⟩ := begins.about
      rw [begins.own]
      exact (begins.alone tracked (undisturbed rfl _ _ next about changes)).2 other deleting

/-- A second command of one terminal is refused as busy. -/
theorem Tracked.execute_busy (tracked : Tracked panel) {each : Running} (member : each ∈ panel.running)
    (through : each.through = .terminal name) (next : Except Failure Int → Operation Int) (spawned : Bool) :
    panel.execute task (.terminal name) command next spawned =
      panel.proceed task (next (.error (.operation busy))) := by
  obtain ⟨id, taken⟩ := tracked.held.taken member through
  simp only [Panel.execute, Registry.exec, taken]

/-! A run in which two commands overlap -/

def plainProject (name : String) : Project where
  stack := { name := name, row := unmanaged, composeFileName := "", envFileNames := [], hasGlobalEnv := false }
  builds := false
  services := []
  built := []

/-- The owner stops a stack from the browser while an MCP client stops it too. -/
def stoppedTwice : List (Happens "app") :=
  [.request (plainProject "app") rfl (.control "" .stop), .request (plainProject "app") rfl (.mcp .stop),
    .advance 0 .passed true, .advance 1 .passed true, .advance 1 .passed true, .advance 1 .passed true]

theorem stoppedTwice_overlaps :
    ((replay step .empty stoppedTwice).running.filter (·.command.changesContainers)).length = 2 := by
  decide +kernel

theorem commands_overlap :
    ¬ ∀ stackName (history : List (Happens stackName)), (replay step .empty history).RunsOne := by
  intro always
  have one := always "app" stoppedTwice
  rw [Panel.RunsOne, stoppedTwice_overlaps] at one
  cases one with
  | step impossible => cases impossible

/-- Whatever operations of a stack are asked for and however they are interleaved: as long as every
command is started in an undisturbed state, at most one is changing containers and none changes them
while another operation deletes the stack.  In every run a second command of one terminal is refused. -/
theorem commands_exclusive (stackName : String) :
    (∀ history : List (Happens stackName), Along step Undisturbed .empty history →
      (replay step .empty history).RunsOne) ∧
    (∀ (past : List (Happens stackName)) (event : Happens stackName),
      Along step Undisturbed .empty (past ++ [event]) →
      SparesDeletes (replay step .empty past) (replay step .empty (past ++ [event]))) ∧
    ∀ (history : List (Happens stackName)), ∀ each ∈ (replay step .empty history).running,
      ∀ task name command next spawned, each.through = .terminal name →
      (replay step .empty history).execute task (.terminal name) command next spawned =
        (replay step .empty history).proceed task (next (.error (.operation busy))) := by
  refine ⟨?_, ?_, ?_⟩
  · intro history undisturbed
    have both : Tracked (replay step .empty history) ∧ (replay step .empty history).RunsOne :=
      undisturbed.invariant (motive := fun panel => Tracked panel ∧ panel.RunsOne)
        ⟨Tracked.empty, Nat.zero_le 1⟩
        fun _ event held allowed => ⟨(held.1.step event).1, held.1.runsOne held.2 allowed⟩
    exact both.2
  · intro past event undisturbed
    rw [replay_append]
    exact (Tracked.reached past).sparesDeletes undisturbed.last
  · intro history each member task name command next spawned through
    exact (Tracked.reached history).execute_busy member through next spawned

end Dockge.Lifecycle
