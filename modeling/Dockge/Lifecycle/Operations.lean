import Dockge.StackStatus.Control
import Dockge.Terminals.Registry
import Mathlib.Data.List.Basic

namespace Dockge.Lifecycle

open Data StackStatus Terminals

/-! The lifecycle operations of one stack, and everything that comes between their steps.

An operation is the source's function between its waits: it asks something, runs a command and waits
for its exit, or ends.  The commands of a connection run in a terminal of the registry, those of other
clients as plain processes.
-/

inductive Failure where
  | operation (error : OperationError)
  | message (text : String)
deriving DecidableEq, Repr

/-- What a wait that is no command comes to. -/
inductive Answer where
  | passed
  /-- A `ValidationError` -/
  | invalid
  | threw
  | containers (ids : List String)

/-- How a command runs. -/
inductive Through where
  /-- `Terminal.exec` under this name -/
  | terminal (name : String)
  /-- `spawn` -/
  | process
deriving DecidableEq, Repr

/-- A command of docker: the word that says what it does, and all of its arguments. -/
structure Command where
  word : String
  args : List String
deriving DecidableEq, Repr

/-- Images are fetched and built beside the containers. -/
def Command.changesContainers (command : Command) : Bool := command.word ∉ ["pull", "build"]

inductive Operation (α : Type) : Type where
  | done (value : α)
  | threw (failure : Failure)
  | ask (next : Answer → Operation α)
  /-- `withStackLock`, which the operation keeps until it ends -/
  | lock (next : Operation α)
  /-- `delete` looks whether a command runs. -/
  | whenIdle (terminalName : String) (busy idle : Operation α)
  | execute (through : Through) (command : Command) (next : Except Failure Int → Operation α)
  /-- `delete` removes the directory. -/
  | removeDirectory (next : Operation α)

namespace Operation

variable {α β : Type}

def andThen (first : Operation α) (after : α → Operation β) : Operation β :=
  match first with
  | .done value => after value
  | .threw failure => .threw failure
  | .ask next => .ask fun answer => (next answer).andThen after
  | .lock next => .lock (next.andThen after)
  | .whenIdle terminalName busy idle => .whenIdle terminalName (busy.andThen after) (idle.andThen after)
  | .execute through command next => .execute through command fun outcome => (next outcome).andThen after
  | .removeDirectory next => .removeDirectory (next.andThen after)

instance : Monad Operation where
  pure := .done
  bind := andThen

def failIf (condition : Bool) (failure : Failure) : Operation Unit :=
  if condition then .threw failure else .done ()

/-- A wait that passes or throws: who the panel is, the compose file, a guard, a fingerprint. -/
def check : Operation Unit :=
  .ask fun
    | .passed => .done ()
    | _ => .threw (.message "")

/-- Run a command; what it throws ends the operation. -/
def run (through : Through) (command : Command) : Operation Int :=
  .execute through command fun
    | .ok exitCode => .done exitCode
    | .error failure => .threw failure

end Operation

/-- The stack as an operation loaded it. -/
structure Project where
  stack : ControlledStack
  builds : Bool
  services : List String
  /-- Services with a `build` of their own -/
  built : List String

def getComposeTerminalName (endpoint stack : String) : String := "compose-" ++ endpoint ++ "-" ++ stack

def Project.compose (project : Project) (word : String) (extraOptions : List String) : Command :=
  ⟨word, project.stack.getComposeOptions word extraOptions⟩

def Project.terminalName (project : Project) (endpoint : String) : String :=
  getComposeTerminalName endpoint project.stack.name

/-- `control`, over either way to run a command; a status that is up is an answer that passed. -/
def control (project : Project) (action : ControlAction) (execute : Command → Operation Int) :
    Operation Int := do
  allowed
  if action = .update then do
    let pullCode ← execute (project.compose "pull" (if project.builds then ["--ignore-buildable"] else []))
    Operation.failIf (pullCode ≠ 0) (.operation ⟨"pull", "operationPullFailed", false⟩)
    buildImages
    .ask fun
      | .passed => apply
      | _ => .done pullCode
  else apply
where
  /-- What is checked before any command; a stack that stops is not. -/
  allowed : Operation Unit :=
    if action = .stop then .done () else do
      Operation.check
      Operation.check
  buildImages : Operation Unit :=
    if project.builds then do
      let buildCode ← execute (project.compose "build" ["--pull"])
      Operation.failIf (buildCode ≠ 0) (.operation ⟨"build", "operationBuildFailed", false⟩)
    else .done ()
  options : Command :=
    match action with
    | .restart => project.compose "up" ["-d", "--force-recreate"]
    | .stop => project.compose "stop" []
    | .update => project.compose "up" ["-d", "--remove-orphans"]
    | .start | .deploy =>
        project.compose "up"
          (if project.builds then ["-d", "--build", "--remove-orphans"] else ["-d", "--remove-orphans"])
  apply : Operation Int := do
    let exitCode ← execute options
    Operation.failIf (exitCode ≠ 0) (.operation ⟨"apply", "operationApplyFailed", false⟩)
    pure exitCode

/-- `start`, `stop`, `restart`, `deploy` and `update` over a connection -/
def controlOver (project : Project) (endpoint : String) (action : ControlAction) : Operation Int :=
  control project action (Operation.run (.terminal (project.terminalName endpoint)))

/-- The same actions for an MCP client: the fingerprint and the guard are checked before each command. -/
def controlMcp (project : Project) (action : ControlAction) : Operation Int :=
  control project action fun command => do
    Operation.check
    Operation.check
    Operation.run .process command

def down (project : Project) (endpoint : String) : Operation Int := do
  Operation.check
  let exitCode ← Operation.run (.terminal (project.terminalName endpoint)) (project.compose "down" [])
  Operation.failIf (exitCode ≠ 0) (.message "stackDownFailed")
  pure exitCode

/-- `readStackContainerIds` -/
def readStackContainerIds : Operation (List String) :=
  .ask fun
    | .containers ids => .done ids
    | _ => .threw (.message "stackDeleteInventoryFailed")

def executeEach (execute : Command → Operation Int) : List Command → Operation Unit
  | [] => .done ()
  | command :: rest => do
      let exitCode ← execute command
      Operation.failIf (exitCode ≠ 0) (.message "stackDeleteContainersFailed")
      executeEach execute rest

def removeStackContainers (execute : Command → Operation Int) : Operation Unit := do
  let ids ← readStackContainerIds
  executeEach execute ((ids.toChunks 100).flatMap fun batch =>
    [⟨"stop", "stop" :: batch⟩, ⟨"rm", "rm" :: batch⟩])
  let left ← readStackContainerIds
  Operation.failIf (!left.isEmpty) (.message "stackDeleteContainersRemain")

/-- What `delete` does once nothing was found running -/
def deleteIdle (project : Project) (endpoint : String) : Operation Int := do
  let execute := Operation.run (.terminal (project.terminalName endpoint))
  let valid : Bool ← .ask fun
    | .passed => .done true
    | .invalid => .done false
    | _ => .threw (.message "")
  composeDown execute valid
  removeStackContainers execute
  .removeDirectory (.done 0)
where
  composeDown (execute : Command → Operation Int) (valid : Bool) : Operation Unit :=
    if valid then do
      let exitCode ← execute (project.compose "down" ["--remove-orphans"])
      Operation.failIf (exitCode ≠ 0) (.message "stackDeleteContainersFailed")
    else .done ()

def delete (project : Project) (endpoint : String) : Operation Int := do
  Operation.check
  .lock do
    Operation.check
    .whenIdle (project.terminalName endpoint) (.threw (.message "operationBusy")) (deleteIdle project endpoint)

def execServiceCommand (project : Project) (endpoint word serviceName : String) (extraOptions : List String) :
    Operation Int :=
  if serviceName ∈ project.services then
    Operation.run (.terminal (project.terminalName endpoint)) (project.compose word (extraOptions ++ [serviceName]))
  else .threw (.message "serviceUnknown")

/-- A service command that fails with a message of its own -/
def serviceCommand (project : Project) (endpoint word serviceName : String) (extraOptions : List String)
    (failed : Failure) : Operation Int := do
  let exitCode ← execServiceCommand project endpoint word serviceName extraOptions
  Operation.failIf (exitCode ≠ 0) failed
  pure exitCode

def startService (project : Project) (endpoint serviceName : String) : Operation Int := do
  Operation.check
  serviceCommand project endpoint "up" serviceName ["-d"] (.message "serviceStartFailed")

def stopService (project : Project) (endpoint serviceName : String) : Operation Int :=
  serviceCommand project endpoint "stop" serviceName [] (.message "serviceStopFailed")

def assertServiceExists (project : Project) (serviceName : String) : Operation Unit :=
  Operation.failIf (serviceName ∉ project.services) (.message "serviceUnknown")

def restartService (project : Project) (endpoint serviceName : String) : Operation Int := do
  assertServiceExists project serviceName
  Operation.check
  Operation.check
  serviceCommand project endpoint "up" serviceName ["-d", "--no-deps", "--force-recreate"]
    (.message "serviceRestartFailed")

/-- Update only the selected service image and recreate its container. -/
def updateService (project : Project) (endpoint serviceName : String) : Operation Int := do
  assertServiceExists project serviceName
  Operation.check
  Operation.check
  let _ ←
    if serviceName ∈ project.built then
      serviceCommand project endpoint "build" serviceName ["--pull"]
        (.operation ⟨"build", "operationBuildFailed", false⟩)
    else serviceCommand project endpoint "pull" serviceName [] (.operation ⟨"pull", "operationPullFailed", false⟩)
  serviceCommand project endpoint "up" serviceName ["-d", "--no-deps", "--force-recreate"]
    (.operation ⟨"apply", "operationApplyFailed", false⟩)

/-- What is asked for, over a connection with an endpoint or by an MCP client. -/
inductive Request where
  | control (endpoint : String) (action : ControlAction)
  | down (endpoint : String)
  | delete (endpoint : String)
  | startService (endpoint serviceName : String)
  | stopService (endpoint serviceName : String)
  | restartService (endpoint serviceName : String)
  | updateService (endpoint serviceName : String)
  | mcp (action : ControlAction)
deriving DecidableEq, Repr

def Request.operation (project : Project) : Request → Operation Int
  | .control endpoint action => controlOver project endpoint action
  | .down endpoint => Lifecycle.down project endpoint
  | .delete endpoint => Lifecycle.delete project endpoint
  | .startService endpoint serviceName => Lifecycle.startService project endpoint serviceName
  | .stopService endpoint serviceName => Lifecycle.stopService project endpoint serviceName
  | .restartService endpoint serviceName => Lifecycle.restartService project endpoint serviceName
  | .updateService endpoint serviceName => Lifecycle.updateService project endpoint serviceName
  | .mcp action => controlMcp project action

/-! ## The panel that owns the stack -/

/-- A command of the stack whose process has not exited, and who runs it. -/
structure Running where
  task : Nat
  through : Through
  command : Command
  /-- Its terminal, where it has one -/
  terminal : Option Nat
deriving DecidableEq, Repr

inductive Progress where
  | next (operation : Operation Int)
  | waiting (running : Running) (next : Except Failure Int → Operation Int)

structure Panel where
  registry : Registry
  tasks : List Progress
  running : List Running
  /-- The delete that holds the lock of the stack -/
  locked : Option Nat
  /-- The deletes that have checked that nothing runs and have not removed the directory -/
  deleting : List Nat

namespace Panel

def empty : Panel := ⟨.empty, [], [], none, []⟩

def goOn (panel : Panel) (task : Nat) (progress : Progress) : Panel :=
  { panel with tasks := panel.tasks.set task progress }

/-- The end of an operation gives its lock back. -/
def finish (panel : Panel) (task : Nat) : Panel :=
  { panel with
    locked := panel.locked.filter (· ≠ task)
    deleting := panel.deleting.filter (· ≠ task) }

/-- Go on with the task; one that has ended keeps nothing. -/
def proceed (panel : Panel) (task : Nat) (operation : Operation Int) : Panel :=
  match operation with
  | .done _ | .threw _ => (panel.goOn task (.next operation)).finish task
  | _ => panel.goOn task (.next operation)

/-- The process of a command runs from here on. -/
def began (panel : Panel) (running : Running) (next : Except Failure Int → Operation Int) : Panel :=
  { panel.goOn running.task (.waiting running next) with running := panel.running ++ [running] }

/-- Start a command; where it cannot be started, the operation goes on with that. -/
def execute (panel : Panel) (task : Nat) (through : Through) (command : Command)
    (next : Except Failure Int → Operation Int) (spawned : Bool) : Panel :=
  match through with
  | .terminal name =>
      match panel.registry.exec name spawned with
      | (.error error, _) => panel.proceed task (next (.error (.operation error)))
      | (.ok id, registry) =>
          let opened := { panel with registry := registry }
          if spawned then opened.began ⟨task, through, command, some id⟩ next
          else opened.proceed task (next (.error (.operation spawnFailed)))
  | .process =>
      if spawned then panel.began ⟨task, through, command, none⟩ next
      else panel.proceed task (next (.error (.message "")))

/-- The next step of an operation, with the answer it was waiting for. -/
def advance (panel : Panel) (task : Nat) (answer : Answer) (spawned : Bool) : Panel :=
  match panel.tasks[task]? with
  | some (.next (.ask next)) => panel.proceed task (next answer)
  | some (.next (.lock next)) =>
      match panel.locked with
      | some _ => panel
      | none => { panel with locked := some task }.proceed task next
  | some (.next (.whenIdle terminalName busy idle)) =>
      match panel.registry.getTerminal terminalName none with
      | some _ => panel.proceed task busy
      | none => { panel with deleting := panel.deleting ++ [task] }.proceed task idle
  | some (.next (.execute through command next)) => panel.execute task through command next spawned
  | some (.next (.removeDirectory next)) =>
      { panel with deleting := panel.deleting.filter (· ≠ task) }.proceed task next
  | _ => panel

/-- What a terminal told its caller when it exited. -/
def outcome (registry : Registry) (id : Nat) : Except Failure Int :=
  match registry.terminals[id]? with
  | some terminal =>
      match terminal.settled with
      | some (.ok exitCode) => .ok exitCode
      | some (.error error) => .error (.operation error)
      | none => .error (.message "")
  | none => .error (.message "")

/-- The process of a command exits, and the operation goes on with its exit code. -/
def exits (panel : Panel) (task : Nat) (exitCode : Int) (signal : Bool) : Panel :=
  match panel.tasks[task]? with
  | some (.waiting running next) =>
      let left := { panel with running := panel.running.erase running }
      match running.terminal with
      | some id =>
          let registry := panel.registry.exit id exitCode signal
          { left with registry := registry }.proceed task (next (outcome registry id))
      | none => left.proceed task (next (.ok exitCode))
  | _ => panel

/-- Whatever else happens to the terminals; the commands of the stack exit by themselves. -/
def outside (panel : Panel) (event : Terminals.Event) : Panel :=
  match event with
  | .exits id _ _ =>
      if panel.running.any (·.terminal = some id) then panel
      else { panel with registry := Terminals.step panel.registry event }
  | _ => { panel with registry := Terminals.step panel.registry event }

end Panel

/-- What happens next around one stack. -/
inductive Happens (stackName : String) where
  | request (project : Project) (mine : project.stack.name = stackName) (request : Request)
  | advance (task : Nat) (answer : Answer) (spawned : Bool)
  | exits (task : Nat) (exitCode : Int) (signal : Bool)
  | outside (event : Terminals.Event)

def step {stackName : String} (panel : Panel) : Happens stackName → Panel
  | .request project _ request => { panel with tasks := panel.tasks ++ [.next (request.operation project)] }
  | .advance task answer spawned => panel.advance task answer spawned
  | .exits task exitCode signal => panel.exits task exitCode signal
  | .outside event => panel.outside event

end Dockge.Lifecycle
