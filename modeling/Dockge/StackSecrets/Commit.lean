import Dockge.Data.History
import Dockge.StackConfig.FileConfig
import Dockge.StackSecrets.Binding
import Dockge.StackWrite.Write

namespace Dockge.StackSecrets

open Dockge.Data Program
open Dockge.StackConfig (Found StackFileConfig resolveConfig)
open Dockge.StackWrite

/-! The secret calls of one stack beside the other changes of its file selection.

A call gives way at each await: it reads the stored selection and the compose text, writes the compose
file with the lock of the stack, and stores the bindings after it let the lock go.
-/

variable {Hash : Type}

/-- What the calls of a stack share. -/
structure Host (Hash : Type) where
  sha256 : Bytes → Hash
  library : Library
  /-- Name of the stack, the key its selection is stored under -/
  name : String

inductive Request where
  | secret (secret : Secret)
  /-- A save that adopts an env file, or a selection set from the files screen. -/
  | other (change : StackFileConfig → StackFileConfig)

/-- What the request makes of the selection it has read. -/
def Request.change : Request → StackFileConfig → StackFileConfig
  | .secret asked => fun config => { config with secretBindings := asked.bindings config.secretBindings }
  | .other change => change

/-- What `loadFileConfig` found and made of the stored selection. -/
structure Loaded where
  found : Found
  config : StackFileConfig

def Loaded.composeFileName (loaded : Loaded) : String :=
  if loaded.config.composeFileName = "" then "compose.yaml" else loaded.config.composeFileName

/-- Where a call waits.  `wrote` says that it has written the compose file. -/
inductive Stage where
  | loading
  | reading (secret : Secret) (loaded : Loaded)
  | checking (secret : Secret) (loaded : Loaded) (composeYAML : String)
  | writing (secret : Secret) (loaded : Loaded) (composeYAML next : String)
  | cleaning (loaded : Loaded) (journal : Nat)
  | storing (loaded : Loaded) (wrote : Bool)
  | looking (loaded : Loaded) (wrote : Bool) (all : String → Option StackFileConfig)
  | setting (loaded : Loaded) (wrote : Bool) (all : String → Option StackFileConfig)
  | returned
  | rejected
  /-- The process stopped. -/
  | gone

/-- The call has written the compose file and not yet the bindings. -/
def Stage.between : Stage → Bool
  | .cleaning _ _ => true
  | .storing _ wrote => wrote
  | .looking _ wrote _ => wrote
  | .setting _ wrote _ => wrote
  | _ => false

def Stage.over : Stage → Bool
  | .returned => true
  | .rejected => true
  | .gone => true
  | _ => false

def Stage.isReturned : Stage → Bool
  | .returned => true
  | _ => false

/-- The call holds the lock of the stack. -/
def Stage.locks : Stage → Bool
  | .cleaning _ _ => true
  | _ => false

structure Task where
  request : Request
  stage : Stage

inductive CallError where
  | secret (error : SecretError)
  | write (error : WriteError)

abbrev CallTask (Hash : Type) := Program (Disk Hash StackFileConfig) CallError

def onDisk {α : Type} (task : DiskTask Hash StackFileConfig α) : CallTask Hash α :=
  orElse task fun error => fail (.write error)

def refuse (error : Option SecretError) : CallTask Hash Unit :=
  match error with
  | some error => fail (.secret error)
  | none => pure ()

/-- `readSelectedFile`: a file that is absent or cannot be read has an empty text. -/
def readSelectedFile (fileName : String) : CallTask Hash String := do
  match ← attempt (ask fun disk =>
    match disk.files fileName with
    | some file => .ok (String.ofList (decodeUtf8 file.bytes))
    | none => .error .io) with
  | .ok content => pure content
  | .error (_ : WriteError) => pure ""

/-- `fsAsync.access` of the secret file, where one has to be there -/
def accessSecret (fileName : Option String) : CallTask Hash Unit :=
  match fileName with
  | some fileName =>
      orElse (ask fun disk => if (disk.files fileName).isSome then .ok () else .error .io)
        fun (_ : WriteError) => fail (.secret (.secretFileMissing fileName))
  | none => pure ()

section
variable [DecidableEq Hash] (host : Host Hash)

/-- The compose file as `commit` writes it. -/
def composeTarget (loaded : Loaded) (composeYAML next : String) : StackFileTarget Hash :=
  { name := loaded.composeFileName
    content := next
    expectedHash := some (some (hashStackFileContent host.sha256 composeYAML)) }

/-- A call goes on from where it waits.  `found` is what a scan of the directory finds, `parts` the
order in which the journal is emptied. -/
def Task.next (task : Task) (found : Found) (parts : List Part) : CallTask Hash Stage :=
  match task.stage with
  | .loading => do
      let all ← onDisk getAll
      let loaded : Loaded := { found, config := resolveConfig (all host.name) found }
      match task.request with
      | .secret secret => pure (.reading secret loaded)
      | .other _ => pure (.storing loaded false)
  | .reading secret loaded => do
      let composeYAML ← readSelectedFile loaded.composeFileName
      refuse secret.refusal
      pure (.checking secret loaded composeYAML)
  | .checking secret loaded composeYAML => do
      accessSecret secret.needs
      match secret.text host.library composeYAML with
      | .error error => fail (.secret error)
      | .ok none => pure (.storing loaded false)
      | .ok (some next) => pure (.writing secret loaded composeYAML next)
  | .writing _ loaded composeYAML next => onDisk do
      let targets := [composeTarget host loaded composeYAML next]
      forEach targets validateTarget
      let (_, journal) ← writeLocked host.sha256 targets { metadata := none, parts }
      match journal with
      | some journal => pure (.cleaning loaded journal)
      | none => pure (.storing loaded false)
  | .cleaning loaded journal => onDisk do
      removeJournal parts journal
      pure (.storing loaded true)
  -- `StackConfig.set`
  | .storing loaded wrote => onDisk do
      let all ← getAll
      pure (.looking loaded wrote (Function.update all host.name (some (task.request.change loaded.config))))
  | .looking loaded wrote all => onDisk do
      ask fun _ => .ok ()
      pure (.setting loaded wrote all)
  | .setting _ _ all => onDisk do
      perform fun disk => { disk with selections := all }
      pure .returned
  | .returned => pure .returned
  | .rejected => pure .rejected
  | .gone => pure .gone

/-- What took place, by call. -/
inductive Entry where
  /-- The call found its text in the compose file, or put it there. -/
  | composed (call : Nat) (secret : Secret) (fileName : String) (changed : Bool)
  /-- The call had nothing to change in the compose text. -/
  | kept (call : Nat)
  /-- The call stored its selection. -/
  | stored (call : Nat) (request : Request) (found : Found)
  /-- Somebody else wrote a file. -/
  | edited (fileName : String) (bytes : Option Bytes)

/-- The operation takes effect, whether or not it says so. -/
def takesEffect (fates : List Fate) : Bool :=
  fates.headD .ok = .ok || fates.headD .ok = .late

/-- What a step of a call adds. -/
def Task.entries (task : Task) (call : Nat) (fates : List Fate) (ending : Ending CallError Stage) : List Entry :=
  match task.stage, ending with
  | .checking _ _ _, .done (.storing _ _) => [.kept call]
  | .writing secret loaded _ _, .done next => [.composed call secret loaded.composeFileName next.locks]
  | .setting loaded _ _, _ => if takesEffect fates then [.stored call task.request loaded.found] else []
  | _, _ => []

/-- The stage a step ends at, unless the process was stopped. -/
def stageOf : Ending CallError Stage → Option Stage
  | .done stage => some stage
  | .threw _ => some .rejected
  | .killed => none

structure State (Hash : Type) where
  disk : Disk Hash StackFileConfig
  tasks : List Task
  /-- The last one first. -/
  log : List Entry

/-- The call an entry is about. -/
def Entry.call : Entry → Option Nat
  | .composed call _ _ _ => some call
  | .kept call => some call
  | .stored call _ _ => some call
  | .edited _ _ => none

inductive Event where
  | start (request : Request)
  | advance (call : Nat) (found : Found) (parts : List Part) (fates : List Fate)
  /-- Another writer changes a file. -/
  | edit (fileName : String) (file : Option File)
  /-- The process stops between two operations. -/
  | crash

namespace State

def locked (state : State Hash) : Bool := state.tasks.any (·.stage.locks)

def stopped (tasks : List Task) : List Task := tasks.map fun task => { task with stage := .gone }

/-- A call that writes the compose file waits for the lock. -/
def waits (state : State Hash) (task : Task) : Bool :=
  match task.stage with
  | .writing _ _ _ _ => state.locked
  | _ => false

/-- The call goes on at a stage, or the process stopped during its step. -/
def settle (state : State Hash) (call : Nat) (task : Task) (entries : List Entry)
    (disk : Disk Hash StackFileConfig) (stage : Option Stage) : State Hash :=
  { disk
    tasks :=
      match stage with
      | some stage => state.tasks.set call { task with stage }
      | none => stopped state.tasks
    log := entries ++ state.log }

end State

/-- One step of a call that does not wait. -/
def advance (state : State Hash) (call : Nat) (task : Task) (found : Found) (parts : List Part)
    (fates : List Fate) : State Hash :=
  let outcome := task.next host found parts fates state.disk
  state.settle call task (task.entries call fates outcome.ending) outcome.state (stageOf outcome.ending)

def step (state : State Hash) : Event → State Hash
  | .start request => { state with tasks := state.tasks ++ [{ request, stage := .loading }] }
  | .advance call found parts fates =>
      match state.tasks[call]? with
      | none => state
      | some task =>
          if state.waits task then state else advance host state call task found parts fates
  | .edit fileName file =>
      { state with
        disk := state.disk.setFile fileName file
        log := .edited fileName (file.map (·.bytes)) :: state.log }
  | .crash => { state with tasks := State.stopped state.tasks }

end

def initial (disk : Disk Hash StackFileConfig) : State Hash := { disk, tasks := [], log := [] }

/-! ### What the calls make of the two stores, one after another -/

/-- The compose file after a call that works on it alone. -/
def rewritten (library : Library) (secret : Secret) (bytes : Bytes) : Bytes :=
  match secret.text library (String.ofList (decodeUtf8 bytes)) with
  | .ok (some next) => encodeUtf8 next.toList
  | _ => bytes

/-- What a file holds after these calls. -/
def bytesAfter (library : Library) (start : String → Option Bytes) (log : List Entry) (fileName : String) :
    Option Bytes :=
  match log with
  | [] => start fileName
  | .composed _ secret name _ :: rest =>
      if name = fileName then (bytesAfter library start rest fileName).map (rewritten library secret)
      else bytesAfter library start rest fileName
  | .edited name bytes :: rest => if name = fileName then bytes else bytesAfter library start rest fileName
  | _ :: rest => bytesAfter library start rest fileName

/-- The selection after these calls. -/
def selectionAfter (start : Option StackFileConfig) : List Entry → Option StackFileConfig
  | [] => start
  | .stored _ request found :: rest => some (request.change (resolveConfig (selectionAfter start rest) found))
  | _ :: rest => selectionAfter start rest

end Dockge.StackSecrets
