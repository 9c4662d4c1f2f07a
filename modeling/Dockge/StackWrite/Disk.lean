import Mathlib.Logic.Function.Basic
import Dockge.Data.Program
import Dockge.Data.Utf8
import Dockge.StackWrite.FileName

namespace Dockge.StackWrite

open Dockge.Data Program

/-! A stack directory, the journals of its unfinished writes and the stored selections. -/

/-- No stack file this panel writes is larger than this. -/
def maxFileBytes : Nat := 1024 * 1024

/-- Mode a stack file is created with when it did not exist yet, `0o644`. -/
def defaultFileMode : Nat := 420

structure File where
  bytes : Bytes
  mode : Nat

/-- A selection that belongs to the files of a write. -/
structure StackWriteMetadata (Config : Type) where
  stack : String
  before : Option Config
  after : Config

/-- One file as the journal records it. -/
structure JournalFile (Hash : Type) where
  name : String
  beforeHash : Option Hash
  afterHash : Hash
  mode : Nat

structure JournalManifest (Hash Config : Type) where
  files : List (JournalFile Hash)
  metadata : Option (StackWriteMetadata Config)

/-- What a journal directory holds. -/
structure Journal (Hash Config : Type) where
  manifest : Option (JournalManifest Hash Config) := none
  committed : Bool := false
  before : String → Option Bytes := fun _ => none
  after : String → Option Bytes := fun _ => none

/-- One entry of a journal directory. -/
inductive Part where
  | manifest
  | committed
  | before (name : String)
  | after (name : String)

structure Disk (Hash Config : Type) where
  /-- The stack directory. -/
  files : String → Option File
  /-- The journals, by their directory names. -/
  journals : Nat → Option (Journal Hash Config)
  /-- The journals renamed to `unresolved-` and their names. -/
  unresolved : Nat → Option (Journal Hash Config)
  /-- The next fresh name of a journal. -/
  nextId : Nat
  /-- The stored selection of each stack. -/
  selections : String → Option Config
  /-- The journals whose commit marker was written. -/
  marked : List Nat
  /-- A removal took a failed read of the selections for no selection. -/
  misread : Bool
  /-- A selection was stored over a failed read of the selections. -/
  wiped : Bool := false

/-- What a journal still holds once an entry of it is gone. -/
def Journal.drop {Hash Config : Type} (journal : Journal Hash Config) : Part → Journal Hash Config
  | .manifest => { journal with manifest := none }
  | .committed => { journal with committed := false }
  | .before name => { journal with before := Function.update journal.before name none }
  | .after name => { journal with after := Function.update journal.after name none }

inductive WriteError where
  | nameInvalid (file : String)
  | tooLarge (file : String)
  | duplicate
  /-- The file no longer holds what the caller expected. -/
  | conflict (file : String)
  | undoConflict
  /-- The selection could not be stored. -/
  | metadataWrite (stack : String)
  /-- A failed write could not be undone; the journal stays. -/
  | recoveryIncomplete (backup : Nat) (cause : WriteError)
  /-- The file system or the settings store failed. -/
  | io

variable {Hash Config : Type}

abbrev DiskTask (Hash Config : Type) := Program (Disk Hash Config) WriteError

/-- One operation on the disk.  One that fails late took effect. -/
def perform (effect : Disk Hash Config → Disk Hash Config) : DiskTask Hash Config Unit :=
  .operation fun fate disk =>
    match fate with
    | .ok => (.done (), effect disk)
    | .fail => (.threw .io, disk)
    | .late => (.threw .io, effect disk)
    | .kill => (.killed, disk)

/-- One operation that only reads. -/
def ask {α : Type} (answer : Disk Hash Config → Except WriteError α) : DiskTask Hash Config α :=
  .operation fun fate disk =>
    match fate with
    | .ok =>
        match answer disk with
        | .ok value => (.done value, disk)
        | .error error => (.threw error, disk)
    | .fail | .late => (.threw .io, disk)
    | .kill => (.killed, disk)

def refuseIf {α : Type} (error : Option WriteError) : Program α WriteError Unit :=
  match error with
  | some error => .fail error
  | none => pure ()

def Disk.setFile (disk : Disk Hash Config) (name : String) (file : Option File) : Disk Hash Config :=
  { disk with files := Function.update disk.files name file }

def Disk.setJournal (disk : Disk Hash Config) (id : Nat) (journal : Option (Journal Hash Config)) :
    Disk Hash Config :=
  { disk with journals := Function.update disk.journals id journal }

/-- Change a journal directory. -/
def Disk.onJournal (disk : Disk Hash Config) (id : Nat)
    (change : Journal Hash Config → Journal Hash Config) : Disk Hash Config :=
  disk.setJournal id ((disk.journals id).map change)

/-- State of one file on disk, as the transaction sees it. -/
structure StackFileState (Hash : Type) where
  hash : Option Hash
  bytes : Option Bytes
  mode : Option Nat

section
variable (sha256 : Bytes → Hash)

def hashStackFileContent (content : String) : Hash := sha256 (encodeUtf8 content.toList)

/-- What a stack file currently holds. -/
def readStackFileState (fileName : String) : DiskTask Hash Config (StackFileState Hash) :=
  ask fun disk =>
    match disk.files fileName with
    | none => .ok { hash := none, bytes := none, mode := none }
    | some file =>
        if maxFileBytes < file.bytes.length then .error (.tooLarge fileName)
        else .ok { hash := some (sha256 file.bytes), bytes := some file.bytes, mode := some file.mode }

end

/-- Write a file in place of another one.  The rename is what takes effect; where the
temporary cannot be cleaned up after it the failure comes late. -/
def replaceFile (fileName : String) (content : List Char) (mode : Option Nat) :
    DiskTask Hash Config Unit :=
  perform fun disk => disk.setFile fileName (some ⟨encodeUtf8 content, mode.getD defaultFileMode⟩)

def removeFile (fileName : String) : DiskTask Hash Config Unit :=
  perform fun disk => disk.setFile fileName none

/-- `fs.readFile(…, "utf-8")` of a file in a journal. -/
def readText (id : Nat) (part : Journal Hash Config → Option Bytes) : DiskTask Hash Config (List Char) :=
  ask fun disk =>
    match (disk.journals id).bind part with
    | none => .error .io
    | some bytes => .ok (decodeUtf8 bytes)

/-- `fs.rm` of a journal directory, whose entries go one by one in the order it finds them. -/
def removeJournal (parts : List Part) (id : Nat) : DiskTask Hash Config Unit := do
  forEach parts fun part => perform fun disk => disk.onJournal id fun journal => journal.drop part
  perform fun disk => disk.setJournal id none

/-! ### The stored selections -/

/-- The selections of all stacks; a read that fails counts as none. -/
def getAll (unread : Disk Hash Config → Disk Hash Config := id) :
    DiskTask Hash Config (String → Option Config) :=
  .operation fun fate disk =>
    match fate with
    | .ok => (.done disk.selections, disk)
    | .fail | .late => (.done fun _ => none, unread disk)
    | .kill => (.killed, disk)

/-- `Settings.set`: the row is looked up and written. -/
def storeSelections (all : String → Option Config) : DiskTask Hash Config Unit := do
  ask fun _ => .ok ()
  perform fun disk => { disk with selections := all }

def setSelection (stack : String) (config : Config) : DiskTask Hash Config Unit := do
  let all ← getAll fun disk => { disk with wiped := true }
  storeSelections (Function.update all stack (some config))

def removeSelection (stack : String) : DiskTask Hash Config Unit := do
  let all ← getAll fun disk => { disk with misread := true }
  if (all stack).isNone then pure ()
  else storeSelections (Function.update all stack none)

/-- Whether it could be done. -/
def quietly {ε : Type} (task : DiskTask Hash Config Unit) : Program (Disk Hash Config) ε Bool := do
  match ← attempt task with
  | .ok _ => pure true
  | .error _ => pure false

def applyMetadata (metadata : StackWriteMetadata Config) : DiskTask Hash Config Unit :=
  orElse (setSelection metadata.stack metadata.after) fun _ => fail (.metadataWrite metadata.stack)

/-- Store this selection, or forget the stored one; whether it could be done. -/
def putSelection (stack : String) (wanted : Option Config) : DiskTask Hash Config Bool :=
  match wanted with
  | none => quietly (removeSelection stack)
  | some config => quietly (setSelection stack config)

/-- Put back the selection a failed write had already changed. -/
def revertMetadata (metadata : StackWriteMetadata Config) : DiskTask Hash Config Bool :=
  putSelection metadata.stack metadata.before

end Dockge.StackWrite
