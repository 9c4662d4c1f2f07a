import Mathlib.Logic.Function.Basic
import Dockge.Data.Program
import Dockge.Updater.Operation

namespace Dockge.Updater.DataRestore

open Dockge.Data Program

/-! `restoreData`, file by file.

Three directories beside each other: the data, the staged copy and the data that was set aside.  A
directory is what stands under each relative path; a step that is cut short while it works in the
staged copy leaves anything there.
-/

structure Meta where
  uid : Nat
  gid : Nat
  perm : Nat
deriving DecidableEq, Repr

inductive Node where
  | dir (mode : Meta)
  | file (bytes : List UInt8) (mode : Meta)
  /-- A symlink, a device and so on. -/
  | other
deriving DecidableEq, Repr

/-- A path below a directory, by its components; the directory itself is `[]`. -/
abbrev RelPath := List String

abbrev Directory := RelPath → Option Node

/-- A snapshot as `filepath.WalkDir` lists it: every entry once, and the directory first. -/
structure Snapshot where
  root : Meta
  rest : List (RelPath × Node)
  distinct : (([], Node.dir root) :: rest).Pairwise fun first second => first.1 ≠ second.1

def Snapshot.entries (snapshot : Snapshot) : List (RelPath × Node) :=
  ([], .dir snapshot.root) :: snapshot.rest

structure Disk where
  data : Option Directory
  /-- `data + ".dockge-restore-" + id` -/
  staged : Option Directory
  /-- `failedDataDir` -/
  failed : Option Directory
  /-- How many steps were taken; each cut short may leave something else. -/
  steps : Nat

/-- What a step cut short leaves of a directory. -/
abbrev Leavings := Nat → Option Directory → Option Directory

inductive Step where
  | verifySnapshot
  | canonical
  | removeAll
  | walk
  | mkdirAll
  | openSource
  | create
  | copy
  | sync
  | check
  | chown
  | chmod
  | rename
  | syncDir
deriving DecidableEq, Repr

inductive RestoreError where
  | refused (text : String)
  | failed (step : Step)

abbrev Task (α : Type) := Program Disk RestoreError α

def Disk.next (disk : Disk) : Disk := { disk with steps := disk.steps + 1 }

/-- A step that takes effect at once or not at all. -/
def perform (step : Step) (effect : Disk → Disk) : Task Unit :=
  .operation fun fate disk =>
    match fate with
    | .ok => (.done (), (effect disk).next)
    | .fail => (.threw (.failed step), disk.next)
    | .late => (.threw (.failed step), (effect disk).next)
    | .kill => (.killed, disk.next)

/-- A step on the staged copy that may stop halfway. -/
def work (leavings : Leavings) (step : Step) (effect : Option Directory → Option Directory) : Task Unit :=
  .operation fun fate disk =>
    match fate with
    | .ok => (.done (), { disk with staged := effect disk.staged }.next)
    | .fail => (.threw (.failed step), { disk with staged := leavings disk.steps disk.staged }.next)
    | .late => (.threw (.failed step), { disk with staged := effect disk.staged }.next)
    | .kill => (.killed, { disk with staged := leavings disk.steps disk.staged }.next)

/-- Ask for something that changes nothing. -/
def inspect (step : Step) : Task Unit := perform step id

def refuseIf (text : Option String) : Task Unit :=
  match text with
  | some text => fail (.refused text)
  | none => pure ()

/-! ### `copyTreeContext` -/

/-- `Mode().Perm()&0770` -/
def Meta.masked (mode : Meta) : Meta := { mode with perm := mode.perm &&& 0o770 }

/-- The process that restores runs as root. -/
def made (perm : Nat) : Meta := { uid := 0, gid := 0, perm := perm }

def put (directory : Option Directory) (path : RelPath) (node : Node) : Option Directory :=
  some (Function.update (directory.getD fun _ => none) path (some node))

def nodeAt (directory : Option Directory) (path : RelPath) : Option Node :=
  directory.bind fun directory => directory path

/-- `os.MkdirAll`; the walk comes to a directory before what is in it. -/
def mkdirAll (path : RelPath) : Task Unit := do
  let disk ← look
  match nodeAt disk.staged path with
  | some (.dir _) => inspect .mkdirAll
  | some _ => fail (.failed .mkdirAll)
  | none => perform .mkdirAll fun disk => { disk with staged := put disk.staged path (.dir (made 0o700)) }

/-- `os.OpenFile` with `O_CREATE|O_EXCL` -/
def create (path : RelPath) : Task Unit := do
  let disk ← look
  match nodeAt disk.staged path with
  | some _ => fail (.failed .create)
  | none => perform .create fun disk => { disk with staged := put disk.staged path (.file [] (made 0o600)) }

/-- Change what stands at a path. -/
def alter (directory : Option Directory) (path : RelPath) (change : Node → Node) : Option Directory :=
  match nodeAt directory path with
  | some node => put directory path (change node)
  | none => directory

def Node.write (bytes : List UInt8) : Node → Node
  | .file _ mode => .file bytes mode
  | node => node

def Node.chown (owner : Meta) : Node → Node
  | .dir mode => .dir { mode with uid := owner.uid, gid := owner.gid }
  | .file bytes mode => .file bytes { mode with uid := owner.uid, gid := owner.gid }
  | .other => .other

def Node.chmod (perm : Nat) : Node → Node
  | .dir mode => .dir { mode with perm := perm }
  | .file bytes mode => .file bytes { mode with perm := perm }
  | .other => .other

def chown (path : RelPath) (owner : Meta) : Task Unit :=
  perform .chown fun disk => { disk with staged := alter disk.staged path (Node.chown owner) }

def chmod (path : RelPath) (perm : Nat) : Task Unit :=
  perform .chmod fun disk => { disk with staged := alter disk.staged path (Node.chmod perm) }

/-- The copied file holds the bytes that were read. -/
def check (path : RelPath) (bytes : List UInt8) : Task Unit := do
  inspect .check
  let disk ← look
  match nodeAt disk.staged path with
  | some (.file written _) => refuseIf (if written = bytes then none else some "snapshot verification failed")
  | _ => fail (.failed .check)

def copyEntry (leavings : Leavings) (entry : RelPath × Node) : Task Unit := do
  -- The context, the walk and the entry's own information may each be the reason to stop
  inspect .walk
  match entry.2 with
  | .dir _ => mkdirAll entry.1
  | .other => fail (.refused "data snapshot refuses non-regular file")
  | .file bytes mode => do
      inspect .openSource
      create entry.1
      work leavings .copy fun staged => alter staged entry.1 (Node.write bytes)
      inspect .sync
      check entry.1 bytes
      chown entry.1 mode
      chmod entry.1 (mode.perm &&& 0o770)

/-- The owner and mode of a directory, once everything in it is there. -/
def finishDir (entry : RelPath × Meta) : Task Unit := do
  chown entry.1 entry.2
  chmod entry.1 (entry.2.perm &&& 0o770)
  inspect .syncDir

def dirsOf (entries : List (RelPath × Node)) : List (RelPath × Meta) :=
  entries.filterMap fun entry =>
    match entry.2 with
    | .dir mode => some (entry.1, mode)
    | _ => none

def copyTree (leavings : Leavings) (snapshot : Snapshot) : Task Unit := do
  forEach snapshot.entries (copyEntry leavings)
  forEach (dirsOf snapshot.entries).reverse finishDir
  inspect .syncDir

/-! ### `verifySnapshot` -/

section
variable {Hash : Type} [DecidableEq Hash]

/-- `treeHashes`, of the regular files; anything else fails it. -/
def treeHashes (sha256 : List UInt8 → Hash) : List (RelPath × Node) → Option (List (RelPath × Hash))
  | [] => some []
  | (_, .dir _) :: rest => treeHashes sha256 rest
  | (_, .other) :: _ => none
  | (path, .file bytes _) :: rest => (treeHashes sha256 rest).map ((path, sha256 bytes) :: ·)

/-- The recorded hashes, a map, are those of the tree. -/
def verifySnapshot (sha256 : List UInt8 → Hash) (recorded : List (RelPath × Hash)) (snapshot : Snapshot) :
    Option String :=
  match treeHashes sha256 snapshot.entries with
  | none => some "snapshot contains a non-regular file"
  | some actual => if actual.Perm recorded then none else some "snapshot files differ from their recorded hashes"

end

/-! ### `restoreData` -/

/-- `^[0-9]{8}T[0-9]{6}\.[0-9]{9}$` -/
def operationID (id : String) : Bool :=
  let chars := id.toList
  chars.length = 25 && (chars.take 8).all isDigit && chars[8]? = some 'T' &&
    ((chars.drop 9).take 6).all isDigit && chars[15]? = some '.' && (chars.drop 16).all isDigit

/-- `validateRestore` up to its look at symlinks. -/
def validateRestore (data snapshot : Path) (id : String) : Option String :=
  if !operationID id then some "invalid operation id"
  else if !(mountable data && mountable snapshot) then some "restore paths must be clean absolute paths"
  else if data.length ≤ 1 then
    some "a data directory directly under / cannot be restored in a container; restore it manually from the snapshot"
  else
    let state := (snapshot.dropLast.dropLast).dropLast
    if snapshot.getLast? ≠ some "data-backup" ∨ snapshot.dropLast.getLast? ≠ some id ∨
        snapshot.dropLast.dropLast.getLast? ≠ some "operations" ∨ state.getLast? ≠ some ".dockge2" then
      some "snapshot is not the backup of the recorded operation"
    else if within data state || within state data then some "data and updater state must be disjoint"
    else none

/-- The paths of a restore and what was recorded of its snapshot. -/
structure Request (Hash : Type) where
  data : Path
  backup : Path
  id : String
  sha256 : List UInt8 → Hash
  recorded : List (RelPath × Hash)
  snapshot : Snapshot

def renameData (disk : Disk) : Disk := { disk with failed := disk.data, data := none }

def renameStaged (disk : Disk) : Disk := { disk with data := disk.staged, staged := none }

/-- `os.Rename` of a directory that is not there fails. -/
def rename (source : Disk → Option Directory) (effect : Disk → Disk) : Task Unit := do
  let disk ← look
  if (source disk).isSome then perform .rename effect else fail (.failed .rename)

def restoreData {Hash : Type} [DecidableEq Hash] (leavings : Leavings) (request : Request Hash) :
    Task Unit := do
  refuseIf (validateRestore request.data request.backup request.id)
  inspect .canonical
  inspect .verifySnapshot
  refuseIf (verifySnapshot request.sha256 request.recorded request.snapshot)
  let disk ← look
  onlyIf disk.failed.isNone do
    onlyIf disk.staged.isSome (work leavings .removeAll fun _ => none)
    copyTree leavings request.snapshot
    rename Disk.data renameData
    inspect .syncDir
  let disk ← look
  onlyIf disk.data.isNone do
    rename Disk.staged renameStaged
    inspect .syncDir

end Dockge.Updater.DataRestore
