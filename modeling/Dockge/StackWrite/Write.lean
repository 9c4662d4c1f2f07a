import Dockge.StackWrite.Disk

namespace Dockge.StackWrite

open Dockge.Data Program

/-! Write a set of stack files so that a failure leaves either all of them or none. -/

variable {Hash Config : Type}

/-- What a caller wants one file to contain after the write. -/
structure StackFileTarget (Hash : Type) where
  name : String
  content : String
  /-- Hash of the bytes the caller started from, no hash when the file must not exist yet. -/
  expectedHash : Option (Option Hash) := none
  /-- Permissions for a file this write creates. -/
  mode : Option Nat := none

/-- One file of a write that is actually going to change something. -/
structure PendingWrite (Hash : Type) where
  target : StackFileTarget Hash
  state : StackFileState Hash
  afterHash : Hash

structure WriteProgress where
  /-- Files already replaced, in the order they were replaced. -/
  written : List String
  /-- Whether the selection of these files was already stored. -/
  metadataApplied : Bool

structure StackWriteResult (Hash : Type) where
  /-- Hash of every requested file after the write. -/
  hashes : List (String × Hash)
  /-- Files whose bytes actually changed. -/
  changed : List String

structure StackWriteOptions (Config : Type) where
  metadata : Option (StackWriteMetadata Config)
  /-- The order in which a removal of the journal finds its entries. -/
  parts : List Part

def validateTarget {α : Type} (target : StackFileTarget Hash) : Program α WriteError Unit := do
  refuseIf (if isSafeStackFileName target.name then none else some (.nameInvalid target.name))
  refuseIf (if maxFileBytes < (encodeUtf8 target.content.toList).length then some (.tooLarge target.name)
    else none)

/-- The permissions asked for count where the file has none yet. -/
def StackFileState.withMode (state : StackFileState Hash) (mode : Option Nat) : StackFileState Hash :=
  if mode.isSome && state.mode.isNone then { state with mode } else state

def journalFile (pending : PendingWrite Hash) : JournalFile Hash :=
  { name := pending.target.name
    beforeHash := pending.state.hash
    afterHash := pending.afterHash
    mode := pending.state.mode.getD defaultFileMode }

def journalManifest (pending : List (PendingWrite Hash)) (metadata : Option (StackWriteMetadata Config)) :
    JournalManifest Hash Config :=
  { files := pending.map journalFile, metadata }

/-- The bytes the file holds, if there is one. -/
def journalBefore (id : Nat) (pending : PendingWrite Hash) : DiskTask Hash Config Unit :=
  match pending.state.bytes with
  | some bytes =>
      perform fun disk => disk.onJournal id fun journal =>
        { journal with before := Function.update journal.before pending.target.name (some bytes) }
  | none => pure ()

/-- Put both versions of one file into the journal. -/
def journalVersions (id : Nat) (pending : PendingWrite Hash) : DiskTask Hash Config Unit := do
  journalBefore id pending
  perform fun disk => disk.onJournal id fun journal =>
    { journal with
      after := Function.update journal.after pending.target.name
        (some (encodeUtf8 pending.target.content.toList)) }

/-- Phase two: put both versions of every file on disk before any of them is replaced. -/
def openJournal (pending : List (PendingWrite Hash)) (metadata : Option (StackWriteMetadata Config)) :
    DiskTask Hash Config (Nat × JournalManifest Hash Config) := do
  let disk ← look
  let id := disk.nextId
  let manifest := journalManifest pending metadata
  -- The directories
  perform fun disk => { disk.setJournal id (some {}) with nextId := id + 1 }
  ask fun _ => .ok ()
  forEach pending (journalVersions id)
  perform fun disk => disk.onJournal id fun journal => { journal with manifest := some manifest }
  pure (id, manifest)

/-- Store the selection that belongs to the write, if one does. -/
def applyOptions (metadata : Option (StackWriteMetadata Config)) : DiskTask Hash Config Unit :=
  match metadata with
  | some metadata => applyMetadata metadata
  | none => pure ()

/-- Put back the selection if it was already stored. -/
def revertOptions (journal : Nat) (metadata : Option (StackWriteMetadata Config)) (error : WriteError)
    (progress : WriteProgress) : DiskTask Hash Config Unit :=
  match metadata with
  | some metadata =>
      onlyIf progress.metadataApplied do
        let reverted ← revertMetadata metadata
        refuseIf (if reverted then none else some (.recoveryIncomplete journal error))
  | none => pure ()

section
variable [DecidableEq Hash] (sha256 : Bytes → Hash)

/-- Phase one: read what is on disk, compare it with what the caller started from. -/
def planWrite : List (StackFileTarget Hash) →
    DiskTask Hash Config (List (String × Hash) × List (PendingWrite Hash))
  | [] => pure ([], [])
  | target :: rest => do
      let state ← readStackFileState sha256 target.name
      refuseIf (if target.expectedHash.all (· = state.hash) then none else some (.conflict target.name))
      let state := state.withMode target.mode
      let afterHash := hashStackFileContent sha256 target.content
      let (hashes, pending) ← planWrite rest
      pure ((target.name, afterHash) :: hashes,
        if some afterHash ≠ state.hash then { target, state, afterHash } :: pending else pending)

/-- Run a part of the commit: the failure carries what has been done so far. -/
def during {α : Type} (progress : WriteProgress) (task : DiskTask Hash Config α) :
    Program (Disk Hash Config) (WriteError × WriteProgress) α :=
  orElse task fun error => fail (error, progress)

/-- Replace the files one after another.  The file is read once more before and after. -/
def replaceFiles : List (PendingWrite Hash) → List String →
    Program (Disk Hash Config) (WriteError × WriteProgress) (List String)
  | [], written => pure written
  | { target, state, afterHash } :: rest, written => do
      during { written, metadataApplied := false } do
        -- A test may stop the write here
        ask fun _ => .ok ()
        let current ← readStackFileState sha256 target.name
        refuseIf (if current.hash = state.hash then none else some (.conflict target.name))
        replaceFile target.name target.content.toList state.mode
      let written := written ++ [target.name]
      during { written, metadataApplied := false } do
        let verified ← readStackFileState sha256 target.name
        refuseIf (if verified.hash = some afterHash then none else some (.conflict target.name))
      replaceFiles rest written

/-- Phase three: replace the files, store the selection, mark the write committed. -/
def commitWrite (pending : List (PendingWrite Hash)) (journal : Nat)
    (metadata : Option (StackWriteMetadata Config)) :
    Program (Disk Hash Config) (WriteError × WriteProgress) Unit := do
  let written ← replaceFiles sha256 pending []
  during { written, metadataApplied := false } do
    -- A test may stop the write here
    ask fun _ => .ok ()
    applyOptions metadata
  during { written, metadataApplied := metadata.isSome }
    (perform fun disk =>
      { disk.onJournal journal fun journal => { journal with committed := true } with
        marked := journal :: disk.marked })

/-- Put back one file a failed write replaced. -/
def undoFile (journal : Nat) (manifest : JournalManifest Hash Config) (name : String) :
    DiskTask Hash Config Unit :=
  match manifest.files.find? (·.name = name) with
  | none => fail .io
  | some entry => do
      let current ← readStackFileState sha256 name
      refuseIf (if current.hash = some entry.afterHash then none else some .undoConflict)
      match entry.beforeHash with
      | none => removeFile name
      | some _ => do
          let before ← readText journal fun journal => journal.before name
          replaceFile name before (some entry.mode)

/-- Put back what the files held before a failed write. -/
def undoWrite (journal : Nat) (manifest : JournalManifest Hash Config) (written : List String)
    (parts : List Part) (cause : WriteError) : DiskTask Hash Config Unit := do
  orElse (forEach written.reverse (undoFile sha256 journal manifest))
    fun _ => fail (.recoveryIncomplete journal cause)
  removeJournal parts journal

/-- What a failed commit leaves is undone, the selection first. -/
def compensate (journal : Nat) (manifest : JournalManifest Hash Config) (options : StackWriteOptions Config)
    (error : WriteError) (progress : WriteProgress) : DiskTask Hash Config Unit := do
  revertOptions journal options.metadata error progress
  undoWrite sha256 journal manifest progress.written options.parts error
  fail error

def writeStackFiles (targets : List (StackFileTarget Hash)) (options : StackWriteOptions Config) :
    DiskTask Hash Config (StackWriteResult Hash) := do
  forEach targets validateTarget
  refuseIf (if (targets.map (·.name)).Nodup then none else some .duplicate)
  let (hashes, pending) ← planWrite sha256 targets
  if pending.isEmpty then do
    -- Nothing to undo, so the selection is the whole write and stands on its own
    applyOptions options.metadata
    pure { hashes, changed := [] }
  else do
    let (journal, manifest) ← openJournal pending options.metadata
    orElse (commitWrite sha256 pending journal options.metadata) fun (error, progress) =>
      compensate sha256 journal manifest options error progress
    removeJournal options.parts journal
    pure { hashes, changed := pending.map (·.target.name) }

/-- What a call does with the lock, up to the removal of the journal it opened. -/
def writeLocked (targets : List (StackFileTarget Hash)) (options : StackWriteOptions Config) :
    DiskTask Hash Config (StackWriteResult Hash × Option Nat) := do
  let (hashes, pending) ← planWrite sha256 targets
  if pending.isEmpty then do
    applyOptions options.metadata
    pure ({ hashes, changed := [] }, none)
  else do
    let (journal, manifest) ← openJournal pending options.metadata
    orElse (commitWrite sha256 pending journal options.metadata) fun (error, progress) =>
      compensate sha256 journal manifest options error progress
    pure ({ hashes, changed := pending.map (·.target.name) }, some journal)

/-- Remove the journal, if one was opened. -/
def removeOpened (parts : List Part) (journal : Option Nat) : DiskTask Hash Config Unit :=
  match journal with
  | some journal => removeJournal parts journal
  | none => pure ()

theorem writeStackFiles_eq (targets : List (StackFileTarget Hash)) (options : StackWriteOptions Config) :
    writeStackFiles sha256 targets options = (do
      forEach targets validateTarget
      refuseIf (if (targets.map (·.name)).Nodup then none else some .duplicate)
      let (result, journal) ← writeLocked sha256 targets options
      removeOpened options.parts journal
      pure result) := by
  unfold writeStackFiles writeLocked
  simp only [bind_assoc]
  congr 1
  funext _
  congr 1
  funext _
  congr 1
  funext plan
  obtain ⟨hashes, pending⟩ := plan
  dsimp only
  split <;> simp only [bind_assoc, pure_bind, removeOpened]

end

end Dockge.StackWrite
