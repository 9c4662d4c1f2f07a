import Dockge.StackWrite.Write

namespace Dockge.StackWrite

open Dockge.Data Program

/-! Finish or undo the writes an interrupted process left behind. -/

variable {Hash Config : Type}

inductive JournalOutcome where
  | finished
  | undone
  | unresolved
deriving DecidableEq, Repr

/-- The hash recovery brings a file to. -/
def JournalFile.wanted (file : JournalFile Hash) (committed : Bool) : Option Hash :=
  if committed then some file.afterHash else file.beforeHash

/-- The hash recovery replaces. -/
def JournalFile.other (file : JournalFile Hash) (committed : Bool) : Option Hash :=
  if committed then file.beforeHash else some file.afterHash

/-- The plan of an interrupted write, if it can be read. -/
def readJournalManifest (journal : Nat) :
    DiskTask Hash Config (Option (JournalManifest Hash Config)) := do
  match ← attempt (ask fun disk =>
    match (disk.journals journal).bind (·.manifest) with
    | none => .error .io
    | some manifest => .ok manifest) with
  | .ok manifest => pure (some manifest)
  | .error (_ : WriteError) => pure none

/-- `fs.access` of the commit marker. -/
def readCommitted (journal : Nat) : DiskTask Hash Config Bool := do
  match ← attempt (ask fun disk =>
    match disk.journals journal with
    | some { committed := true, .. } => .ok ()
    | _ => .error .io) with
  | .ok _ => pure true
  | .error (_ : WriteError) => pure false

/-- Put the file selection of an interrupted write where the files ended up. -/
def restoreJournalMetadata (metadata : StackWriteMetadata Config) (committed : Bool) :
    DiskTask Hash Config Bool :=
  putSelection metadata.stack (if committed then some metadata.after else metadata.before)

/-- The selection once the files are there; whether something is left to the user. -/
def restoreOptions (unresolved : Bool) (metadata : Option (StackWriteMetadata Config)) (committed : Bool) :
    DiskTask Hash Config Bool :=
  match unresolved, metadata with
  | false, some metadata => do
      let stored ← restoreJournalMetadata metadata committed
      pure !stored
  | unresolved, _ => pure unresolved

section
variable [DecidableEq Hash] (sha256 : Bytes → Hash)

/-- Bring one file to the version the journal says; whether that was left to the user. -/
def restoreJournalFile (journal : Nat) (committed : Bool) (file : JournalFile Hash) :
    DiskTask Hash Config Bool := do
  match ← attempt (readStackFileState sha256 file.name) with
  | .error (_ : WriteError) => pure true
  | .ok current =>
      if current.hash = file.wanted committed then pure false
      -- The file holds a third text: someone edited it after the crash
      else if current.hash ≠ file.other committed then pure true
      else do
        match ← attempt (match file.wanted committed with
          | none => removeFile file.name
          | some _ => do
              let content ← readText journal fun journal =>
                if committed then journal.after file.name else journal.before file.name
              replaceFile file.name content (some file.mode)) with
        | .ok _ => pure false
        | .error (_ : WriteError) => pure true

/-- Bring the files of an interrupted write to the version the journal says they hold. -/
def restoreJournalFiles (journal : Nat) (committed : Bool) :
    List (JournalFile Hash) → DiskTask Hash Config Bool
  | [] => pure false
  | file :: rest => do
      let unresolved ← restoreJournalFile sha256 journal committed file
      let others ← restoreJournalFiles journal committed rest
      pure (unresolved || others)

/-- Finish or undo one interrupted write. -/
def recoverJournal (parts : List Part) (journal : Nat) : DiskTask Hash Config JournalOutcome := do
  match ← readJournalManifest journal with
  | none => pure .unresolved
  | some manifest => do
      let committed ← readCommitted journal
      let unresolved ← restoreJournalFiles sha256 journal committed manifest.files
      let unresolved ← restoreOptions unresolved manifest.metadata committed
      if unresolved then do
        perform fun disk =>
          { disk.setJournal journal none with
            unresolved := Function.update disk.unresolved journal (disk.journals journal) }
        pure .unresolved
      else do
        removeJournal parts journal
        pure (if committed then .finished else .undone)

/-- Go through the journals in the order they are listed. -/
def recoverJournals (parts : Nat → List Part) : List Nat → DiskTask Hash Config (List JournalOutcome)
  | [] => pure []
  | journal :: rest => do
      let disk ← look
      if (disk.journals journal).isNone then recoverJournals parts rest
      else do
        let outcome ← recoverJournal sha256 (parts journal) journal
        let outcomes ← recoverJournals parts rest
        pure (outcome :: outcomes)

/-- What a start finds: the order its journals are listed in, and the entries of each. -/
structure Listing where
  journals : List Nat
  parts : Nat → List Part

structure RecoveryResult where
  finished : Nat
  undone : Nat
  unresolved : Nat

def recoverStackWrites (listing : Listing) : DiskTask Hash Config RecoveryResult := do
  ask fun _ => .ok ()
  let outcomes ← recoverJournals sha256 listing.parts listing.journals
  pure {
    finished := outcomes.count .finished
    undone := outcomes.count .undone
    unresolved := outcomes.count .unresolved }

end

end Dockge.StackWrite
