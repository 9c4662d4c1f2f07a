import Dockge.Updater.Restore

namespace Dockge.Updater

open Dockge.Data Program

/-! Recovery: after a failed update, by a rollback, and by a resume of the target. -/

variable {Data : Type} [DecidableEq Data]

/-- The journal of an operation that needs the operator, as far as it can be written. -/
def requireRecovery (op : Operation) (result : UpdateError) : HostTask Data Unit := do
  ignore (writeJournal { op with phase := .recoveryRequired })
  fail result

/-- The previous deployment comes back only on the verified snapshot. -/
def restoreAfterFailedStart (site : Site) (op : Operation) (previous : Installed) (cause : UpdateError) :
    HostTask Data Unit := do
  let required (op : Operation) (error : UpdateError) : HostTask Data Unit :=
    requireRecovery op (.wrapped
      "update failed: %w; target stopped; automatic data restore did not complete: %w; inspect the journal and use --rollback --restore-data"
      [cause, error])
  orElse (checkRestore site op previous.dataDir) (required op)
  let op := { op with restoreData := true, phase := .rollingBack }
  orElse (writeJournal op) (required op)
  orElse (restoreSnapshot site op previous.dataDir) fun error =>
    -- The journal keeps rolling-back while a restore container may still write
    if error.isRestoreRunning then fail (.wrapped "update failed: %w; target stopped; %w" [cause, error])
    else required op error
  orElse (up op .previous) (required op)
  orElse (verifyRuntime op .previous) (required op)
  writeJournal { op with phase := .recovered }
  fail (.wrapped
    "update failed; data snapshot and previous deployment were restored, post-update data kept in %s: %w"
    [cause])

/-- The previous deployment comes back on the data as it is. -/
def restartPrevious (op : Operation) (cause : UpdateError) : HostTask Data Unit := do
  orElse (up op .previous) fun error =>
    requireRecovery op (.wrapped "update failed (%w); recovery failed: %w" [cause, error])
  orElse (verifyRuntime op .previous) fun error => requireRecovery op error
  writeJournal { op with phase := .recovered }
  fail (.wrapped "update failed and previous deployment was recovered: %w" [cause])

/-- The recovery of an operation whose record names the failure.  It always ends in an error. -/
def recoverOperation (site : Site) (restoreOnFailedStart : Bool) (op : Operation) (cause : UpdateError) :
    HostTask Data Unit := do
  onlyIf (!op.backupVerified && op.backup)
    (ignore (perform op .removeBackup
      (fun host => { host with backup := Function.update host.backup op.id none })
      (fun host => { host with backup := Function.update host.backup op.id (some .torn) })))
  let started := mayHaveStarted op.phase
  onlyIf started (orElse (stop op .target) fun error =>
    requireRecovery op (.wrapped "update failed; could not stop the target: %w" [error]))
  match op.previous with
  | none =>
      requireRecovery op (.wrapped
        "update failed: %w; target stopped; inspect the journal and use --rollback --restore-data if the recorded snapshot is required"
        [cause])
  | some previous =>
      if started && op.schemaChanged && restoreOnFailedStart then
        restoreAfterFailedStart site op previous cause
      else if started && op.schemaChanged then
        requireRecovery op (.wrapped
          "update failed: %w; target stopped; inspect the journal and use --rollback --restore-data if the recorded snapshot is required"
          [cause])
      else restartPrevious op cause

/-- What follows a failure after the panel was stopped. -/
def recoverFailure (site : Site) (restoreOnFailedStart : Bool) (op : Operation) (cause : UpdateError) :
    HostTask Data Unit :=
  recoverOperation site restoreOnFailedStart { op with error := some cause } cause

/-- An interrupted preparation left the panel as it was: only the journal says otherwise. -/
def rollbackPreparation (op : Operation) : HostTask Data Unit := do
  -- Docker, the locks, and the container of the previous image
  inspect op
  writeJournal { op with phase := .failedBeforeCutover }

def schemaChangedText : String :=
  "schema changed: rollback requires --restore-data; this discards panel writes after the snapshot, preserves failed data, and does not restore stack volumes"

def rollbackRecorded (site : Site) (op : Operation) (previous : Installed) (restoreData : Bool) :
    HostTask Data Unit := do
  -- Docker, the locks, the container and other writers of the data
  inspect op
  let mustRestore := op.restoreData || mayHaveStarted op.phase && op.schemaChanged
  refuseIf (if mustRestore && !restoreData then some schemaChangedText else none)
  inspect op
  onlyIf restoreData (checkRestore site op previous.dataDir)
  -- The confirmation
  inspect op
  let op := { op with restoreData, phase := .rollingBack }
  writeJournal op
  stop op .target
  onlyIf restoreData (restoreSnapshot site op previous.dataDir)
  up op .previous
  verifyRuntime op .previous
  activate op (if previous.mode = .legacy then none else some previous)
  writeJournal { op with phase := .recovered }

def rollback (site : Site) (restoreData : Bool) : HostTask Data Unit := do
  let host ← look
  match host.journal with
  | none => refuse "operation.json does not exist"
  | some journal =>
      match if journal.phase.admitsUpdate then host.previous else some journal with
      | none => refuse "previous.json does not exist"
      | some op =>
          if op.phase = .prepared ∨ op.phase = .downloaded then rollbackPreparation op
          else
            match validateOperation op, op.previous with
            | some text, _ => refuse text
            | none, none => refuse "there is no recorded previous deployment"
            | none, some previous => rollbackRecorded site op previous restoreData

/-- The guards of a resume that read only the journal and the snapshot. -/
def resumeGuard (host : Host Data) (op : Operation) : Option String :=
  if !(op.phase ∈ [.downloaded, .startingTarget, .checkingTarget, .recoveryRequired] : Bool) then
    some "this phase cannot resume the target; inspect --status and recover with --rollback"
  else if !(digestPattern op.target.imageId && versionPattern op.target.version) then
    some "invalid target recovery record"
  else if op.previous.isSome && (op.restoreData || (host.failed op.id).isSome) then
    some "the data snapshot of this operation was restored or its restore began; finish with --rollback --restore-data, then start a new update"
  else if op.previous.isSome && !op.backupVerified then
    some "backup did not complete; use --rollback to recover before retrying"
  else none

/-- Retry the recorded target. -/
def resumeOperation (site : Site) : HostTask Data Unit := do
  let host ← look
  match host.journal with
  | none => refuse "operation.json does not exist"
  | some op => do
      refuseIf (resumeGuard host op)
      -- The environment file, Docker, the locks, the container, other writers and the image
      inspect op
      let host ← look
      refuseIf (if op.previous.isNone || verifySnapshot host op.id then none
        else some "snapshot files differ from their recorded hashes")
      -- The confirmation
      inspect op
      installLauncher op
      let op := { op with phase := .startingTarget }
      writeJournal op
      orElse (up op .target) (recoverFailure site false op)
      orElse (verifyRuntime op .target) (recoverFailure site false op)
      onlyIf op.previous.isSome (keepPrevious op)
      activate op (some op.target)
      writeJournal { op with phase := .success }

end Dockge.Updater
