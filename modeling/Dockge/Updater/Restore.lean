import Dockge.Updater.Host

namespace Dockge.Updater

open Dockge.Data Program

/-! The data copy of an operation, and its restore. -/

variable {Data : Type}

section
variable [DecidableEq Data]

/-- The data copy holds what was recorded of it. -/
def verifySnapshot (host : Host Data) (id : Nat) : Bool :=
  match host.recorded id, host.backup id with
  | some recorded, some backup => recorded = backup
  | _, _ => false

/-- Replace the data directory by a copy of the verified snapshot and keep what it held.
The failed directory marks that the data was set aside, so that an interrupted run can be
repeated. -/
def restoreData (site : Site) (op : Operation) (dataDir : Path) : HostTask Data Unit := do
  refuseIf (validateRestore site dataDir)
  let host ← look
  refuseIf (if verifySnapshot host op.id then none
    else some "snapshot files differ from their recorded hashes")
  onlyIf (host.failed op.id).isNone do
    onlyIf (host.staged op.id).isSome
      (perform op .clearStaged
        (fun host => { host with staged := Function.update host.staged op.id none })
        (fun host => { host with staged := Function.update host.staged op.id (some .torn) }))
    perform op .copyStaged
      (fun host => { host with staged := Function.update host.staged op.id (host.backup op.id) })
      (fun host => { host with staged := Function.update host.staged op.id (some .torn) })
    onlyIf (host.data dataDir).isNone (fail (.command .setAside))
    perform op .setAside fun host =>
      { host with
        failed := Function.update host.failed op.id (host.data dataDir)
        data := Function.update host.data dataDir none }
    perform op .syncDir
  let host ← look
  onlyIf (host.data dataDir).isNone do
    onlyIf (host.staged op.id).isNone (fail (.command .place))
    perform op .place fun host =>
      { host with
        data := Function.update host.data dataDir (host.staged op.id)
        staged := Function.update host.staged op.id none }
    perform op .syncDir

/-- The restore in its own container, whose name refuses a second one while it runs.  When
the run fails the container is removed, unless that fails as well: then it may go on writing. -/
def restoreSnapshot (site : Site) (op : Operation) (dataDir : Path) : HostTask Data Unit := do
  refuseIf (validateRestore site dataDir)
  inspect op
  let container : HostTask Data Unit := do
    inspect op
    restoreData site op dataDir
    perform op .restore
  orElse container fun error => do
    match ← attempt (perform op .removeContainer) with
    | .ok _ => fail error
    | .error stopError => fail (.restoreRunning [error, stopError])

/-- Whether the snapshot can replace the data, before anything changes. -/
def checkRestore (site : Site) (op : Operation) (dataDir : Path) : HostTask Data Unit := do
  refuseIf (if op.backupVerified then none else some "no verified data snapshot")
  refuseIf (validateRestore site dataDir)
  let host ← look
  refuseIf (if verifySnapshot host op.id then none
    else some "snapshot files differ from their recorded hashes")
  -- The snapshot in a container of the previous image, and the updater binary
  inspect op

end

end Dockge.Updater
