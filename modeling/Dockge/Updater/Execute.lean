import Dockge.Updater.Recovery

namespace Dockge.Updater

open Dockge.Data Program

/-! An update of an existing installation, and the runs of the updater. -/

variable {Data : Type}

/-- What an update has established by the time it records its operation. -/
structure Plan where
  previous : Installed
  target : Installed
  /-- The image and the configuration are the installed ones. -/
  unchanged : Bool
  valid : validateDeployments previous target = none

/-- The running deployment is the one of the updater's state. -/
def Plan.agrees (plan : Plan) (active : Option Installed) : Bool :=
  active.all fun active =>
    active.imageId = plan.previous.imageId && active.project = plan.previous.project &&
      active.dataDir = plan.previous.dataDir && active.version = plan.previous.version &&
      active.schema = plan.previous.schema

/-- The first record of the operation.  The image of the target is not known yet. -/
def Plan.record (plan : Plan) (id : Nat) : Operation :=
  { id, phase := .prepared, previous := some plan.previous
    target := { plan.target with imageId := "" } }

/-- A failure before the panel is stopped. -/
def failBeforeCutover (op : Operation) (cause : UpdateError) : HostTask Data Unit := do
  ignore (writeJournal { op with phase := .failedBeforeCutover, error := some cause })
  fail cause

/-- A pending operation refuses the update. -/
def pendingGuard (journal : Option Operation) : Option String :=
  match journal with
  | none => none
  | some pending =>
      if pending.phase.admitsUpdate then none
      else some ("operation " ++ toString pending.id ++ " is " ++ pending.phase.text ++
        "; inspect --status and use --resume or --rollback before another update")

/-- Copy the panel data. -/
def copyBackup (op : Operation) (dataDir : Path) : HostTask Data Unit := do
  let host ← look
  onlyIf (host.data dataDir).isNone (fail (.command .copyBackup))
  perform op .copyBackup
    (fun host => { host with backup := Function.update host.backup op.id (host.data dataDir) })
    (fun host => { host with backup := Function.update host.backup op.id (some .torn) })

/-- Record the hashes of the data copy. -/
def recordSnapshot (op : Operation) : HostTask Data Unit :=
  perform op .recordSnapshot fun host =>
    { host with recorded := Function.update host.recorded op.id (host.backup op.id) }

variable [DecidableEq Data]

/-- From the stop of the panel to the new version, with a recovery for every failure. -/
def cutover (site : Site) (restoreOnFailedStart : Bool) (stopping : Operation) (dataDir : Path) :
    HostTask Data Unit := do
  let recover : Operation → UpdateError → HostTask Data Unit := recoverFailure site restoreOnFailedStart
  orElse (stop stopping .previous) (recover stopping)
  -- The space for the data copy
  orElse (inspect stopping) (recover stopping)
  let op := { stopping with phase := .backingUp }
  orElse (writeJournal op) (recover op)
  let op := { op with backup := true }
  orElse (copyBackup op dataDir) (recover op)
  orElse (inspect op) (recover op)
  orElse (recordSnapshot op) (recover op)
  let op := { op with backupVerified := true, phase := .startingTarget }
  orElse (writeJournal op) (recover op)
  orElse (up op .target) (recover op)
  let op := { op with phase := .checkingTarget }
  orElse (writeJournal op) (recover op)
  orElse (verifyRuntime op .target) (recover op)
  keepPrevious op
  activate op (some op.target)
  writeJournal { op with phase := .success }

def execute (site : Site) (plan : Plan) (restoreOnFailedStart : Bool) : HostTask Data Unit := do
  let host ← look
  refuseIf (pendingGuard host.journal)
  refuseIf (if plan.agrees host.active then none
    else some "running deployment disagrees with updater state")
  let op := plan.record host.clock
  -- The release, the plan, the locks and the confirmation
  inspect op
  perform op .reserve (fun host => { host with clock := host.clock + 1 })
    (fun host => { host with clock := host.clock + 1 })
  writeJournal op
  orElse (perform op .tag) (failBeforeCutover op)
  orElse (perform op .pull) (failBeforeCutover op)
  orElse (inspect op) (failBeforeCutover op)
  let op := { op with target := plan.target }
  if plan.unchanged then do
    orElse (installLauncher op) (failBeforeCutover op)
    orElse (activate op host.active) (failBeforeCutover op)
    writeJournal { op with phase := .success }
  else do
    let op := { op with phase := .downloaded }
    writeJournal op
    orElse (installLauncher op) (failBeforeCutover op)
    -- The configuration again, other writers, the space, and a signal
    orElse (inspect op) (failBeforeCutover op)
    let op := { op with phase := .stopping }
    writeJournal op
    cutover site restoreOnFailedStart op plan.target.dataDir

inductive Invocation where
  | update (plan : Plan) (restoreOnFailedStart : Bool)
  | rollback (restoreData : Bool)
  | resume

def Invocation.task (site : Site) : Invocation → HostTask Data Unit
  | .update plan restoreOnFailedStart => execute site plan restoreOnFailedStart
  | .rollback restoreData => Dockge.Updater.rollback site restoreData
  | .resume => resumeOperation site

/-- One run: what was asked of the updater, and what came of each thing it asked for. -/
structure UpdaterRun where
  invocation : Invocation
  fates : List Fate

def runUpdater (site : Site) (host : Host Data) (run : UpdaterRun) : Host Data :=
  (run.invocation.task site run.fates host).state

end Dockge.Updater
