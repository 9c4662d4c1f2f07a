import Mathlib.Data.List.Basic

namespace Dockge.Updater

/-! The operation journal of the host updater, and what a recorded operation must satisfy. -/

/-- An absolute, clean path, by its components. -/
abbrev Path := List String

def within (parent child : Path) : Bool := parent.isPrefixOf child

def isDigit (c : Char) : Bool := '0' ≤ c && c ≤ '9'

def isAlphanumeric (c : Char) : Bool :=
  isDigit c || ('A' ≤ c && c ≤ 'Z') || ('a' ≤ c && c ≤ 'z')

def isHexDigit (c : Char) : Bool := isDigit c || ('a' ≤ c && c ≤ 'f')

/-- `(0|[1-9][0-9]*)` -/
def isNumber : List Char → Bool
  | [] => false
  | ['0'] => true
  | first :: rest => first ≠ '0' && isDigit first && rest.all isDigit

/-- `^(0|[1-9][0-9]*)\.(0|[1-9][0-9]*)\.(0|[1-9][0-9]*)(?:-([0-9A-Za-z]+(?:[.-][0-9A-Za-z]+)*))?$` -/
def versionPattern (version : String) : Bool :=
  let core := version.toList.takeWhile (· ≠ '-')
  let numbers := core.splitOnP (· = '.')
  numbers.length = 3 && numbers.all isNumber &&
    match version.toList.dropWhile (· ≠ '-') with
    | [] => true
    | _ :: prerelease =>
        (prerelease.splitOnP (fun c => c = '.' || c = '-')).all fun part =>
          part ≠ [] && part.all isAlphanumeric

/-- `^[a-f0-9]{64}$` -/
def hashPattern (hash : String) : Bool :=
  hash.toList.length = 64 && hash.toList.all isHexDigit

/-- `^sha256:[a-f0-9]{64}$` -/
def digestPattern (digest : String) : Bool :=
  digest.toList.take 7 = "sha256:".toList &&
    (digest.toList.drop 7).length = 64 && (digest.toList.drop 7).all isHexDigit

inductive Mode where
  | release
  | development
  | legacy
deriving DecidableEq, Repr

/-- One deployment of the panel.  Its Compose file is the one the operation keeps for it. -/
structure Installed where
  version : String
  schema : String
  imageId : String
  project : String
  dataDir : Path
  mode : Mode
deriving DecidableEq, Repr

inductive Phase where
  | prepared
  | downloaded
  | stopping
  | backingUp
  | startingTarget
  | checkingTarget
  | success
  | failedBeforeCutover
  | rollingBack
  | recovered
  | recoveryRequired
deriving DecidableEq, Repr

def Phase.text : Phase → String
  | .prepared => "prepared"
  | .downloaded => "downloaded"
  | .stopping => "stopping"
  | .backingUp => "backing-up"
  | .startingTarget => "starting-target"
  | .checkingTarget => "checking-target"
  | .success => "success"
  | .failedBeforeCutover => "failed-before-cutover"
  | .rollingBack => "rolling-back"
  | .recovered => "recovered"
  | .recoveryRequired => "recovery-required"

/-- The phases a new update may start from. -/
def Phase.admitsUpdate : Phase → Bool
  | .success | .recovered | .failedBeforeCutover => true
  | _ => false

def mayHaveStarted : Phase → Bool
  | .prepared | .downloaded | .stopping | .backingUp | .failedBeforeCutover => false
  | _ => true

/-- Which deployment of an operation a command is about. -/
inductive Side where
  | previous
  | target
deriving DecidableEq, Repr

/-- What the updater asks of Docker and of the file system. -/
inductive Command where
  /-- A check that changes nothing. -/
  | inspect
  /-- The directory of a new operation. -/
  | reserve
  /-- `operation.json` -/
  | journal (phase : Phase)
  /-- `previous.json` -/
  | keepPrevious
  /-- `active.json` -/
  | activate
  | launcher
  | tag
  | pull
  | stop (side : Side)
  | up (side : Side)
  | verifyRuntime (side : Side)
  | removeBackup
  | copyBackup
  | recordSnapshot
  | clearStaged
  | copyStaged
  /-- The rename of the data directory to the failed one. -/
  | setAside
  /-- The rename of the staged copy to the data directory. -/
  | place
  | syncDir
  /-- The answer of the restore container. -/
  | restore
  | removeContainer
deriving DecidableEq, Repr

inductive UpdateError where
  | refused (text : String)
  | command (failed : Command)
  | wrapped (format : String) (causes : List UpdateError)
  /-- The restore container may still be running. -/
  | restoreRunning (causes : List UpdateError)

def UpdateError.isRestoreRunning : UpdateError → Bool
  | .restoreRunning _ => true
  | _ => false

/-- The record of `operation.json`.  The id is the moment the operation was recorded, and
`backup` says that the directory of the data copy is set. -/
structure Operation where
  id : Nat
  phase : Phase
  previous : Option Installed
  target : Installed
  backup : Bool := false
  backupVerified : Bool := false
  restoreData : Bool := false
  error : Option UpdateError := none

def validInstalled (v : Installed) : Bool :=
  digestPattern v.imageId && versionPattern v.version && hashPattern v.schema && v.dataDir ≠ []

/-- Why these two cannot be the deployments of one operation, if they cannot. -/
def validateDeployments (previous target : Installed) : Option String :=
  if !(validInstalled previous && validInstalled target) then some "invalid recovery record"
  else if target.project ≠ previous.project || target.dataDir ≠ previous.dataDir then
    some "recovery identity mismatch"
  else none

/-- Why a recorded operation cannot be rolled back, if it cannot. -/
def validateOperation (op : Operation) : Option String :=
  match op.previous with
  | none => some "there is no recorded previous deployment"
  | some previous => validateDeployments previous op.target

/-- The installation directory. -/
structure Site where
  dir : Path

def Site.state (site : Site) : Path := site.dir ++ [".dockge2"]

/-- No component changes the meaning of a mount specification. -/
def mountable (path : Path) : Bool :=
  path.all fun component => component.toList.all fun c => !",\"\r\n".toList.contains c

/-- Why the data directory cannot be restored in a container, if it cannot.  The snapshot is
the one of an operation of this installation. -/
def validateRestore (site : Site) (data : Path) : Option String :=
  if !(mountable data && mountable site.dir) then some "restore paths must be clean absolute paths"
  else if data.length ≤ 1 then
    some "a data directory directly under / cannot be restored in a container; restore it manually from the snapshot"
  else if within data site.state || within site.state data then
    some "data and updater state must be disjoint"
  else none

/-- The schemas differ, so that the target migrates the data it is started on. -/
def Operation.schemaChanged (op : Operation) : Bool :=
  op.previous.any fun previous => previous.schema ≠ op.target.schema

end Dockge.Updater
