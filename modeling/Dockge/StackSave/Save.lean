import Dockge.Data.Text
import Dockge.StackSave.Site

namespace Dockge.StackSave

open Dockge.Data Program
open Dockge.StackConfig (StackFileConfig)
open Dockge.StackWrite

/-! Save a stack: its directory, its stored selection, its files and their owner. -/

variable {Hash : Type}

structure Host (Hash : Type) where
  sha256 : Bytes → Hash
  /-- `yaml.parse` takes the text. -/
  parses : String → Bool
  /-- An account is configured that the files are handed to. -/
  owner : Bool

structure Request (Hash : Type) where
  name : String
  composeYAML : String
  composeENV : String
  isAdd : Bool
  baseline : Option (StackFileBaseline Hash)

/-- What happens to the operations of each part of a save. -/
structure Weather where
  /-- The `Stack` is built and its directory looked up or made. -/
  opening : List Fate := []
  /-- The selection of a new stack is stored. -/
  storing : List Fate := []
  /-- The selection is loaded and the env file looked up. -/
  checking : List Fate := []
  /-- The selection is read that an adopted env file is added to. -/
  adopting : List Fate := []
  writing : List Fate := []
  /-- The journal of the write is removed. -/
  cleaning : List Fate := []
  owning : List Fate := []
  /-- The selection of a stack that was not created is forgotten. -/
  forgetting : List Fate := []
  /-- Its directory is removed. -/
  removing : List Fate := []

/-- Only one line, and no `=` in it. -/
def envFormatInvalid (composeENV : String) : Bool :=
  !composeENV.toList.contains '\n' && !composeENV.toList.contains '=' && !composeENV.toList.isEmpty

/-- `composeENV.trim() === ""` -/
def blank (composeENV : String) : Bool := (trimChars composeENV.toList).isEmpty

def Request.valid (host : Host Hash) (request : Request Hash) : Option SaveError :=
  if !validateName request.name then some .stackNameInvalid
  else if !host.parses request.composeYAML then some .yaml
  else if envFormatInvalid request.composeENV then some .envFormatInvalid
  else none

/-- `mkdir`: it fails where the directory is there already. -/
def mkdir : SiteTask Hash Unit :=
  .operation fun fate site =>
    match fate with
    | .ok => if site.directory then (.threw .io, site) else (.done (), { site with directory := true })
    | .fail => (.threw .io, site)
    | .late => (.threw .io, { site with directory := true })
    | .kill => (.killed, site)

/-- `rmdir`: it fails where the directory is not empty. -/
def rmdir : SiteTask Hash Unit :=
  .operation fun fate site =>
    match fate with
    | .ok =>
        if site.entries.any site.present then (.threw .io, site)
        else (.done (), { site with directory := false })
    | .fail | .late => (.threw .io, site)
    | .kill => (.killed, site)

/-- Make sure the directory is the one this save expects. -/
def prepareDirectory (isAdd : Bool) : SiteTask Hash Unit := do
  let there ← fileExists (·.directory)
  if isAdd then do
    refuse (if there then some .stackNameExists else none)
    mkdir
  else refuse (if there then none else some .stackNotFound)

/-- The selection a new stack starts with. -/
def newConfig (built composeENV : String) : StackFileConfig :=
  { composeFileName := built
    envFileNames := if blank composeENV then [] else [".env"]
    activeEnvFileName := if blank composeENV then "" else ".env"
    secretBindings := [] }

/-- The save had another file open than the one the stack uses now. -/
def assertBaselineSelection (baseline : Option (StackFileBaseline Hash)) (loaded : Loaded)
    (shouldWriteEnv : Bool) : Option SaveError :=
  match baseline with
  | none => none
  | some baseline =>
      if baseline.composeFileName.any (· ≠ loaded.composeFileName) then
        some (.selectionConflict (baseline.composeFileName.getD "") loaded.composeFileName)
      else if shouldWriteEnv && baseline.envFileName.any (· ≠ loaded.activeEnvFileName) then
        some (.selectionConflict (baseline.envFileName.getD "") loaded.activeEnvFileName)
      else none

/-- What the save loaded, and whether it writes the env file. -/
def check (request : Request Hash) (built : String) : SiteTask Hash (Loaded × Bool) := do
  let loaded ← loadFileConfig request.name built
  refuse (if isSafeStackFileName loaded.activeEnvFileName then none
    else some (.stackFileNameInvalid loaded.activeEnvFileName))
  let there ← fileExists (·.present loaded.activeEnvFileName)
  let shouldWriteEnv := there || !blank request.composeENV
  refuse (assertBaselineSelection request.baseline loaded shouldWriteEnv)
  pure (loaded, shouldWriteEnv)

/-- The selection change that belongs to this save, when the env file is a new one. -/
def envAdoption (name : String) (loaded : Loaded) (shouldWriteEnv : Bool) :
    SiteTask Hash (Option (StackWriteMetadata StackFileConfig)) :=
  if !shouldWriteEnv || loaded.activeEnvFileName ∈ loaded.config.envFileNames then pure none
  else do
    let all ← onDisk getAll
    pure (some
      { stack := name
        before := all name
        after := { loaded.config with
          envFileNames := loaded.config.envFileNames ++ [loaded.activeEnvFileName]
          activeEnvFileName := loaded.activeEnvFileName } })

/-- Which files this save writes, and what each of them is expected to hold now. -/
def writeTargets (request : Request Hash) (loaded : Loaded) (shouldWriteEnv : Bool) :
    List (StackFileTarget Hash) :=
  { name := loaded.composeFileName
    content := request.composeYAML
    expectedHash := request.baseline.bind (·.compose) } ::
    if shouldWriteEnv then
      [{ name := loaded.activeEnvFileName
         content := request.composeENV
         expectedHash := request.baseline.bind (·.env) }]
    else []

/-- The editor believed it was changing an env file that is no longer there. -/
def envGone (request : Request Hash) (loaded : Loaded) (shouldWriteEnv : Bool) : Option SaveError :=
  if !shouldWriteEnv && (request.baseline.bind (·.env)).any (·.isSome) then
    some (.write (.conflict loaded.activeEnvFileName))
  else none

/-- `chown` -/
def chown : SiteTask Hash Unit :=
  .operation fun fate site =>
    match fate with
    | .ok => (.done (), site)
    | .fail | .late => (.threw .io, site)
    | .kill => (.killed, site)

/-- Hand the directory and the written files to the configured account. -/
def applyOwnership (owner shouldWriteEnv : Bool) : SiteTask Hash Unit :=
  onlyIf owner do
    chown
    chown
    onlyIf shouldWriteEnv chown

/-- Leave nothing of a stack that was not created. -/
def giveUp (request : Request Hash) (weather : Weather) : SiteTask Hash Unit :=
  onlyIf request.isAdd do
    let _ ← under weather.forgetting (onDisk (quietly (removeSelection request.name)))
    under weather.removing (ignore rmdir)

/-- The `Stack` is built and validated, and its directory made where it is new. -/
def openStack (host : Host Hash) (request : Request Hash) : SiteTask Hash String := do
  let built ← constructed acceptedComposeFileNames
  refuse (request.valid host)
  prepareDirectory request.isAdd
  pure built

section
variable [DecidableEq Hash] (host : Host Hash)

/-- `writeStackFiles` up to the removal of its journal. -/
def write (targets : List (StackFileTarget Hash)) (metadata : Option (StackWriteMetadata StackFileConfig))
    (parts : List Part) : SiteTask Hash (StackWriteResult Hash × Option Nat) := do
  modify fun site => { site with entries := targets.map (·.name) ++ site.entries }
  onDisk do
    forEach targets validateTarget
    refuseIf (if (targets.map (·.name)).Nodup then none else some .duplicate)
    writeLocked host.sha256 targets { metadata, parts }

/-- What the save answers. -/
def savedBaseline (result : StackWriteResult Hash) (loaded : Loaded) (shouldWriteEnv : Bool) :
    StackFileBaseline Hash :=
  let hash (fileName : String) : Option Hash := (result.hashes.find? (·.1 = fileName)).map (·.2)
  { compose := some (hash loaded.composeFileName)
    env := some (if shouldWriteEnv then hash loaded.activeEnvFileName else none)
    composeFileName := some loaded.composeFileName
    envFileName := some loaded.activeEnvFileName }

/-- The files of a save.  `others` is what somebody else does to them between its checks and its write,
`parts` the order in which the journal is emptied. -/
def writeLoaded (request : Request Hash) (weather : Weather) (others : List (String × Option File))
    (parts : List Part) (built : String) : SiteTask Hash (StackFileBaseline Hash) := do
  let (loaded, shouldWriteEnv) ← under weather.checking (check request built)
  let adoption ← under weather.adopting (envAdoption request.name loaded shouldWriteEnv)
  refuse (envGone request loaded shouldWriteEnv)
  modify fun site => others.foldl Site.edit site
  let (result, journal) ← under weather.writing
    (write host (writeTargets request loaded shouldWriteEnv) adoption parts)
  under weather.cleaning (onDisk (removeOpened parts journal))
  under weather.owning (applyOwnership host.owner shouldWriteEnv)
  pure (savedBaseline result loaded shouldWriteEnv)

/-- A new stack starts with the compose file it was created with. -/
def storeNew (request : Request Hash) (weather : Weather) (built : String) : SiteTask Hash Unit :=
  onlyIf request.isAdd do
    let _ ← under weather.storing
      (onDisk (quietly (setSelection request.name (newConfig built request.composeENV))))

/-- The body of a save. -/
def writeSaved (request : Request Hash) (weather : Weather) (others : List (String × Option File))
    (parts : List Part) (built : String) : SiteTask Hash (StackFileBaseline Hash) := do
  storeNew request weather built
  writeLoaded host request weather others parts built

/-- `new Stack(…).save(isAdd, baseline)` -/
def save (request : Request Hash) (weather : Weather) (others : List (String × Option File))
    (parts : List Part) : SiteTask Hash (StackFileBaseline Hash) := do
  let built ← under weather.opening (openStack host request)
  orElse (writeSaved host request weather others parts built) fun error => do
    giveUp request weather
    fail error

end

end Dockge.StackSave
