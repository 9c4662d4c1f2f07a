import Mathlib.Logic.Function.Basic
import Dockge.StackStatus.ComposeStatus

namespace Dockge.StackStatus

open Dockge.Data

/-! The two ways to a status: the list reads every container of the host at once, the page of a stack
asks for those that carry its directory.

A container is what Docker knows of it.  Docker writes its labels in one text, separated by commas,
and filters by the labels themselves.
-/

structure Container where
  labels : List (String × String)
  names : Option String
  state : Option String
  status : Option String
  healthStatus : Option String
  image : Option String
  /-- What `docker ps` writes without `--no-trunc`. -/
  shortImage : Option String

/-- The labels in the text of `docker ps`. -/
def labelText (labels : List (String × String)) : String :=
  ",".intercalate (labels.map fun (key, value) => key ++ "=" ++ value)

def Container.row (container : Container) : DockerPsRaw :=
  { state := container.state
    status := container.status
    healthStatus := container.healthStatus
    labels := some (labelText container.labels)
    names := container.names
    image := container.image }

def Container.shortRow (container : Container) : DockerPsRaw :=
  { container.row with image := container.shortImage }

structure ComposeLsEntry where
  name : String
  configFiles : Option String

/-- `docker compose ls --all`: one entry for each project label there is. -/
def composeLs (configFiles : String → Option String) (host : List Container) : List ComposeLsEntry :=
  ((host.filterMap fun container => container.labels.lookup composeProjectLabel).eraseDups).map fun name =>
    { name, configFiles := configFiles name }

abbrev Instances := String → Option (List ComposePsEntry)

/-- `instances.set(key, [ ...list, entry ])` unless the key is empty. -/
def Instances.push (instances : Instances) (key : String) (entry : ComposePsEntry) : Instances :=
  if key = "" then instances else Function.update instances key (some ((instances key).getD [] ++ [entry]))

/-- One line of the host: by project and by directory, and not at all without a project. -/
def Instances.read (instances : Instances) (raw : DockerPsRaw) : Instances :=
  let entry := fromDockerPs raw
  if entry.project = "" then instances
  else (instances.push entry.project entry).push entry.workingDir entry

def readHostContainers (host : List Container) : Instances :=
  (host.map Container.row).foldl Instances.read fun _ => none

structure Stack where
  path : String
  isManagedByDockge : Bool
  composeYAML : String
  status : Status
  issues : List StackStatusIssue
  configFilePath : Option String
  services : List ServiceSummary

abbrev StackList := String → Option Stack

section
variable (parseYaml : String → Option Json)

def resolveProjectStatus (composeName : String) (instanceMap : Option Instances) (stack : Stack) : DetailedStatus :=
  match instanceMap with
  | none => { result := { status := .unknown, issues := [] }, instances := [] }
  | some instances =>
      let entries := (((if stack.isManagedByDockge then instances stack.path else none).or
        (instances composeName)).getD [])
      let parsed := parseYaml (if stack.isManagedByDockge then stack.composeYAML else "")
      resolveComposePsStatus entries (readComposeServices parsed) (readOneShotServices parsed)

/-- What one project of `docker compose ls` makes of its stack. -/
def Stack.observed (stack : Stack) (entry : ComposeLsEntry) (instanceMap : Option Instances) : Stack :=
  let detailed := resolveProjectStatus parseYaml entry.name instanceMap stack
  let parsed := parseYaml (if stack.isManagedByDockge then stack.composeYAML else "")
  { stack with
    status := detailed.result.status
    issues := detailed.result.issues
    configFilePath := entry.configFiles
    services := summariseServices detailed.instances (readComposeServices parsed) (readOneShotServices parsed) }

/-- A project that no stack of the list is named after; the panel itself stays hidden. -/
def listed (newStack : String → Stack) (ownProject : String) (stackList : StackList) (name : String) :
    Option Stack :=
  match stackList name with
  | some stack => some stack
  | none => if name = ownProject ∨ name = "dockge" then none else some (newStack name)

/-- The loop over the projects, with the names it has seen. -/
def applyProject (newStack : String → Stack) (ownProject : String) (instanceMap : Option Instances)
    (round : StackList × List String) (entry : ComposeLsEntry) : StackList × List String :=
  match listed newStack ownProject round.1 entry.name with
  | none => round
  | some stack =>
      (Function.update round.1 entry.name (some (stack.observed parseYaml entry instanceMap)), entry.name :: round.2)

/-- A stack that is missing from the answer is back to what its files alone say. -/
def Stack.unseen (stack : Stack) : Stack :=
  if stack.status ≠ .createdFile then { stack with status := .createdFile, issues := [], services := [] } else stack

def applyComposeProjects (newStack : String → Stack) (stackList : StackList) (composeList : List ComposeLsEntry)
    (instanceMap : Option Instances) (ownProject : String) : StackList :=
  let round := composeList.foldl (applyProject parseYaml newStack ownProject instanceMap) (stackList, [])
  fun name => (round.1 name).map fun stack => if name ∈ round.2 then stack else stack.unseen

/-- `docker ps --all --filter label=…=path` -/
def filterByWorkingDir (path : String) (host : List Container) : List Container :=
  host.filter fun container => container.labels.lookup composeWorkingDirLabel = some path

def getInstances (stack : Stack) (host : List Container) : List ContainerInstanceStatus :=
  let entries := (filterByWorkingDir stack.path host).map fun container => fromDockerPs container.shortRow
  entries.map (normaliseInstance (readOneShotServices (parseYaml stack.composeYAML)))

/-- The status the page of a stack shows. -/
def getDetailedStatus (stack : Stack) (host : List Container) : DetailedStatus :=
  let instances := getInstances parseYaml stack host
  { result := resolveStackStatus instances (readComposeServices (parseYaml stack.composeYAML)), instances }

end

end Dockge.StackStatus
