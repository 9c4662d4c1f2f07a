import Dockge.Data.Json
import Dockge.Data.Text

namespace Dockge.StackStatus

open Dockge.Data

/-! What the containers of a stack say about it. -/

inductive Status where
  | unknown
  | createdFile
  | createdStack
  | running
  | exited
  | attention
deriving DecidableEq, Repr

inductive Reason where
  | unhealthy
  | restarting
  | paused
  | dead
  | removing
  | unknownState
  | missingInstance
  | notStarted
  | unknownExitCode
  | workerFailed
  | serviceFailed
  | serviceStopped
deriving DecidableEq, Repr

def composeProjectLabel : String := "com.docker.compose.project"

def composeServiceLabel : String := "com.docker.compose.service"

def composeWorkingDirLabel : String := "com.docker.compose.project.working_dir"

def oneShotExtension : String := "x-dockge"

def oneShotValue : String := "one-shot"

def oneShotLabel : String := "dockge.lifecycle"

def attentionReasons : List Reason :=
  [.unhealthy, .restarting, .paused, .dead, .removing, .unknownState, .missingInstance, .notStarted]

/-- A line of `docker ps`; older versions leave fields out. -/
structure DockerPsRaw where
  state : Option String
  status : Option String
  healthStatus : Option String
  labels : Option String
  names : Option String
  image : Option String

structure ComposePsEntry where
  project : String
  workingDir : String
  service : String
  name : String
  labels : String
  state : Option String
  status : Option String
  health : Option String
  image : Option String
deriving DecidableEq

structure ContainerInstanceStatus where
  service : String
  name : String
  state : String
  health : String
  exitCode : Option Int
  statusText : String
  image : Option String
  isOneShot : Bool
  issue : Option Reason
deriving DecidableEq

structure StackStatusIssue where
  service : String
  name : String
  reason : Reason
  detail : Option String
deriving DecidableEq, Repr

structure StackStatusResult where
  status : Status
  issues : List StackStatusIssue
deriving DecidableEq, Repr

/-! ### One container -/

/-- One `key=value` of the list; without a key there is no label. -/
def parseLabel (pair : List Char) : Option (String × String) :=
  let key := pair.takeWhile (· ≠ '=')
  if key.isEmpty || key.length = pair.length then none
  else some (String.ofList (trimChars key), String.ofList (trimChars (pair.drop (key.length + 1))))

/-- The labels in the order they are written; of one key the last counts. -/
def parseDockerLabels (labels : Option String) : List (String × String) :=
  ((splitChars ',' (labels.getD "").toList).filterMap parseLabel).reverse

def normaliseHealth (health : Option String) : String :=
  let value := String.ofList (lowerChars (trimChars (health.getD "").toList))
  if value = "none" then "" else value

def digitsValue (digits : List Char) : Nat :=
  digits.foldl (fun value digit => value * 10 + (digit.toNat - '0'.toNat)) 0

/-- `^exited\s+\((-?\d+)\)` in either case. -/
def exitedHere (chars : List Char) : Option Int :=
  if lowerChars (chars.take 6) ≠ "exited".toList then none
  else
    let rest := chars.drop 6
    match rest.takeWhile isSpace, rest.dropWhile isSpace with
    | _ :: _, '(' :: after =>
        let negative := after.head? = some '-'
        let body := if negative then after.drop 1 else after
        let digits := body.takeWhile Char.isDigit
        if digits.isEmpty || (body.drop digits.length).head? ≠ some ')' then none
        else some (if negative then -digitsValue digits else digitsValue digits)
    | _, _ => none

/-- The first exit code in a status text. -/
def exitedIn : List Char → Option Int
  | [] => none
  | char :: rest => (exitedHere (char :: rest)).or (exitedIn rest)

/-- `docker ps` tells the exit code in its status text only. -/
def readExitCode (entry : ComposePsEntry) : Option Int := exitedIn (entry.status.getD "").toList

def fromDockerPs (raw : DockerPsRaw) : ComposePsEntry :=
  let labels := parseDockerLabels raw.labels
  let health := normaliseHealth raw.healthStatus
  { project := (labels.lookup composeProjectLabel).getD ""
    workingDir := (labels.lookup composeWorkingDirLabel).getD ""
    service := (labels.lookup composeServiceLabel).getD ""
    name := raw.names.getD ""
    labels := raw.labels.getD ""
    state := raw.state
    status := raw.status
    health := if health = "" then none else some health
    image := raw.image.filter (· ≠ "") }

def resolveInstanceIssue (state health : String) (exitCode : Option Int) (isOneShot : Bool) : Option Reason :=
  if state = "running" then if health = "unhealthy" then some .unhealthy else none
  else if state = "restarting" then some .restarting
  else if state = "paused" then some .paused
  else if state = "dead" then some .dead
  else if state = "removing" then some .removing
  else if state = "exited" then
    match exitCode with
    | none => some .unknownExitCode
    | some 0 => if isOneShot then none else some .serviceStopped
    | some _ => if isOneShot then some .workerFailed else some .serviceFailed
  else if state = "created" then some .notStarted
  else some .unknownState

def normaliseInstance (oneShotServices : List String) (entry : ComposePsEntry) : ContainerInstanceStatus :=
  let labels := parseDockerLabels (some entry.labels)
  let state := String.ofList (lowerChars (trimChars (entry.state.getD "").toList))
  let health := normaliseHealth entry.health
  let exitCode := readExitCode entry
  let isOneShot := labels.lookup oneShotLabel = some oneShotValue || entry.service ∈ oneShotServices
  { service := entry.service
    name := entry.name
    state, health, exitCode
    statusText := entry.status.getD ""
    image := entry.image
    isOneShot
    issue := resolveInstanceIssue state health exitCode isOneShot }

/-! ### What the compose file declares -/

/-- `Object.entries(value)` of an object or a list, nothing for anything else. -/
def objectEntries : Json → Option Fields
  | .obj fields => some fields
  | .arr items => some (items.mapIdx fun index item => (toString index, item))
  | _ => none

/-- The fields of an object; a list has none of those that are asked for. -/
def objectFields : Json → Option Fields
  | .obj fields => some fields
  | .arr _ => some []
  | _ => none

def textAt (fields : Fields) (key : String) : Option String :=
  match fields.get key with
  | some (.str text) => some text
  | _ => none

def markedOneShot (service : Fields) : Bool :=
  let extension := ((service.get oneShotExtension).bind objectFields).bind (textAt · "lifecycle")
  extension = some oneShotValue || textAt service (oneShotExtension ++ ".lifecycle") = some oneShotValue ||
    match service.get "labels" with
    | some (.obj labels) => textAt labels oneShotLabel = some oneShotValue
    | some (.arr labels) => labels.any fun label =>
        match label with
        | .str text => text = oneShotLabel ++ "=" ++ oneShotValue
        | _ => false
    | _ => false

/-- What every object has without being given it, which `in` finds as well. -/
def inheritedKeys : List String :=
  ["constructor", "__defineGetter__", "__defineSetter__", "hasOwnProperty", "__lookupGetter__",
    "__lookupSetter__", "isPrototypeOf", "propertyIsEnumerable", "toString", "valueOf", "__proto__",
    "toLocaleString"]

def waitedForCompletion (services : Fields) : List String :=
  services.flatMap fun (_, service) =>
    match (objectFields service).bind (·.get "depends_on") with
    | some (.obj dependsOn) => dependsOn.filterMap fun (name, condition) =>
        if ((objectFields condition).bind (textAt · "condition")) = some "service_completed_successfully" &&
            (name ∈ services.keys || name ∈ inheritedKeys) then some name
        else none
    | _ => []

/-- The services of a parsed file. -/
def servicesOf (parsed : Option Json) : Option Fields :=
  ((parsed.bind objectFields).bind (·.get "services")).bind objectEntries

def readOneShotServices (parsed : Option Json) : List String :=
  match servicesOf parsed with
  | none => []
  | some services =>
      (services.filterMap fun (name, service) =>
        if (objectFields service).any markedOneShot then some name else none) ++ waitedForCompletion services

def readComposeServices (parsed : Option Json) : List String :=
  ((servicesOf parsed).map Fields.keys).getD []

/-! ### The stack -/

def missingInstances (instances : List ContainerInstanceStatus) (expectedServices : List String) :
    List StackStatusIssue :=
  if !instances.any (·.state = "running") then []
  else (expectedServices.filter fun service => !instances.any (·.service = service)).map fun service =>
    { service, name := "", reason := .missingInstance, detail := none }

structure StackSummary where
  hasRunningLongLived : Bool
  hasRunningOneShot : Bool
  allCreated : Bool
  issues : List StackStatusIssue

def issueOf (instanceStatus : ContainerInstanceStatus) : Option StackStatusIssue :=
  instanceStatus.issue.map fun reason =>
    { service := instanceStatus.service
      name := instanceStatus.name
      reason
      detail :=
        if reason = .workerFailed ∨ reason = .serviceFailed then instanceStatus.exitCode.map toString else none }

def StackSummary.add (summary : StackSummary) (instanceStatus : ContainerInstanceStatus) : StackSummary :=
  let up := instanceStatus.state = "running" && instanceStatus.health ≠ "unhealthy"
  { hasRunningLongLived := summary.hasRunningLongLived || (up && !instanceStatus.isOneShot)
    hasRunningOneShot := summary.hasRunningOneShot || (up && instanceStatus.isOneShot)
    allCreated := summary.allCreated && instanceStatus.state = "created"
    issues := summary.issues ++ (issueOf instanceStatus).toList }

def summariseInstances (instances : List ContainerInstanceStatus) : StackSummary :=
  instances.foldl StackSummary.add
    { hasRunningLongLived := false, hasRunningOneShot := false, allCreated := true, issues := [] }

theorem foldl_add (instances : List ContainerInstanceStatus) (summary : StackSummary) :
    instances.foldl StackSummary.add summary =
      { hasRunningLongLived := summary.hasRunningLongLived ||
          instances.any fun status => (status.state = "running" && status.health ≠ "unhealthy") && !status.isOneShot
        hasRunningOneShot := summary.hasRunningOneShot ||
          instances.any fun status => (status.state = "running" && status.health ≠ "unhealthy") && status.isOneShot
        allCreated := summary.allCreated && instances.all (·.state = "created")
        issues := summary.issues ++ instances.filterMap issueOf } := by
  induction instances generalizing summary with
  | nil => simp
  | cons first rest ih =>
      rw [List.foldl_cons, ih]
      cases issue : issueOf first with
      | none => simp [StackSummary.add, issue, Bool.or_assoc, Bool.and_assoc]
      | some => simp [StackSummary.add, issue, Bool.or_assoc, Bool.and_assoc]

theorem summariseInstances_eq (instances : List ContainerInstanceStatus) :
    summariseInstances instances =
      { hasRunningLongLived :=
          instances.any fun status => (status.state = "running" && status.health ≠ "unhealthy") && !status.isOneShot
        hasRunningOneShot :=
          instances.any fun status => (status.state = "running" && status.health ≠ "unhealthy") && status.isOneShot
        allCreated := instances.all (·.state = "created")
        issues := instances.filterMap issueOf } := by
  rw [summariseInstances, foldl_add]
  simp

def resolveStackStatus (instances : List ContainerInstanceStatus) (expectedServices : List String) :
    StackStatusResult :=
  let missing := missingInstances instances expectedServices
  if instances.isEmpty then { status := .unknown, issues := missing }
  else
    let summary := summariseInstances instances
    let issues := missing ++ summary.issues
    if summary.allCreated then { status := .createdStack, issues := issues.filter (·.reason ≠ .notStarted) }
    else if summary.hasRunningLongLived || summary.hasRunningOneShot then
      { status := if issues.isEmpty then .running else .attention, issues }
    else if issues.any (·.reason ∈ attentionReasons) then { status := .attention, issues }
    else { status := .exited, issues }

/-- Running and not unhealthy -/
def ContainerInstanceStatus.isUp (status : ContainerInstanceStatus) : Bool :=
  status.state = "running" && status.health ≠ "unhealthy"

/-- All issues of a stack, before those of a stack that was never started are left out -/
def issuesOf (instances : List ContainerInstanceStatus) (expectedServices : List String) : List StackStatusIssue :=
  missingInstances instances expectedServices ++ instances.filterMap issueOf

theorem resolveStackStatus_eq (instances : List ContainerInstanceStatus) (expectedServices : List String) :
    resolveStackStatus instances expectedServices =
      if instances = [] then { status := .unknown, issues := missingInstances instances expectedServices }
      else if instances.all (·.state = "created") then
        { status := .createdStack, issues := (issuesOf instances expectedServices).filter (·.reason ≠ .notStarted) }
      else if instances.any (·.isUp) then
        { status := if issuesOf instances expectedServices = [] then .running else .attention,
          issues := issuesOf instances expectedServices }
      else if (issuesOf instances expectedServices).any (·.reason ∈ attentionReasons) then
        { status := .attention, issues := issuesOf instances expectedServices }
      else { status := .exited, issues := issuesOf instances expectedServices } := by
  have up : ((instances.any fun status => (status.state = "running" && status.health ≠ "unhealthy") && !status.isOneShot) ||
      instances.any fun status => (status.state = "running" && status.health ≠ "unhealthy") && status.isOneShot) =
        instances.any (·.isUp) := by
    induction instances with
    | nil => rfl
    | cons first rest ih =>
        rw [List.any_cons, List.any_cons, List.any_cons, ← ih, ContainerInstanceStatus.isUp]
        cases first.isOneShot with
        | true => simp [Bool.or_left_comm]
        | false => simp [Bool.or_assoc]
  unfold resolveStackStatus issuesOf
  rw [summariseInstances_eq]
  dsimp only
  rw [up]
  simp only [List.isEmpty_iff]

structure DetailedStatus where
  result : StackStatusResult
  instances : List ContainerInstanceStatus

def resolveComposePsStatus (entries : List ComposePsEntry) (expectedServices oneShotServices : List String) :
    DetailedStatus :=
  let instances := entries.map (normaliseInstance oneShotServices)
  { result := resolveStackStatus instances expectedServices, instances }

/-! ### Its services -/

inductive ServiceState where
  | running
  | attention
  | stopped
  | unknown
deriving DecidableEq, Repr

structure ServiceSummary where
  name : String
  state : ServiceState
  isOneShot : Bool
  image : Option String
deriving DecidableEq, Repr

def serviceState (own : List ContainerInstanceStatus) (stackContainers : Nat) : ServiceState :=
  if own.isEmpty then if stackContainers = 0 then .unknown else .stopped
  else if own.all (·.issue = some .unknownState) then .unknown
  else if own.any (·.issue.isSome) then .attention
  else if own.any fun status => status.state = "running" && status.health ≠ "unhealthy" then .running
  else .stopped

def summariseServices (instances : List ContainerInstanceStatus) (expectedServices oneShotServices : List String) :
    List ServiceSummary :=
  let extra := (instances.map (·.service)).filter fun service => service ≠ "" && service ∉ expectedServices
  (expectedServices ++ extra.eraseDups).map fun name =>
    let own := instances.filter (·.service = name)
    { name
      state := serviceState own instances.length
      isOneShot := name ∈ oneShotServices || own.any (·.isOneShot)
      image := (own.find? (·.image.isSome)).bind (·.image) }

end Dockge.StackStatus
