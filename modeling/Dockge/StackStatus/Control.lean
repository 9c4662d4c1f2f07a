import Dockge.StackStatus.Agreement

namespace Dockge.StackStatus

open Dockge.Data

/-! Lifecycle commands of a stack, selected the same way for the interface and for other clients. -/

/-- One `docker compose` call. -/
structure ComposeCall where
  composeFileName : String
  envFileNames : List String
  globalEnvFile : String
  projectName : Option String := none

/-- The arguments that select the project. -/
def ComposeCall.selection (call : ComposeCall) : List String :=
  let projectName := call.projectName.filter (· ≠ "")
  ["compose"] ++ (projectName.map fun name => ["--project-name", name]).getD [] ++
    -- The global env file stays the outermost source, stack files override it
    (if call.globalEnvFile ≠ "" then ["--env-file", call.globalEnvFile] else []) ++
    call.envFileNames.flatMap (fun fileName => ["--env-file", "./" ++ fileName]) ++
    if call.composeFileName ≠ "" then ["-f", call.composeFileName] else []

def composeArgs (call : ComposeCall) (command : String) (extraOptions : List String) : List String :=
  call.selection ++ command :: extraOptions

/-- Whether a service of a parsed file is built here. -/
def declaresBuild (service : Json) : Bool :=
  match (objectFields service).bind (·.get "build") with
  | some (.str build) => !(trimChars build.toList).isEmpty
  | some (.obj _) | some (.arr _) => true
  | _ => false

def hasBuildServices (parsed : Option Json) : Bool :=
  match servicesOf parsed with
  | some services => services.any fun (_, service) => declaresBuild service
  | none => false

inductive ControlAction where
  | start
  | stop
  | restart
  | deploy
  | update
deriving DecidableEq, Repr

inductive ControlError where
  | stackIsPanel
  | invalid (message : String)
  | operation (phase message : String)
  /-- The command could not be started. -/
  | rejected
deriving DecidableEq, Repr

/-- A stack with what selects its project. -/
structure ControlledStack where
  name : String
  row : Stack
  composeFileName : String
  envFileNames : List String
  hasGlobalEnv : Bool

/-- Docker and the host while a stack is controlled. -/
structure Docker where
  /-- The stack is the one the panel itself runs in. -/
  isPanel : Bool
  /-- Why the compose file is not valid, if it is not. -/
  validation : Option ControlError
  /-- The exit code of a command, where it runs at all. -/
  execute : List String → Option Int
  /-- Every container of the host when the list of statuses is read. -/
  host : List Container
  configFiles : String → Option String
  listsProjects : Bool
  listsContainers : Bool

section
variable (parseYaml : String → Option Json)

/-- A project read without the stack it may belong to. -/
def unmanaged : Stack where
  path := ""
  isManagedByDockge := false
  composeYAML := ""
  status := .unknown
  issues := []
  configFilePath := none
  services := []

/-- The status of every compose project of the host. -/
def readStatusList (docker : Docker) : String → Option Status :=
  if docker.listsProjects then
    let instanceMap := if docker.listsContainers then some (readHostContainers docker.host) else none
    (composeLs docker.configFiles docker.host).foldl
      (fun statusList composeStack => Function.update statusList composeStack.name
        (some (resolveProjectStatus parseYaml composeStack.name instanceMap unmanaged).result.status))
      fun _ => none
  else fun _ => none

def updateStatus (docker : Docker) (name : String) : Status := (readStatusList parseYaml docker name).getD .unknown

/-- A command that runs is written down, whatever becomes of it. -/
abbrev Control := ExceptT ControlError (StateM (List (List String)))

def executeCommand (docker : Docker) (args : List String) : Control Int := do
  modify (· ++ [args])
  match docker.execute args with
  | some exitCode => pure exitCode
  | none => throw .rejected

def failUnless (condition : Bool) (error : ControlError) : Control Unit := if condition then pure () else throw error

def ControlledStack.call (stack : ControlledStack) : ComposeCall where
  composeFileName := stack.composeFileName
  envFileNames := stack.envFileNames
  globalEnvFile := if stack.hasGlobalEnv then "../global.env" else ""

def ControlledStack.getComposeOptions (stack : ControlledStack) (command : String) (extraOptions : List String) :
    List String := composeArgs stack.call command extraOptions

/-- What the action ends with. -/
def applyControl (docker : Docker) (stack : ControlledStack) (action : ControlAction) (builds : Bool) : Control Int := do
  let upOptions :=
    if builds && action ≠ .update then stack.getComposeOptions "up" ["-d", "--build", "--remove-orphans"]
    else stack.getComposeOptions "up" ["-d", "--remove-orphans"]
  let options :=
    match action with
    | .restart => stack.getComposeOptions "up" ["-d", "--force-recreate"]
    | .start | .deploy | .update => upOptions
    | .stop => stack.getComposeOptions "stop" []
  let exitCode ← executeCommand docker options
  failUnless (exitCode = 0) (.operation "apply" "operationApplyFailed")
  pure exitCode

/-- `pull` skips the images that are built here, and only `build --pull` renews what they are built from. -/
def buildImages (docker : Docker) (stack : ControlledStack) (builds : Bool) : Control Unit :=
  if builds then do
    let buildCode ← executeCommand docker (stack.getComposeOptions "build" ["--pull"])
    failUnless (buildCode = 0) (.operation "build" "operationBuildFailed")
  else pure ()

/-- Fetch and build the images of an update. -/
def fetchImages (docker : Docker) (stack : ControlledStack) (builds : Bool) : Control Int := do
  let pullCode ← executeCommand docker
    (stack.getComposeOptions "pull" (if builds then ["--ignore-buildable"] else []))
  failUnless (pullCode = 0) (.operation "pull" "operationPullFailed")
  buildImages docker stack builds
  pure pullCode

/-- What is checked before any command; a stack that stops is not. -/
def admitControl (docker : Docker) (action : ControlAction) : Control Unit :=
  if action = .stop then pure ()
  else do
    failUnless (!docker.isPanel) .stackIsPanel
    match docker.validation with
    | some error => throw error
    | none => pure ()

def control (docker : Docker) (stack : ControlledStack) (action : ControlAction) : Control Int := do
  admitControl docker action
  let builds := hasBuildServices (parseYaml stack.row.composeYAML)
  if action = .update then
    let pullCode ← fetchImages docker stack builds
    let status := updateStatus parseYaml docker stack.name
    if status ≠ .running ∧ status ≠ .attention then pure pullCode
    else applyControl docker stack action builds
  else applyControl docker stack action builds

end

/-! ## When the containers of a stack are up -/

def Status.IsUp (status : Status) : Prop := status = .running ∨ status = .attention

instance (status : Status) : Decidable status.IsUp := inferInstanceAs (Decidable (_ ∨ _))

/-- One of them has not exited, and one is more than created. -/
def Begun (states : List String) : Prop := (∃ state ∈ states, state ≠ "exited") ∧ ∃ state ∈ states, state ≠ "created"

instance (states : List String) : Decidable (Begun states) := inferInstanceAs (Decidable (_ ∧ _))

theorem resolveInstanceIssue_exited {health : String} {exitCode : Option Int} {isOneShot : Bool} {reason : Reason}
    (issue : resolveInstanceIssue "exited" health exitCode isOneShot = some reason) : reason ∉ attentionReasons := by
  unfold resolveInstanceIssue at issue
  simp only [String.reduceEq, if_false, if_true] at issue
  split at issue
  · cases issue
    decide
  · split at issue
    · cases issue
    · cases issue
      decide
  · split at issue
    · cases issue
      decide
    · cases issue
      decide

theorem resolveInstanceIssue_stays {state health : String} {exitCode : Option Int} {isOneShot : Bool}
    (stays : state ≠ "exited") (down : state = "running" → health = "unhealthy") :
    ∃ reason ∈ attentionReasons, resolveInstanceIssue state health exitCode isOneShot = some reason := by
  unfold resolveInstanceIssue
  by_cases running : state = "running"
  · exact ⟨.unhealthy, by decide, by simp [running, down running]⟩
  · simp only [running, stays, if_false]
    repeat' split
    all_goals exact ⟨_, by decide, rfl⟩

section
variable {instances : List ContainerInstanceStatus}

/-- Whatever services the file declares, and however each container ends, the stack is up exactly when
its containers have begun. -/
theorem resolveStackStatus_isUp (expectedServices : List String)
    (judged : ∀ each ∈ instances,
      each.issue = resolveInstanceIssue each.state each.health each.exitCode each.isOneShot) :
    (resolveStackStatus instances expectedServices).status.IsUp ↔ Begun (instances.map (·.state)) := by
  have running : ∀ each ∈ instances, each.isUp = true → each.state = "running" := by
    intro each _ runs
    simp only [ContainerInstanceStatus.isUp, Bool.and_eq_true, decide_eq_true_eq] at runs
    exact runs.1
  rw [resolveStackStatus_eq]
  constructor
  · intro isUp
    split at isUp
    · cases isUp <;> contradiction
    · split at isUp
      · cases isUp <;> contradiction
      · rename_i more
        have begun : ∃ state ∈ instances.map (·.state), state ≠ "created" := by
          simpa using more
        split at isUp
        · rename_i some
          obtain ⟨each, member, runs⟩ := List.any_eq_true.mp some
          refine ⟨⟨each.state, List.mem_map_of_mem member, ?_⟩, begun⟩
          rw [running each member runs]
          decide
        · split at isUp
          · rename_i needs
            refine ⟨?_, begun⟩
            obtain ⟨issue, member, attention⟩ := List.any_eq_true.mp needs
            rcases List.mem_append.mp member with absent | found
            · unfold missingInstances at absent
              split at absent
              · cases absent
              · rename_i some
                have runs : instances.any (·.state = "running") = true := by simpa using some
                obtain ⟨each, eachMember, state⟩ := List.any_eq_true.mp runs
                refine ⟨each.state, List.mem_map_of_mem eachMember, ?_⟩
                rw [of_decide_eq_true state]
                decide
            · obtain ⟨each, eachMember, shown⟩ := List.mem_filterMap.mp found
              unfold issueOf at shown
              obtain ⟨reason, given, rfl⟩ := Option.map_eq_some_iff.mp shown
              refine ⟨each.state, List.mem_map_of_mem eachMember, ?_⟩
              intro exited
              rw [judged each eachMember, exited] at given
              exact resolveInstanceIssue_exited given (of_decide_eq_true attention)
          · cases isUp <;> contradiction
  · intro begun
    obtain ⟨⟨first, firstMember, stays⟩, ⟨second, secondMember, more⟩⟩ := begun
    obtain ⟨each, eachMember, rfl⟩ := List.mem_map.mp firstMember
    have nonempty : instances ≠ [] := List.ne_nil_of_mem eachMember
    have notCreated : instances.all (·.state = "created") = false := by
      obtain ⟨other, otherMember, rfl⟩ := List.mem_map.mp secondMember
      rw [List.all_eq_false]
      exact ⟨other, otherMember, by simpa using more⟩
    simp only [nonempty, notCreated, Bool.false_eq_true, if_false]
    cases runs : instances.any (·.isUp) with
    | true =>
        simp only [if_true]
        split
        · exact .inl rfl
        · exact .inr rfl
    | false =>
        have down : each.state = "running" → each.health = "unhealthy" := by
          intro state
          have idle : each.isUp ≠ true := List.any_eq_false.mp runs each eachMember
          by_contra health
          exact idle (by simp [ContainerInstanceStatus.isUp, state, health])
        obtain ⟨reason, attention, given⟩ := @resolveInstanceIssue_stays _ _ each.exitCode each.isOneShot stays down
        obtain ⟨issue, shown, same⟩ : ∃ issue, issueOf each = some issue ∧ issue.reason = reason := by
          unfold issueOf
          rw [judged each eachMember, given]
          exact ⟨_, rfl, rfl⟩
        have needs : (issuesOf instances expectedServices).any (·.reason ∈ attentionReasons) = true := by
          rw [issuesOf, List.any_append, Bool.or_eq_true]
          right
          rw [List.any_eq_true]
          exact ⟨issue, List.mem_filterMap.mpr ⟨each, eachMember, shown⟩, decide_eq_true (same ▸ attention)⟩
        simp only [needs, Bool.false_eq_true, if_false, if_true]
        exact .inr rfl

end

/-- What Docker calls the state of a container, as the panel reads it. -/
def Container.readState (container : Container) : String :=
  String.ofList (lowerChars (trimChars (container.state.getD "").toList))

/-- The containers that Docker lists under this project name have begun. -/
def BegunByName (name : String) (host : List Container) : Prop :=
  (∃ container ∈ host, container.labels.lookup composeProjectLabel = some name) ∧
    Begun ((host.filter fun container => 0 < timesListed name container.labels).map Container.readState)

/-- The containers that were started from this directory have begun. -/
def BegunByDirectory (path : String) (host : List Container) : Prop :=
  Begun ((filterByWorkingDir path host).map Container.readState)

instance (name : String) (host : List Container) : Decidable (BegunByName name host) :=
  inferInstanceAs (Decidable (_ ∧ _))

instance (path : String) (host : List Container) : Decidable (BegunByDirectory path host) :=
  inferInstanceAs (Decidable (Begun _))

theorem begun_congr {states others : List String} (same : ∀ state, state ∈ states ↔ state ∈ others) :
    Begun states ↔ Begun others := by
  simp only [Begun, same]

section
variable {parseYaml : String → Option Json} {stack : Stack} {host : List Container} {docker : Docker} {name : String}

theorem normaliseInstance_issue (oneShotServices : List String) (entry : ComposePsEntry) :
    (normaliseInstance oneShotServices entry).issue =
      resolveInstanceIssue (normaliseInstance oneShotServices entry).state (normaliseInstance oneShotServices entry).health
        (normaliseInstance oneShotServices entry).exitCode (normaliseInstance oneShotServices entry).isOneShot := by
  simp only [normaliseInstance]

theorem normaliseInstance_state (oneShotServices : List String) (container : Container) :
    (normaliseInstance oneShotServices (fromDockerPs container.row)).state = container.readState := by
  simp only [normaliseInstance, fromDockerPs, Container.row, Container.readState]

theorem normaliseInstance_shortRow_state (oneShotServices : List String) (container : Container) :
    (normaliseInstance oneShotServices (fromDockerPs container.shortRow)).state = container.readState := by
  simp only [normaliseInstance, fromDockerPs, Container.shortRow, Container.row, Container.readState]

theorem getDetailedStatus_isUp :
    (getDetailedStatus parseYaml stack host).result.status.IsUp ↔ BegunByDirectory stack.path host := by
  have states : (getInstances parseYaml stack host).map (·.state) =
      (filterByWorkingDir stack.path host).map Container.readState := by
    unfold getInstances
    simp only [List.map_map]
    apply List.map_congr_left
    intro container _
    exact normaliseInstance_shortRow_state _ container
  unfold getDetailedStatus BegunByDirectory
  dsimp only
  rw [resolveStackStatus_isUp, states]
  intro each member
  unfold getInstances at member
  obtain ⟨entry, _, rfl⟩ := List.mem_map.mp member
  exact normaliseInstance_issue _ entry

theorem resolveProjectStatus_unmanaged_isUp :
    (resolveProjectStatus parseYaml name (some (readHostContainers host)) unmanaged).result.status.IsUp ↔
      Begun ((host.filter fun container => 0 < timesListed name container.labels).map Container.readState) := by
  unfold resolveProjectStatus resolveComposePsStatus
  simp only [unmanaged, Bool.false_eq_true, if_false, Option.none_or, readHostContainers_getD]
  rw [resolveStackStatus_isUp]
  · apply begun_congr
    intro state
    constructor
    · intro member
      obtain ⟨each, eachMember, rfl⟩ := List.mem_map.mp member
      obtain ⟨entry, entryMember, rfl⟩ := List.mem_map.mp eachMember
      obtain ⟨container, held, times⟩ := List.mem_flatMap.mp entryMember
      obtain ⟨some, rfl⟩ := List.mem_replicate.mp times
      rw [normaliseInstance_state]
      exact List.mem_map_of_mem (List.mem_filter.mpr ⟨held, decide_eq_true (Nat.pos_of_ne_zero some)⟩)
    · intro member
      obtain ⟨container, containerMember, rfl⟩ := List.mem_map.mp member
      obtain ⟨held, times⟩ := List.mem_filter.mp containerMember
      rw [← normaliseInstance_state (readOneShotServices (parseYaml ""))]
      refine List.mem_map_of_mem (List.mem_map_of_mem (List.mem_flatMap.mpr ⟨container, held, ?_⟩))
      exact List.mem_replicate.mpr ⟨Nat.ne_of_gt (of_decide_eq_true times), rfl⟩
  · intro each member
    obtain ⟨entry, _, rfl⟩ := List.mem_map.mp member
    exact normaliseInstance_issue _ entry

/-- A fold that sets each name to what depends on the name alone. -/
theorem foldl_update_apply (value : String → Status) (composeList : List ComposeLsEntry)
    (start : String → Option Status) :
    composeList.foldl (fun (statusList : String → Option Status) composeStack => Function.update statusList composeStack.name
        (some (value composeStack.name))) start name =
      if name ∈ composeList.map (·.name) then some (value name) else start name := by
  induction composeList generalizing start with
  | nil => rfl
  | cons entry rest ih =>
      rw [List.foldl_cons, ih]
      by_cases later : name ∈ rest.map (·.name)
      · have member : name ∈ (entry :: rest).map (·.name) := List.mem_cons_of_mem _ later
        rw [if_pos later, if_pos member]
      · rw [if_neg later]
        by_cases same : name = entry.name
        · subst same
          have member : entry.name ∈ (entry :: rest).map (·.name) := List.mem_cons_self
          rw [Function.update_self, if_pos member]
        · have absent : name ∉ (entry :: rest).map (·.name) := by
            rw [List.map_cons, List.mem_cons]
            exact not_or.mpr ⟨same, later⟩
          rw [Function.update_of_ne same, if_neg absent]

/-- What the update of a stack takes for its status. -/
theorem updateStatus_isUp :
    (updateStatus parseYaml docker name).IsUp ↔
      docker.listsProjects = true ∧ docker.listsContainers = true ∧ BegunByName name docker.host := by
  unfold updateStatus readStatusList
  cases lists : docker.listsProjects with
  | false => simp [Status.IsUp]
  | true =>
      rw [if_pos rfl, foldl_update_apply fun project => (resolveProjectStatus parseYaml project
        (if docker.listsContainers then some (readHostContainers docker.host) else none) unmanaged).result.status]
      have listed : name ∈ (composeLs docker.configFiles docker.host).map (·.name) ↔
          ∃ container ∈ docker.host, container.labels.lookup composeProjectLabel = some name := by
        rw [mem_composeLs]
        constructor
        · intro some
          obtain ⟨labels, member, found⟩ := some
          obtain ⟨container, held, rfl⟩ := List.mem_map.mp member
          exact ⟨container, held, found⟩
        · intro some
          obtain ⟨container, held, found⟩ := some
          exact ⟨container.labels, List.mem_map_of_mem held, found⟩
      split
      · rename_i member
        rw [Option.getD_some]
        cases contains : docker.listsContainers with
        | false => simp [resolveProjectStatus, Status.IsUp]
        | true =>
            rw [if_pos rfl, resolveProjectStatus_unmanaged_isUp, BegunByName]
            simp [listed.mp member]
      · rename_i absent
        have unlisted : ¬ BegunByName name docker.host := fun begun => absent (listed.mpr begun.1)
        simp [Status.IsUp, unlisted]

end

/-! ## What an update runs -/

/-- A command that recreates the containers was run. -/
def ControlledStack.RunsUp (stack : ControlledStack) (commands : List (List String)) : Prop :=
  ∃ options, stack.getComposeOptions "up" options ∈ commands

/-- The images that the services build were built, where they build any. -/
def Built (parseYaml : String → Option Json) (docker : Docker) (stack : ControlledStack) : Prop :=
  hasBuildServices (parseYaml stack.row.composeYAML) = true →
    docker.execute (stack.getComposeOptions "build" ["--pull"]) = some 0

section
variable {parseYaml : String → Option Json} {stack : ControlledStack} {docker : Docker}

theorem getComposeOptions_inj {command other : String} {options others : List String}
    (same : stack.getComposeOptions command options = stack.getComposeOptions other others) : command = other := by
  unfold ControlledStack.getComposeOptions composeArgs at same
  have tails := List.append_cancel_left same
  exact (List.cons.inj tails).1

/-- What a control ends with, and the commands that were run by then. -/
def Control.runFrom {α : Type} (program : Control α) (commands : List (List String)) :
    Except ControlError α × List (List String) := program.run.run commands

section
variable {α β : Type} {commands : List (List String)}

theorem runFrom_bind_ok {first : Control α} {next : α → Control β} {value : α} {later : List (List String)}
    (ran : first.runFrom commands = (.ok value, later)) :
    Control.runFrom (first >>= next) commands = (next value).runFrom later := by
  unfold Control.runFrom at ran ⊢
  rw [ExceptT.run_bind, StateT.run_bind, ran]
  rfl

theorem runFrom_bind_error {first : Control α} {next : α → Control β} {error : ControlError}
    {later : List (List String)} (ran : first.runFrom commands = (.error error, later)) :
    Control.runFrom (first >>= next) commands = (.error error, later) := by
  unfold Control.runFrom at ran ⊢
  rw [ExceptT.run_bind, StateT.run_bind, ran]
  rfl

theorem runFrom_executed {args : List String} {exitCode : Int} (ran : docker.execute args = some exitCode) :
    (executeCommand docker args).runFrom commands = (.ok exitCode, commands ++ [args]) := by
  unfold executeCommand
  rw [ran]
  rfl

theorem runFrom_rejected {args : List String} (ran : docker.execute args = none) :
    (executeCommand docker args).runFrom commands = (.error .rejected, commands ++ [args]) := by
  unfold executeCommand
  rw [ran]
  rfl

end

theorem runFrom_met {error : ControlError} (commands : List (List String)) :
    (failUnless true error).runFrom commands = (.ok (), commands) := rfl

/-- An update ends by recreating the containers, whatever becomes of it. -/
theorem applyControl_update_runFrom (builds : Bool) (commands : List (List String)) :
    ∃ result, (applyControl docker stack .update builds).runFrom commands =
      (result, commands ++ [stack.getComposeOptions "up" ["-d", "--remove-orphans"]]) := by
  unfold applyControl
  simp only [ne_eq, not_true_eq_false, decide_false, Bool.and_false, Bool.false_eq_true, if_false]
  cases ran : docker.execute (stack.getComposeOptions "up" ["-d", "--remove-orphans"]) with
  | none => exact ⟨.error .rejected, runFrom_bind_error (runFrom_rejected ran)⟩
  | some exitCode =>
      rw [runFrom_bind_ok (runFrom_executed ran)]
      by_cases worked : exitCode = 0
      · exact ⟨.ok exitCode, by simp only [failUnless, worked, decide_true, if_true]; rfl⟩
      · refine ⟨.error (.operation "apply" "operationApplyFailed"), ?_⟩
        simp only [failUnless, worked, decide_false, Bool.false_eq_true, if_false]
        rfl

/-- Building runs one command at most, which recreates no container. -/
theorem buildImages_runFrom {builds : Bool} (commands : List (List String)) :
    ∃ later, ((builds = true → docker.execute (stack.getComposeOptions "build" ["--pull"]) = some 0) ∧
        (buildImages docker stack builds).runFrom commands = (.ok (), commands ++ later) ∨
      ¬ (builds = true → docker.execute (stack.getComposeOptions "build" ["--pull"]) = some 0) ∧
        ∃ error, (buildImages docker stack builds).runFrom commands = (.error error, commands ++ later)) ∧
      (later = [] ∨ later = [stack.getComposeOptions "build" ["--pull"]]) := by
  unfold buildImages
  cases builds with
  | false => exact ⟨[], .inl ⟨by simp, by rw [List.append_nil]; rfl⟩, .inl rfl⟩
  | true =>
      refine ⟨[stack.getComposeOptions "build" ["--pull"]], ?_, .inr rfl⟩
      rw [if_pos rfl]
      cases built : docker.execute (stack.getComposeOptions "build" ["--pull"]) with
      | none => exact .inr ⟨by simp, .rejected, runFrom_bind_error (runFrom_rejected built)⟩
      | some exitCode =>
          rw [runFrom_bind_ok (runFrom_executed built)]
          by_cases worked : exitCode = 0
          · exact .inl ⟨by simp [worked], by simp only [failUnless, worked, decide_true, if_true]; rfl⟩
          · refine .inr ⟨by simp [worked], .operation "build" "operationBuildFailed", ?_⟩
            simp only [failUnless, worked, decide_false, Bool.false_eq_true, if_false]
            rfl

/-- The commands of an update whose pull worked. -/
theorem control_update (permitted : docker.isPanel = false) (valid : docker.validation = none)
    (pulled : docker.execute (stack.getComposeOptions "pull"
      (if hasBuildServices (parseYaml stack.row.composeYAML) then ["--ignore-buildable"] else [])) = some 0) :
    let ran := (control parseYaml docker stack .update).runFrom []
    stack.RunsUp ran.2 ↔ Built parseYaml docker stack ∧ (updateStatus parseYaml docker stack.name).IsUp := by
  intro ran
  let builds := hasBuildServices (parseYaml stack.row.composeYAML)
  let pull := stack.getComposeOptions "pull" (if builds then ["--ignore-buildable"] else [])
  obtain ⟨later, how, what⟩ := @buildImages_runFrom stack docker builds [pull]
  have quiet : ¬ stack.RunsUp ([pull] ++ later) := by
    intro up
    obtain ⟨options, member⟩ := up
    rcases List.mem_append.mp member with fetched | built
    · have same := getComposeOptions_inj (List.mem_singleton.mp fetched)
      simp at same
    · rcases what with none | one
      · simp [none] at built
      · rw [one] at built
        have same := getComposeOptions_inj (List.mem_singleton.mp built)
        simp at same
  have admitted : (admitControl docker .update).runFrom [] = (.ok (), []) := by
    simp only [admitControl, reduceCtorEq, if_false, permitted, valid]
    rfl
  have fetching : (fetchImages docker stack builds).runFrom [] =
      Control.runFrom (do buildImages docker stack builds; pure 0) [pull] := by
    unfold fetchImages
    rw [runFrom_bind_ok (runFrom_executed pulled)]
    exact runFrom_bind_ok (runFrom_met [pull])
  have started : ran = Control.runFrom (do
      let pullCode ← fetchImages docker stack builds
      let status := updateStatus parseYaml docker stack.name
      if status ≠ .running ∧ status ≠ .attention then pure pullCode
      else applyControl docker stack .update builds) [] := runFrom_bind_ok admitted
  rw [started]
  rcases how with ⟨built, ended⟩ | ⟨unbuilt, error, ended⟩
  · have fetched : (fetchImages docker stack builds).runFrom [] = (.ok 0, [pull] ++ later) := by
      rw [fetching, runFrom_bind_ok ended]
      rfl
    rw [runFrom_bind_ok fetched]
    dsimp only
    split
    · rename_i down
      have notUp : ¬ (updateStatus parseYaml docker stack.name).IsUp := by
        simpa [Status.IsUp] using down
      exact ⟨fun up => absurd up quiet, fun both => absurd both.2 notUp⟩
    · rename_i up
      have isUp : (updateStatus parseYaml docker stack.name).IsUp := by
        simp only [ne_eq, not_and_or, Decidable.not_not] at up
        exact up
      obtain ⟨result, applied⟩ := @applyControl_update_runFrom stack docker builds ([pull] ++ later)
      rw [applied]
      refine ⟨fun _ => ⟨built, isUp⟩, fun _ => ⟨["-d", "--remove-orphans"], ?_⟩⟩
      simp
  · have fetched : (fetchImages docker stack builds).runFrom [] = (.error error, [pull] ++ later) := by
      rw [fetching]
      exact runFrom_bind_error ended
    rw [runFrom_bind_error fetched]
    exact ⟨fun up => absurd up quiet, fun both => absurd both.1 unbuilt⟩

end

def sampleControlled : ControlledStack where
  name := "app"
  row := sampleRow "/opt/stacks/app"
  composeFileName := "compose.yaml"
  envFileNames := [".env"]
  hasGlobalEnv := false

/-- Docker, where every command works. -/
def sampleDocker (host : List Container) : Docker where
  isPanel := false
  validation := none
  execute := fun _ => some 0
  host := host
  configFiles := fun _ => none
  listsProjects := true
  listsContainers := true

def sampleUpdate (host : List Container) : Except ControlError Int × List (List String) :=
  (control sampleYaml (sampleDocker host) sampleControlled .update).runFrom []

/-- Containers of another directory under the project name of the stack. -/
def strangerContainer : Container :=
  plainContainer "running" [(composeProjectLabel, "app"), (composeServiceLabel, "web"),
    (composeWorkingDirLabel, "/srv/elsewhere")]

end Dockge.StackStatus
