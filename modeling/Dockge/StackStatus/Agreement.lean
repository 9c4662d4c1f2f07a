import Dockge.StackStatus.StackState

namespace Dockge.StackStatus

open Dockge.Data

/-! When the list and the page of a stack say the same. -/

/-! ### The containers behind a status -/

/-- How often the reading of the host puts a container with these labels under a key. -/
def timesListed (key : String) (labels : List (String × String)) : Nat :=
  let parsed := parseDockerLabels (some (labelText labels))
  let project := (parsed.lookup composeProjectLabel).getD ""
  let workingDir := (parsed.lookup composeWorkingDirLabel).getD ""
  if key = "" ∨ project = "" then 0 else (if project = key then 1 else 0) + if workingDir = key then 1 else 0

def timesFiltered (path : String) (labels : List (String × String)) : Nat :=
  if labels.lookup composeWorkingDirLabel = some path then 1 else 0

/-- The key the list goes by: the directory, or where nothing stands under it the name. -/
def lookupKey (path name : String) (labels : List (List (String × String))) : String :=
  if labels.any fun labels => 0 < timesListed path labels then path else name

section
variable {key path name : String} {host : List Container} {instances : Instances}

theorem Instances.push_apply (entry : ComposePsEntry) (other : String) :
    (instances.push other entry) key =
      if key ≠ "" ∧ other = key then some ((instances key).getD [] ++ [entry]) else instances key := by
  unfold Instances.push
  by_cases empty : other = ""
  · subst empty
    by_cases same : "" = key
    · simp [← same]
    · simp [same]
  · by_cases same : other = key
    · subst same
      simp [empty]
    · simp [empty, same, Function.update_of_ne (Ne.symm same)]

/-- What a line of the host adds under a key. -/
theorem Instances.read_apply (container : Container) :
    (instances.read container.row) key =
      if timesListed key container.labels = 0 then instances key
      else some ((instances key).getD [] ++
        List.replicate (timesListed key container.labels) (fromDockerPs container.row)) := by
  unfold Instances.read
  have project : (fromDockerPs container.row).project =
      ((parseDockerLabels (some (labelText container.labels))).lookup composeProjectLabel).getD "" := rfl
  have workingDir : (fromDockerPs container.row).workingDir =
      ((parseDockerLabels (some (labelText container.labels))).lookup composeWorkingDirLabel).getD "" := rfl
  simp only [timesListed, ← project, ← workingDir]
  generalize fromDockerPs container.row = entry
  by_cases nowhere : entry.project = ""
  · simp [nowhere]
  · by_cases empty : key = ""
    · simp [nowhere, empty, Instances.push_apply]
    · by_cases byProject : entry.project = key <;> by_cases byDir : entry.workingDir = key <;>
        simp [nowhere, empty, Instances.push_apply, byProject, byDir, List.replicate]

theorem foldl_read_apply (start : Instances) :
    (host.map Container.row).foldl Instances.read start key =
      let found := host.flatMap fun container =>
        List.replicate (timesListed key container.labels) (fromDockerPs container.row)
      if found = [] then start key else some ((start key).getD [] ++ found) := by
  induction host generalizing start with
  | nil => simp
  | cons container rest ih =>
      simp only [List.map_cons, List.foldl_cons, ih, Instances.read_apply, List.flatMap_cons]
      by_cases absent : timesListed key container.labels = 0
      · simp [absent]
      · have present : List.replicate (timesListed key container.labels) (fromDockerPs container.row) ≠ [] := by
          simpa using absent
        by_cases last : (rest.flatMap fun container =>
            List.replicate (timesListed key container.labels) (fromDockerPs container.row)) = []
        · simp [absent, last]
        · simp [absent, last, List.append_assoc]

/-- The containers under a key, as often as they were put there. -/
theorem readHostContainers_getD :
    (readHostContainers host key).getD [] = host.flatMap fun container =>
      List.replicate (timesListed key container.labels) (fromDockerPs container.row) := by
  unfold readHostContainers
  rw [foldl_read_apply]
  dsimp only
  split
  · rename_i none
    simp [none]
  · simp

theorem readHostContainers_eq_none :
    readHostContainers host key = none ↔ ∀ container ∈ host, timesListed key container.labels = 0 := by
  unfold readHostContainers
  rw [foldl_read_apply]
  simp [List.flatMap_eq_nil_iff]

/-- The containers the list judges a managed stack by. -/
theorem listEntries :
    ((readHostContainers host path).or (readHostContainers host name)).getD [] = host.flatMap fun container =>
      List.replicate (timesListed (lookupKey path name (host.map (·.labels))) container.labels)
        (fromDockerPs container.row) := by
  cases found : readHostContainers host path with
  | none =>
      have nowhere := readHostContainers_eq_none.mp found
      have byName : lookupKey path name (host.map (·.labels)) = name := by
        unfold lookupKey
        rw [if_neg]
        simp only [List.any_map, List.any_eq_true, Function.comp, decide_eq_true_eq, not_exists, not_and]
        intro container member
        rw [nowhere container member]
        exact Nat.lt_irrefl 0
      rw [Option.none_or, byName, readHostContainers_getD]
  | some entries =>
      have byPath : lookupKey path name (host.map (·.labels)) = path := by
        unfold lookupKey
        rw [if_pos]
        by_contra nowhere
        simp only [List.any_map, List.any_eq_true, Function.comp, decide_eq_true_eq, not_exists, not_and,
          Nat.not_lt, Nat.le_zero_eq] at nowhere
        rw [readHostContainers_eq_none.mpr nowhere] at found
        cases found
      rw [Option.some_or, byPath, ← readHostContainers_getD, found]

/-- The containers the page judges it by. -/
theorem filterByWorkingDir_map {α : Type} (view : Container → α) :
    (filterByWorkingDir path host).map view = host.flatMap fun container =>
      List.replicate (timesFiltered path container.labels) (view container) := by
  induction host with
  | nil => rfl
  | cons container rest ih =>
      unfold filterByWorkingDir at ih ⊢
      by_cases own : container.labels.lookup composeWorkingDirLabel = some path
      · simp [own, ih, timesFiltered]
      · simp [own, ih, timesFiltered]

end

/-! ### The image does not matter -/

def ContainerInstanceStatus.withoutImage (status : ContainerInstanceStatus) : ContainerInstanceStatus :=
  { status with image := none }

theorem resolveStackStatus_withoutImage (instances : List ContainerInstanceStatus) (expectedServices : List String) :
    resolveStackStatus (instances.map ContainerInstanceStatus.withoutImage) expectedServices =
      resolveStackStatus instances expectedServices := by
  have missing : missingInstances (instances.map ContainerInstanceStatus.withoutImage) expectedServices =
      missingInstances instances expectedServices := by
    simp only [missingInstances, List.any_map]
    rfl
  have summary : summariseInstances (instances.map ContainerInstanceStatus.withoutImage) =
      summariseInstances instances := by
    simp only [summariseInstances, List.foldl_map]
    rfl
  simp only [resolveStackStatus, missing, summary, List.isEmpty_map]

theorem normaliseInstance_shortRow (oneShotServices : List String) (container : Container) :
    (normaliseInstance oneShotServices (fromDockerPs container.shortRow)).withoutImage =
      (normaliseInstance oneShotServices (fromDockerPs container.row)).withoutImage := rfl

section
variable {parseYaml : String → Option Json} {stack : Stack} {host : List Container}

/-- The page judges by the lines of the host as well. -/
theorem getDetailedStatus_result :
    (getDetailedStatus parseYaml stack host).result =
      resolveStackStatus ((host.flatMap fun container =>
          List.replicate (timesFiltered stack.path container.labels) (fromDockerPs container.row)).map
        (normaliseInstance (readOneShotServices (parseYaml stack.composeYAML))))
        (readComposeServices (parseYaml stack.composeYAML)) := by
  let normalise := normaliseInstance (readOneShotServices (parseYaml stack.composeYAML))
  let own := filterByWorkingDir stack.path host
  have images : (own.map fun container => normalise (fromDockerPs container.shortRow)).map
        ContainerInstanceStatus.withoutImage =
      (own.map fun container => normalise (fromDockerPs container.row)).map
        ContainerInstanceStatus.withoutImage := by
    rw [List.map_map, List.map_map]
    apply List.map_congr_left
    intro container _
    exact normaliseInstance_shortRow _ container
  rw [← filterByWorkingDir_map, List.map_map, ← resolveStackStatus_withoutImage]
  change resolveStackStatus ((own.map fun container => fromDockerPs container.shortRow).map normalise) _ =
    resolveStackStatus ((own.map fun container => normalise (fromDockerPs container.row)).map
      ContainerInstanceStatus.withoutImage) _
  rw [← images, resolveStackStatus_withoutImage, List.map_map]
  rfl

theorem resolveProjectStatus_result {name : String} (managed : stack.isManagedByDockge = true) :
    (resolveProjectStatus parseYaml name (some (readHostContainers host)) stack).result =
      resolveStackStatus ((host.flatMap fun container =>
          List.replicate (timesListed (lookupKey stack.path name (host.map (·.labels))) container.labels)
            (fromDockerPs container.row)).map
        (normaliseInstance (readOneShotServices (parseYaml stack.composeYAML))))
        (readComposeServices (parseYaml stack.composeYAML)) := by
  simp only [resolveProjectStatus, resolveComposePsStatus, managed, if_true, listEntries]

/-! ### One round of the list -/

/-- The row of the same stack. -/
def SameStack (stack row : Stack) : Prop :=
  row.path = stack.path ∧ row.isManagedByDockge = stack.isManagedByDockge ∧ row.composeYAML = stack.composeYAML

theorem resolveProjectStatus_congr {row : Stack} {name : String} {instanceMap : Option Instances}
    (same : SameStack stack row) :
    resolveProjectStatus parseYaml name instanceMap row = resolveProjectStatus parseYaml name instanceMap stack := by
  obtain ⟨path, managed, yaml⟩ := same
  simp only [resolveProjectStatus, path, managed, yaml]

/-- The row of a stack, once a project of its name was looked at. -/
def Judged (parseYaml : String → Option Json) (stack : Stack) (name : String) (instanceMap : Option Instances)
    (round : StackList × List String) : Prop :=
  ∃ row, round.1 name = some row ∧ SameStack stack row ∧ name ∈ round.2 ∧
    row.status = (resolveProjectStatus parseYaml name instanceMap stack).result.status ∧
    row.issues = (resolveProjectStatus parseYaml name instanceMap stack).result.issues

variable {newStack : String → Stack} {ownProject name : String} {instanceMap : Option Instances}
  {round : StackList × List String} {entry : ComposeLsEntry}

theorem applyProject_own {row : Stack} (found : round.1 entry.name = some row) (same : SameStack stack row) :
    Judged parseYaml stack entry.name instanceMap
      (applyProject parseYaml newStack ownProject instanceMap round entry) := by
  refine ⟨row.observed parseYaml entry instanceMap, ?_, same, ?_, ?_, ?_⟩
  · simp [applyProject, listed, found]
  · simp [applyProject, listed, found]
  · simp [Stack.observed, resolveProjectStatus_congr same]
  · simp [Stack.observed, resolveProjectStatus_congr same]

theorem applyProject_other (other : entry.name ≠ name) :
    (applyProject parseYaml newStack ownProject instanceMap round entry).1 name = round.1 name ∧
      (name ∈ (applyProject parseYaml newStack ownProject instanceMap round entry).2 ↔ name ∈ round.2) := by
  unfold applyProject
  split
  · exact ⟨rfl, Iff.rfl⟩
  · exact ⟨Function.update_of_ne (Ne.symm other) _ _, by simp [Ne.symm other]⟩

theorem foldl_judged {composeList : List ComposeLsEntry}
    (judged : Judged parseYaml stack name instanceMap round) :
    Judged parseYaml stack name instanceMap
      (composeList.foldl (applyProject parseYaml newStack ownProject instanceMap) round) := by
  induction composeList generalizing round with
  | nil => exact judged
  | cons entry rest ih =>
      apply ih
      obtain ⟨row, found, same, seen, status, issues⟩ := judged
      by_cases own : entry.name = name
      · subst own
        exact applyProject_own found same
      · obtain ⟨kept, still⟩ := @applyProject_other parseYaml newStack ownProject name instanceMap round entry own
        exact ⟨row, kept.trans found, same, still.mpr seen, status, issues⟩

theorem foldl_listed {composeList : List ComposeLsEntry} {row : Stack} (found : round.1 name = some row)
    (same : SameStack stack row) (member : name ∈ composeList.map (·.name)) :
    Judged parseYaml stack name instanceMap
      (composeList.foldl (applyProject parseYaml newStack ownProject instanceMap) round) := by
  induction composeList generalizing round row with
  | nil => cases member
  | cons entry rest ih =>
      rw [List.foldl_cons]
      by_cases own : entry.name = name
      · subst own
        exact foldl_judged (applyProject_own found same)
      · obtain ⟨kept, _⟩ := @applyProject_other parseYaml newStack ownProject name instanceMap round entry own
        rcases List.mem_cons.mp member with first | member
        · exact absurd first.symm own
        · exact ih (kept.trans found) same member

theorem foldl_unlisted {composeList : List ComposeLsEntry} (absent : name ∉ composeList.map (·.name)) :
    (composeList.foldl (applyProject parseYaml newStack ownProject instanceMap) round).1 name = round.1 name ∧
      (name ∈ (composeList.foldl (applyProject parseYaml newStack ownProject instanceMap) round).2 ↔
        name ∈ round.2) := by
  induction composeList generalizing round with
  | nil => exact ⟨rfl, Iff.rfl⟩
  | cons entry rest ih =>
      simp only [List.map_cons, List.mem_cons, not_or] at absent
      obtain ⟨kept, still⟩ :=
        @applyProject_other parseYaml newStack ownProject name instanceMap round entry (Ne.symm absent.1)
      obtain ⟨keptRest, stillRest⟩ :=
        @ih (applyProject parseYaml newStack ownProject instanceMap round entry) absent.2
      exact ⟨keptRest.trans kept, stillRest.trans still⟩

end

/-! ### Which issues a status lists -/

theorem resolveStackStatus_ne_createdFile (instances : List ContainerInstanceStatus) (expectedServices : List String) :
    (resolveStackStatus instances expectedServices).status ≠ .createdFile := by
  simp only [resolveStackStatus]
  repeat' split
  all_goals simp

/-- Every dead container is listed, and nothing else as dead. -/
theorem countP_dead (instances : List ContainerInstanceStatus) (expectedServices : List String) :
    (resolveStackStatus instances expectedServices).issues.countP (·.reason = .dead) =
      instances.countP (·.issue = some .dead) := by
  have missing : (missingInstances instances expectedServices).countP (·.reason = .dead) = 0 := by
    unfold missingInstances
    split
    · rfl
    · simp [List.countP_eq_zero]
  have found : (instances.filterMap issueOf).countP (·.reason = .dead) = instances.countP (·.issue = some .dead) := by
    rw [List.countP_filterMap]
    apply List.countP_congr
    intro status _
    cases issue : status.issue <;> simp [issueOf, issue]
  have all : (missingInstances instances expectedServices ++ (summariseInstances instances).issues).countP
      (·.reason = .dead) = instances.countP (·.issue = some .dead) := by
    rw [List.countP_append, missing, summariseInstances_eq]
    simpa using found
  cases instances with
  | nil => simpa [resolveStackStatus] using missing
  | cons first rest =>
      simp only [resolveStackStatus, List.isEmpty_cons, Bool.false_eq_true, if_false]
      split
      · rw [List.countP_filter, ← all]
        apply List.countP_congr
        intro issue _
        cases issue.reason <;> simp
      · repeat' split
        all_goals exact all

/-! ### Agreement -/

/-- The list stores of the stack what its page computes. -/
def Agree (parseYaml : String → Option Json) (newStack : String → Stack) (configFiles : String → Option String)
    (ownProject : String) (stackList : StackList) (name : String) (stack : Stack) (host : List Container) : Prop :=
  ∃ row, applyComposeProjects parseYaml newStack stackList (composeLs configFiles host)
      (some (readHostContainers host)) ownProject name = some row ∧
    row.status = (getDetailedStatus parseYaml stack host).result.status ∧
    row.issues = (getDetailedStatus parseYaml stack host).result.issues

/-- A project is named as the stack, and the list finds each container of its directory once. -/
def FoundByList (name : String) (stack : Stack) (labels : List (List (String × String))) : Prop :=
  (∃ each ∈ labels, each.lookup composeProjectLabel = some name) ∧
    ∀ each ∈ labels, timesListed (lookupKey stack.path name labels) each = timesFiltered stack.path each

instance FoundByList.decidable (name : String) (stack : Stack) (labels : List (List (String × String))) :
    Decidable (FoundByList name stack labels) := inferInstanceAs (Decidable (_ ∧ _))

section
variable {parseYaml : String → Option Json} {newStack : String → Stack} {configFiles : String → Option String}
  {ownProject name : String} {stackList : StackList} {stack : Stack} {host : List Container}

theorem mem_composeLs :
    name ∈ (composeLs configFiles host).map (·.name) ↔
      ∃ each ∈ host.map (·.labels), each.lookup composeProjectLabel = some name := by
  simp [composeLs, List.mem_eraseDups]

theorem sameStack_refl (stack : Stack) : SameStack stack stack := ⟨rfl, rfl, rfl⟩

/-- A stack whose name is no project is listed as one that was never started. -/
theorem unlisted_createdFile (found : stackList name = some stack)
    (absent : ¬ ∃ each ∈ host.map (·.labels), each.lookup composeProjectLabel = some name) :
    ∃ row, applyComposeProjects parseYaml newStack stackList (composeLs configFiles host)
      (some (readHostContainers host)) ownProject name = some row ∧ row.status = .createdFile := by
  have unlisted : name ∉ (composeLs configFiles host).map (·.name) := fun member =>
    absent (mem_composeLs.mp member)
  obtain ⟨kept, seen⟩ := @foldl_unlisted parseYaml newStack ownProject name (some (readHostContainers host))
    (stackList, []) (composeLs configFiles host) unlisted
  replace kept := kept.trans found
  refine ⟨stack.unseen, ?_, ?_⟩
  · unfold applyComposeProjects
    rw [kept, Option.map_some, if_neg]
    rw [seen]
    exact List.not_mem_nil
  · unfold Stack.unseen
    split
    · rfl
    · rename_i same
      simpa using same

/-- A stack whose name is a project gets the status of what the list finds. -/
theorem listed_result (found : stackList name = some stack)
    (listed : ∃ each ∈ host.map (·.labels), each.lookup composeProjectLabel = some name) :
    ∃ row, applyComposeProjects parseYaml newStack stackList (composeLs configFiles host)
        (some (readHostContainers host)) ownProject name = some row ∧
      row.status = (resolveProjectStatus parseYaml name (some (readHostContainers host)) stack).result.status ∧
      row.issues = (resolveProjectStatus parseYaml name (some (readHostContainers host)) stack).result.issues := by
  obtain ⟨row, held, _, seen, status, issues⟩ :=
    @foldl_listed parseYaml stack newStack ownProject name (some (readHostContainers host)) (stackList, [])
      (composeLs configFiles host) stack found (sameStack_refl stack) (mem_composeLs.mpr listed)
  refine ⟨row, ?_, status, issues⟩
  unfold applyComposeProjects
  rw [held, Option.map_some, if_pos seen]

theorem agree_of_foundByList (found : stackList name = some stack) (managed : stack.isManagedByDockge = true)
    (finds : FoundByList name stack (host.map (·.labels))) :
    Agree parseYaml newStack configFiles ownProject stackList name stack host := by
  obtain ⟨listed, same⟩ := finds
  obtain ⟨row, held, status, issues⟩ := @listed_result parseYaml newStack configFiles ownProject name stackList
    stack host found listed
  have entries : (host.flatMap fun container =>
        List.replicate (timesListed (lookupKey stack.path name (host.map (·.labels))) container.labels)
          (fromDockerPs container.row)) =
      host.flatMap fun container =>
        List.replicate (timesFiltered stack.path container.labels) (fromDockerPs container.row) := by
    rw [List.flatMap_def, List.flatMap_def]
    apply congrArg List.flatten
    apply List.map_congr_left
    intro container member
    rw [same container.labels (List.mem_map_of_mem member)]
  have result : (resolveProjectStatus parseYaml name (some (readHostContainers host)) stack).result =
      (getDetailedStatus parseYaml stack host).result := by
    rw [resolveProjectStatus_result managed, getDetailedStatus_result, entries]
  exact ⟨row, held, status.trans (congrArg _ result), issues.trans (congrArg _ result)⟩

/-! ### Where they differ -/

/-- A container with these labels in a plain state. -/
def plainContainer (state : String) (labels : List (String × String)) : Container :=
  { labels, names := none, state := some state, status := none, healthStatus := none, image := none
    shortImage := none }

theorem plain_running_issue (oneShotServices : List String) (labels : List (String × String)) :
    (normaliseInstance oneShotServices (fromDockerPs (plainContainer "running" labels).row)).issue = none := by
  have state : String.ofList (lowerChars (trimChars "running".toList)) = "running" := by decide
  have health : normaliseHealth none = "" := by decide
  simp only [normaliseInstance, fromDockerPs, plainContainer, Container.row, Option.getD_some, state, health,
    if_true, resolveInstanceIssue]
  simp

theorem plain_dead_issue (oneShotServices : List String) (labels : List (String × String)) :
    (normaliseInstance oneShotServices (fromDockerPs (plainContainer "dead" labels).row)).issue = some .dead := by
  have state : String.ofList (lowerChars (trimChars "dead".toList)) = "dead" := by decide
  simp only [normaliseInstance, fromDockerPs, plainContainer, Container.row, Option.getD_some, state,
    resolveInstanceIssue]
  simp

/-- Among running containers a dead one is listed as often as it is counted. -/
theorem countP_one_dead (oneShotServices : List String) (times : List (String × String) → Nat)
    (before after : List (List (String × String))) (labels : List (String × String)) :
    (((before.map (plainContainer "running") ++ plainContainer "dead" labels ::
        after.map (plainContainer "running")).flatMap fun container =>
          List.replicate (times container.labels) (fromDockerPs container.row)).map
      (normaliseInstance oneShotServices)).countP (·.issue = some .dead) = times labels := by
  have silent : ∀ others : List (List (String × String)),
      (((others.map (plainContainer "running")).flatMap fun container =>
          List.replicate (times container.labels) (fromDockerPs container.row)).map
        (normaliseInstance oneShotServices)).countP (·.issue = some .dead) = 0 := by
    intro others
    rw [List.countP_eq_zero]
    simp only [List.mem_map, List.mem_flatMap, List.mem_replicate, decide_eq_true_eq]
    intro status shown
    obtain ⟨entry, ⟨container, ⟨each, _, rfl⟩, _, rfl⟩, rfl⟩ := shown
    rw [plain_running_issue]
    simp
  rw [List.flatMap_append, List.flatMap_cons, List.map_append, List.map_append, List.countP_append,
    List.countP_append, silent, silent, List.map_replicate, List.countP_replicate]
  rw [plain_dead_issue]
  simp [plainContainer]

/-- With containers in fitting states the two differ wherever the list does not find the containers. -/
theorem foundByList_of_agree (found : stackList name = some stack) (managed : stack.isManagedByDockge = true)
    {labels : List (List (String × String))}
    (agree : ∀ host, host.map (·.labels) = labels →
      Agree parseYaml newStack configFiles ownProject stackList name stack host) :
    FoundByList name stack labels := by
  have plain : ∀ each : List (List (String × String)),
      (each.map (plainContainer "running")).map (·.labels) = each := by
    intro each
    rw [List.map_map]
    exact List.map_id each
  have listed : ∃ each ∈ labels, each.lookup composeProjectLabel = some name := by
    by_contra absent
    rw [← plain labels] at absent
    obtain ⟨row, held, created⟩ := @unlisted_createdFile parseYaml newStack configFiles ownProject name stackList
      stack _ found absent
    obtain ⟨other, same, status, _⟩ := agree _ (plain labels)
    rw [held] at same
    cases same
    exact resolveStackStatus_ne_createdFile _ _ (status.symm.trans created)
  refine ⟨listed, ?_⟩
  intro each member
  obtain ⟨before, after, split⟩ := List.append_of_mem member
  let host := before.map (plainContainer "running") ++ plainContainer "dead" each ::
    after.map (plainContainer "running")
  have labelled : host.map (·.labels) = labels := by
    simp only [host, List.map_append, List.map_cons, plain, split]
    rfl
  obtain ⟨row, held, _, issues⟩ := agree host labelled
  obtain ⟨other, same, _, listedIssues⟩ := @listed_result parseYaml newStack configFiles ownProject name stackList
    stack host found (labelled ▸ listed)
  rw [held] at same
  cases same
  have counts := congrArg (List.countP (·.reason = .dead)) (listedIssues.symm.trans issues)
  rw [resolveProjectStatus_result managed, getDetailedStatus_result, countP_dead, countP_dead, countP_one_dead,
    countP_one_dead, labelled] at counts
  exact counts

end

/-- For any labels of the containers of a host, the list and the page agree on a managed stack whatever
the containers do, exactly where the list finds the containers of its directory. -/
theorem list_agrees_with_page (parseYaml : String → Option Json) (newStack : String → Stack)
    (configFiles : String → Option String) (ownProject : String) (stackList : StackList) (name : String)
    (stack : Stack) (labels : List (List (String × String))) (found : stackList name = some stack)
    (managed : stack.isManagedByDockge = true) :
    (∀ host, host.map (·.labels) = labels →
      Agree parseYaml newStack configFiles ownProject stackList name stack host) ↔
        FoundByList name stack labels := by
  constructor
  · exact foundByList_of_agree found managed
  · intro finds host labelled
    exact agree_of_foundByList found managed (labelled ▸ finds)

/-! ### A stack whose project was renamed -/

def sampleLabels (project : String) : List (String × String) :=
  [(composeProjectLabel, project), (composeServiceLabel, "web"), (composeWorkingDirLabel, "/opt/stacks/app")]

def sampleContainer (project : String) : Container := plainContainer "running" (sampleLabels project)

def sampleRow (path : String) : Stack where
  path := path
  isManagedByDockge := true
  composeYAML := "services: { web: { image: nginx } }"
  status := .createdFile
  issues := []
  configFilePath := none
  services := []

def sampleYaml : String → Option Json := fun _ =>
  some (.obj [("services", .obj [("web", .obj [("image", .str "nginx")])])])

def sampleList : StackList := fun name => if name = "app" then some (sampleRow "/opt/stacks/app") else none

def sampleNew (_ : String) : Stack := { sampleRow "" with isManagedByDockge := false }

/-- Under its own name the stack is running in the list and on its page. -/
theorem list_agrees_with_page_app :
    Agree sampleYaml sampleNew (fun _ => none) "panel" sampleList "app" (sampleRow "/opt/stacks/app")
      [sampleContainer "app"] :=
  (list_agrees_with_page sampleYaml sampleNew (fun _ => none) "panel" sampleList "app"
    (sampleRow "/opt/stacks/app") [sampleLabels "app"] rfl rfl).mpr (by decide +kernel) [sampleContainer "app"] rfl

/-- Renamed with `COMPOSE_PROJECT_NAME` it runs on its page, and was never started in the list. -/
theorem renamed_stack_differs :
    (sampleContainer "renamed").labels.lookup composeWorkingDirLabel = some (sampleRow "/opt/stacks/app").path ∧
      (getDetailedStatus sampleYaml (sampleRow "/opt/stacks/app") [sampleContainer "renamed"]).result =
        { status := .running, issues := [] } ∧
      (applyComposeProjects sampleYaml sampleNew sampleList
          (composeLs (fun _ => none) [sampleContainer "renamed"])
          (some (readHostContainers [sampleContainer "renamed"])) "panel" "app").map (·.status) =
        some .createdFile := by
  decide +kernel

end Dockge.StackStatus
