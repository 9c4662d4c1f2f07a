import Dockge.StackStatus.ComposeStatus

namespace Dockge.StackStatus

open Dockge.Data

/-! The status of a stack from all that `docker compose ps` may say, and when it is running. -/

namespace ComposePs

/-- An exit code is a number, or a text of one. -/
inductive ExitCode where
  | number (value : Rat)
  | text (value : String)
deriving DecidableEq, Repr

/-- A line of `docker compose ps`; any field can be left out. -/
structure Entry where
  service : Option String
  name : Option String
  state : Option String
  health : Option String
  exitCode : Option ExitCode
  status : Option String
  labels : Option String
  image : Option String
deriving DecidableEq

/-- `^-?\d+$` -/
def integerText (chars : List Char) : Option Int :=
  let negative := chars.head? = some '-'
  let digits := if negative then chars.drop 1 else chars
  if digits.isEmpty || !digits.all Char.isDigit then none
  else some (if negative then -digitsValue digits else digitsValue digits)

/-- The field counts before the status text. -/
def readExitCode (entry : Entry) : Option Int :=
  let field :=
    match entry.exitCode with
    | some (.number value) => if value.den = 1 then some value.num else none
    | some (.text value) => integerText (trimChars value.toList)
    | none => none
  field.or (exitedIn (entry.status.getD "").toList)

def normaliseInstance (oneShotServices : List String) (entry : Entry) : ContainerInstanceStatus :=
  let labels := parseDockerLabels entry.labels
  let state := String.ofList (lowerChars (trimChars (entry.state.getD "").toList))
  let health := normaliseHealth entry.health
  let exitCode := readExitCode entry
  let service := (entry.service.or (labels.lookup composeServiceLabel)).getD ""
  let isOneShot := labels.lookup oneShotLabel = some oneShotValue || service ∈ oneShotServices
  { service
    name := entry.name.getD ""
    state, health, exitCode
    statusText := entry.status.getD ""
    image := entry.image.filter (· ≠ "")
    isOneShot
    issue := resolveInstanceIssue state health exitCode isOneShot }

def resolveComposePsStatus (entries : List Entry) (expectedServices oneShotServices : List String) : DetailedStatus :=
  let instances := entries.map (normaliseInstance oneShotServices)
  { result := resolveStackStatus instances expectedServices, instances }

end ComposePs

/-- An entry of `docker ps`, as `docker compose ps` would tell it -/
def ComposePsEntry.told (entry : ComposePsEntry) : ComposePs.Entry where
  service := some entry.service
  name := some entry.name
  state := entry.state
  health := entry.health
  exitCode := none
  status := entry.status
  labels := some entry.labels
  image := entry.image

/-- Both kinds of entries are judged alike. -/
theorem normaliseInstance_told (oneShotServices : List String) (entry : ComposePsEntry) (named : entry.image ≠ some "") :
    normaliseInstance oneShotServices entry = ComposePs.normaliseInstance oneShotServices entry.told := by
  have image : entry.image.filter (· ≠ "") = entry.image := by
    cases found : entry.image with
    | none => rfl
    | some text =>
        rw [found] at named
        have some_ : text ≠ "" := fun empty => named (congrArg some empty)
        simp [some_]
  have code : readExitCode entry = ComposePs.readExitCode entry.told := by
    rw [ComposePs.readExitCode, ComposePsEntry.told, Option.none_or]
    rfl
  rw [normaliseInstance, ComposePs.normaliseInstance, code]
  generalize ComposePs.readExitCode entry.told = exitCode
  simp only [ComposePsEntry.told, image, Option.some_or, Option.getD_some]
  rfl

/-! ## What one instance is -/

namespace ContainerInstanceStatus

variable (status : ContainerInstanceStatus)

/-- A one-shot that exited with 0 -/
def isDone : Bool := status.isOneShot && status.state = "exited" && status.exitCode = some 0

/-- The issue is the one its other fields give. -/
def Judged : Prop :=
  status.issue = resolveInstanceIssue status.state status.health status.exitCode status.isOneShot

end ContainerInstanceStatus

variable {status : ContainerInstanceStatus} {instances shuffled : List ContainerInstanceStatus}
variable {expectedServices : List String}

theorem resolveInstanceIssue_eq_none {state health : String} {exitCode : Option Int} {isOneShot : Bool} :
    resolveInstanceIssue state health exitCode isOneShot = none ↔
      state = "running" ∧ health ≠ "unhealthy" ∨ isOneShot = true ∧ state = "exited" ∧ exitCode = some 0 := by
  unfold resolveInstanceIssue
  by_cases running : state = "running"
  · subst running
    by_cases unhealthy : health = "unhealthy"
    · simp [unhealthy]
    · simp [unhealthy]
  · by_cases exited : state = "exited"
    · subst exited
      cases exitCode with
      | none => simp
      | some code =>
          cases isOneShot with
          | true => by_cases zero : code = 0 <;> simp [zero]
          | false => by_cases zero : code = 0 <;> simp [zero]
    · simp only [running, exited, if_false, false_and, and_false, or_false]
      repeat' split
      all_goals simp

/-- Without an issue it is up, or done. -/
theorem ContainerInstanceStatus.Judged.issue_none (judged : status.Judged) :
    status.issue = none ↔ status.isUp = true ∨ status.isDone = true := by
  rw [judged, resolveInstanceIssue_eq_none]
  simp [isUp, isDone, and_assoc]

theorem normaliseInstance_judged (oneShotServices : List String) (entries : List ComposePs.Entry) :
    ∀ status ∈ entries.map (ComposePs.normaliseInstance oneShotServices), status.Judged := by
  intro status member
  obtain ⟨entry, -, rfl⟩ := List.mem_map.mp member
  rw [ContainerInstanceStatus.Judged, ComposePs.normaliseInstance]

/-! ## What the stack is -/

theorem missingInstances_perm (order : instances.Perm shuffled) :
    missingInstances instances expectedServices = missingInstances shuffled expectedServices := by
  simp only [missingInstances, order.any_eq]

theorem issuesOf_perm (order : instances.Perm shuffled) :
    (issuesOf instances expectedServices).Perm (issuesOf shuffled expectedServices) := by
  rw [issuesOf, issuesOf, missingInstances_perm order]
  exact (order.filterMap issueOf).append_left _

theorem nil_iff_of_perm {Entry : Type} {left right : List Entry} (order : left.Perm right) : left = [] ↔ right = [] := by
  rw [← List.length_eq_zero_iff, ← List.length_eq_zero_iff, order.length_eq]

/-- The status and the issues are the same in any order of the instances. -/
theorem resolveStackStatus_perm (order : instances.Perm shuffled) :
    (resolveStackStatus instances expectedServices).status = (resolveStackStatus shuffled expectedServices).status ∧
      (resolveStackStatus instances expectedServices).issues.Perm (resolveStackStatus shuffled expectedServices).issues := by
  have issues : (issuesOf instances expectedServices).Perm (issuesOf shuffled expectedServices) := issuesOf_perm order
  rw [resolveStackStatus_eq, resolveStackStatus_eq, order.any_eq, order.all_eq, issues.any_eq]
  simp only [nil_iff_of_perm order, nil_iff_of_perm issues]
  split
  next unread =>
    rw [missingInstances_perm order]
    exact ⟨rfl, .refl _⟩
  next =>
    split
    next => exact ⟨rfl, issues.filter _⟩
    next =>
      split
      next => exact ⟨rfl, issues⟩
      next =>
        split
        next => exact ⟨rfl, issues⟩
        next => exact ⟨rfl, issues⟩

/-- Attention always has a reason. -/
theorem attention_has_issue
    (attention : (resolveStackStatus instances expectedServices).status = .attention) :
    (resolveStackStatus instances expectedServices).issues ≠ [] := by
  rw [resolveStackStatus_eq] at attention ⊢
  split at attention
  next => cases attention
  next some_ =>
    rw [if_neg some_]
    split at attention
    next => cases attention
    next started =>
      rw [if_neg started]
      split at attention
      next up =>
        rw [if_pos up]
        split at attention
        next => cases attention
        next found => exact found
      next down =>
        rw [if_neg down]
        split at attention
        next reason =>
          rw [if_pos reason]
          intro none_
          dsimp only at none_
          rw [none_] at reason
          cases reason
        next => cases attention

theorem issuesOf_eq_nil (up : instances.any (·.isUp) = true) (judged : ∀ status ∈ instances, status.Judged) :
    issuesOf instances expectedServices = [] ↔
      (∀ status ∈ instances, status.isUp = true ∨ status.isDone = true) ∧
        ∀ service ∈ expectedServices, ∃ status ∈ instances, status.service = service := by
  have running : instances.any (·.state = "running") = true := by
    obtain ⟨status, member, isUp⟩ := List.any_eq_true.mp up
    exact List.any_eq_true.mpr ⟨status, member, (Bool.and_eq_true_iff.mp isUp).1⟩
  have fine : instances.filterMap issueOf = [] ↔ ∀ status ∈ instances, status.isUp = true ∨ status.isDone = true := by
    rw [List.filterMap_eq_nil_iff]
    refine forall₂_congr fun status member => ?_
    rw [issueOf, Option.map_eq_none_iff]
    exact (judged status member).issue_none
  have complete : missingInstances instances expectedServices = [] ↔
      ∀ service ∈ expectedServices, ∃ status ∈ instances, status.service = service := by
    rw [missingInstances, running]
    simp [List.filter_eq_nil_iff]
  rw [issuesOf, List.append_eq_nil_iff, fine, complete, and_comm]

theorem running_iff (judged : ∀ status ∈ instances, status.Judged) :
    (resolveStackStatus instances expectedServices).status = .running ↔
      (∃ status ∈ instances, status.isUp = true) ∧
        (∀ status ∈ instances, status.isUp = true ∨ status.isDone = true) ∧
        ∀ service ∈ expectedServices, ∃ status ∈ instances, status.service = service := by
  rw [← List.any_eq_true (p := ContainerInstanceStatus.isUp), resolveStackStatus_eq]
  by_cases up : instances.any (·.isUp) = true
  · rw [← issuesOf_eq_nil up judged]
    have some_ : instances ≠ [] := by
      intro none_
      rw [none_] at up
      cases up
    have started : ¬ instances.all (·.state = "created") = true := by
      obtain ⟨status, member, isUp⟩ := List.any_eq_true.mp up
      have running := of_decide_eq_true (Bool.and_eq_true_iff.mp isUp).1
      intro created
      have state := of_decide_eq_true (List.all_eq_true.mp created status member)
      rw [running] at state
      exact absurd state (by decide)
    rw [if_neg some_, if_neg started, if_pos up]
    simp [up]
  · simp only [up, if_false, false_and, iff_false, Bool.false_eq_true]
    repeat' split
    all_goals simp

/-! ## What its services are -/

/-- The rows of a running stack: each runs, or is done. -/
theorem summariseServices_running (judged : ∀ status ∈ instances, status.Judged)
    (running : (resolveStackStatus instances expectedServices).status = .running) (oneShotServices : List String) :
    ∀ row ∈ summariseServices instances expectedServices oneShotServices,
      row.state = .running ∨
        row.state = .stopped ∧ ∀ status ∈ instances, status.service = row.name → status.isDone = true := by
  obtain ⟨-, fine, complete⟩ := (running_iff judged).mp running
  intro row member
  obtain ⟨name, listed, rfl⟩ := List.mem_map.mp member
  have served : ∃ status ∈ instances, status.service = name := by
    obtain declared | extra := List.mem_append.mp listed
    · exact complete name declared
    · obtain ⟨status, member, same⟩ := List.mem_map.mp (List.mem_filter.mp (List.mem_eraseDups.mp extra)).1
      exact ⟨status, member, same⟩
  obtain ⟨status, member, same⟩ := served
  have own : status ∈ instances.filter (·.service = name) := List.mem_filter.mpr ⟨member, decide_eq_true same⟩
  have calm : ∀ other ∈ instances.filter (·.service = name), other.issue = none := by
    intro other held
    have listed := (List.mem_filter.mp held).1
    exact (judged other listed).issue_none.mpr (fine other listed)
  have known : ¬ (instances.filter (·.service = name)).all (·.issue = some .unknownState) = true := by
    intro unknown
    have issue := of_decide_eq_true (List.all_eq_true.mp unknown status own)
    rw [calm status own] at issue
    cases issue
  have quiet : ¬ (instances.filter (·.service = name)).any (·.issue.isSome) = true := by
    intro loud
    obtain ⟨other, held, issue⟩ := List.any_eq_true.mp loud
    rw [calm other held] at issue
    cases issue
  have some_ : ¬ (instances.filter (·.service = name)).isEmpty = true := by
    intro none_
    rw [List.isEmpty_iff.mp none_] at own
    cases own
  dsimp only [serviceState]
  rw [if_neg some_, if_neg known, if_neg quiet]
  split
  next => exact .inl rfl
  next down =>
    refine .inr ⟨rfl, fun other listed held => ?_⟩
    have ended : ¬ other.isUp = true := fun up =>
      down (List.any_eq_true.mpr ⟨other, List.mem_filter.mpr ⟨listed, decide_eq_true held⟩, up⟩)
    exact (fine other listed).resolve_left ended

theorem status_fails_closed (entries : List ComposePs.Entry) (expectedServices oneShotServices : List String) :
    let detailed := ComposePs.resolveComposePsStatus entries expectedServices oneShotServices
    (detailed.result.status = .running ↔
        (∃ status ∈ detailed.instances, status.isUp = true) ∧
        (∀ status ∈ detailed.instances, status.isUp = true ∨ status.isDone = true) ∧
        ∀ service ∈ expectedServices, ∃ status ∈ detailed.instances, status.service = service) ∧
      (∀ shuffled, entries.Perm shuffled →
        let other := ComposePs.resolveComposePsStatus shuffled expectedServices oneShotServices
        detailed.result.status = other.result.status ∧ detailed.result.issues.Perm other.result.issues) ∧
      (detailed.result.status = .attention → detailed.result.issues ≠ []) ∧
      (detailed.result.status = .running → ∀ row ∈ summariseServices detailed.instances expectedServices oneShotServices,
        row.state = .running ∨
          row.state = .stopped ∧ ∀ status ∈ detailed.instances, status.service = row.name → status.isDone = true) := by
  have judged := normaliseInstance_judged oneShotServices entries
  refine ⟨running_iff judged, ?_, attention_has_issue, ?_⟩
  · intro shuffled order
    exact resolveStackStatus_perm (order.map _)
  · intro running
    exact summariseServices_running judged running oneShotServices

end Dockge.StackStatus
