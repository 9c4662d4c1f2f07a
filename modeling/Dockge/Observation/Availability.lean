import Dockge.Data.Intervals
import Dockge.StackStatus.ComposeStatus
import Mathlib.Data.List.Sort

namespace Dockge.Observation

open Dockge.Data Dockge.StackStatus

/-! Availability of a window, counted from confirmed intervals only. -/

/-- A status interval confirmed by successive observations. -/
structure StatusChange where
  status : Status
  observedAt : Nat
  /-- Last confirmed sample, missing on records that did not track observation gaps -/
  observedUntil : Option Nat
deriving DecidableEq, Repr

inductive AvailabilityVerdict where
  | noData
  | clean
  | degraded
  | stopped
deriving DecidableEq, Repr

structure Availability where
  verdict : AvailabilityVerdict
  ratio : Option Rat
  incidents : Nat
  coveredMs : Nat
  windowMs : Nat
  currentForMs : Option Nat
  currentStatus : Status
deriving DecidableEq, Repr

def minCoverageMs : Nat := 30 * 60000

def observationFreshnessMs : Nat := 90000

def isHealthyStatus (status : Status) : Bool := status = .running

def isStopped (status : Status) : Bool :=
  status = .exited || status = .createdFile || status = .createdStack

structure Measured where
  coveredMs : Nat := 0
  healthyMs : Nat := 0
  stoppedMs : Nat := 0
  incidents : Nat := 0
deriving DecidableEq, Repr

/-- The variables of the loop in `measure`; before the first interval nothing has ended. -/
structure Measuring where
  measured : Measured := {}
  lastEnd : Option Nat := none
  insideIncident : Bool := false
deriving DecidableEq, Repr

def describeCurrent (last : Option StatusChange) (now : Nat) : Option (Status × Option Nat) :=
  match last with
  | none => none
  | some last =>
      match last.observedUntil with
      | none => none
      | some confirmed =>
          if confirmed < last.observedAt ∨ now - confirmed > observationFreshnessMs then none
          else some (last.status, if last.status = .unknown then none else some (now - last.observedAt))

def measureStep (change : StatusChange) (next : Option StatusChange) (windowMs now : Nat)
    (soFar : Measuring) : Measuring :=
  let start := max change.observedAt (now - windowMs)
  let stop := min (change.observedUntil.getD change.observedAt)
    (min ((next.map (·.observedAt)).getD now) now)
  if change.status = .unknown ∨ stop ≤ start then { soFar with insideIncident := false }
  else
    let duration := stop - start
    let isDegraded : Bool := change.status = .attention
    let isNew := isDegraded && (!soFar.insideIncident || soFar.lastEnd.all (· < start))
    { measured :=
        { coveredMs := soFar.measured.coveredMs + duration
          healthyMs := soFar.measured.healthyMs + if isHealthyStatus change.status then duration else 0
          stoppedMs := soFar.measured.stoppedMs + if isStopped change.status then duration else 0
          incidents := soFar.measured.incidents + if isNew then 1 else 0 }
      lastEnd := some stop
      insideIncident := isDegraded }

def measureFrom (sorted : List StatusChange) (windowMs now : Nat) (soFar : Measuring) : Measuring :=
  match sorted with
  | [] => soFar
  | change :: rest => measureFrom rest windowMs now (measureStep change rest.head? windowMs now soFar)

def measure (sorted : List StatusChange) (windowMs now : Nat) : Measured :=
  (measureFrom sorted windowMs now {}).measured

/-- The intervals a window is measured from: those that began by now, in the order they began. -/
def sortedChanges (changes : List StatusChange) (now : Nat) : List StatusChange :=
  (changes.filter (·.observedAt ≤ now)).mergeSort (·.observedAt ≤ ·.observedAt)

/-- Times are whole milliseconds here, so the checks for numbers that are not finite always pass. -/
def computeAvailability (changes : List StatusChange) (windowMs now : Nat) : Availability :=
  let result : Availability :=
    { verdict := .noData, ratio := none, incidents := 0, coveredMs := 0, windowMs := windowMs,
      currentForMs := none, currentStatus := .unknown }
  if windowMs = 0 then result
  else
    let sorted := sortedChanges changes now
    let result :=
      match describeCurrent sorted.getLast? now with
      | none => result
      | some (status, forMs) => { result with currentStatus := status, currentForMs := forMs }
    let measured := measure sorted windowMs now
    let result := { result with incidents := measured.incidents, coveredMs := measured.coveredMs }
    if measured.coveredMs = 0 then result
    else if measured.stoppedMs = measured.coveredMs then { result with verdict := .stopped }
    else if minCoverageMs ≤ measured.coveredMs then
      { result with
        ratio := some (measured.healthyMs / measured.coveredMs : Rat)
        verdict := if measured.healthyMs = measured.coveredMs then .clean else .degraded }
    else result

/-! ## What the loop adds up -/

/-- The time an interval confirms. -/
def StatusChange.span (change : StatusChange) : Span :=
  ⟨change.observedAt, change.observedUntil.getD change.observedAt⟩

def isKnown (status : Status) : Bool := status ≠ .unknown

/-- The time in a window that the intervals with some statuses confirm. -/
def confirmedTime (statuses : Status → Bool) (changes : List StatusChange) (windowMs now : Nat) : Nat :=
  coveredLength StatusChange.span (changes.filter (statuses ·.status)) (now - windowMs) now

variable {change : StatusChange} {next : Option StatusChange} {changes : List StatusChange}
variable {windowMs now : Nat} {soFar : Measuring}

def share (statuses : Status → Bool) (windowMs now : Nat) (change : StatusChange) : Nat :=
  if statuses change.status then change.span.lengthWithin (now - windowMs) now else 0

/-- An interval that ends before the next one counts with the time it has inside the window. -/
theorem measureStep_adds (follows : ∀ later ∈ next, change.span.stop ≤ later.observedAt) :
    (measureStep change next windowMs now soFar).measured.coveredMs =
        soFar.measured.coveredMs + share isKnown windowMs now change ∧
      (measureStep change next windowMs now soFar).measured.healthyMs =
        soFar.measured.healthyMs + share isHealthyStatus windowMs now change ∧
      (measureStep change next windowMs now soFar).measured.stoppedMs =
        soFar.measured.stoppedMs + share isStopped windowMs now change := by
  have stops : min (change.observedUntil.getD change.observedAt)
      (min ((next.map (·.observedAt)).getD now) now) = min change.span.stop now := by
    cases next with
    | none => simp [StatusChange.span]
    | some later =>
        have := follows later rfl
        simp only [StatusChange.span, Option.map_some, Option.getD_some] at this ⊢
        omega
  have length : change.span.lengthWithin (now - windowMs) now =
      min change.span.stop now - max change.observedAt (now - windowMs) := rfl
  unfold measureStep
  simp only [stops, share, length]
  by_cases unknown : change.status = .unknown
  · simp [unknown, isKnown, isHealthyStatus, isStopped]
  · by_cases empty : min change.span.stop now ≤ max change.observedAt (now - windowMs)
    · rw [Nat.sub_eq_zero_of_le empty]
      simp [empty]
    · simp [unknown, empty, isKnown]

theorem measureFrom_adds (apart : Apart StatusChange.span changes) :
    (measureFrom changes windowMs now soFar).measured.coveredMs =
        soFar.measured.coveredMs + (changes.map (share isKnown windowMs now)).sum ∧
      (measureFrom changes windowMs now soFar).measured.healthyMs =
        soFar.measured.healthyMs + (changes.map (share isHealthyStatus windowMs now)).sum ∧
      (measureFrom changes windowMs now soFar).measured.stoppedMs =
        soFar.measured.stoppedMs + (changes.map (share isStopped windowMs now)).sum := by
  induction changes generalizing soFar with
  | nil => simp [measureFrom]
  | cons change rest ih =>
      obtain ⟨before, apartRest⟩ := List.pairwise_cons.mp apart
      have follows : ∀ later ∈ rest.head?, change.span.stop ≤ later.observedAt :=
        fun later first => before later (List.mem_of_mem_head? first)
      obtain ⟨covered, healthy, stopped⟩ := @measureStep_adds change rest.head? windowMs now soFar follows
      obtain ⟨restCovered, restHealthy, restStopped⟩ :=
        @ih (measureStep change rest.head? windowMs now soFar) apartRest
      simp only [measureFrom, List.map_cons, List.sum_cons]
      rw [restCovered, restHealthy, restStopped, covered, healthy, stopped]
      omega

theorem sum_share (apart : Apart StatusChange.span changes) (statuses : Status → Bool) :
    (changes.map (share statuses windowMs now)).sum = confirmedTime statuses changes windowMs now := by
  rw [confirmedTime, ← (apart.filter _).sum_lengthWithin]
  clear apart
  induction changes with
  | nil => rfl
  | cons change rest ih =>
      by_cases counts : statuses change.status = true <;> simp [share, counts] at ih ⊢ <;> exact ih

theorem measure_apart (apart : Apart StatusChange.span changes) :
    (measure changes windowMs now).coveredMs = confirmedTime isKnown changes windowMs now ∧
      (measure changes windowMs now).healthyMs = confirmedTime isHealthyStatus changes windowMs now ∧
      (measure changes windowMs now).stoppedMs = confirmedTime isStopped changes windowMs now := by
  have adds := @measureFrom_adds changes windowMs now {} apart
  simp only [Nat.zero_add, sum_share apart] at adds
  exact adds

theorem sortedChanges_eq (sorted : changes.Pairwise fun before after => before.observedAt ≤ after.observedAt)
    (past : ∀ change ∈ changes, change.observedAt ≤ now) : sortedChanges changes now = changes := by
  have kept : changes.filter (·.observedAt ≤ now) = changes := by
    apply List.filter_eq_self.mpr
    intro change member
    exact decide_eq_true (past change member)
  rw [sortedChanges, kept]
  apply List.mergeSort_of_pairwise
  exact sorted.imp decide_eq_true

@[simp] theorem computeAvailability_coveredMs (nonempty : 0 < windowMs) :
    (computeAvailability changes windowMs now).coveredMs =
      (measure (sortedChanges changes now) windowMs now).coveredMs := by
  unfold computeAvailability
  rw [if_neg (Nat.ne_of_gt nonempty)]
  simp only
  split_ifs <;> rfl

end Dockge.Observation
