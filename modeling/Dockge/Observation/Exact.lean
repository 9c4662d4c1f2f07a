import Dockge.Data.StableSort
import Dockge.Data.Stretches
import Dockge.Observation.Availability
import Mathlib.Data.Rat.Floor

namespace Dockge.Observation.Exact

open Dockge.Data

/-! Availability and the stability history over exact rationals, for whatever intervals are given. -/

def UNKNOWN : ℤ := 0
def CREATED_FILE : ℤ := 1
def CREATED_STACK : ℤ := 2
def RUNNING : ℤ := 3
def EXITED : ℤ := 4
def ATTENTION : ℤ := 5

structure StatusChange where
  status : ℤ
  observedAt : ℚ
  observedUntil : Option ℚ
deriving DecidableEq, Repr

structure Availability where
  verdict : AvailabilityVerdict
  ratio : Option ℚ
  incidents : ℕ
  coveredMs : ℚ
  windowMs : ℚ
  currentForMs : Option ℚ
  currentStatus : ℤ
deriving DecidableEq, Repr

def MIN_COVERAGE_MS : ℚ := 30 * 60000

def OBSERVATION_FRESHNESS_MS : ℚ := 90000

def isHealthyStatus (status : ℤ) : Bool := status = RUNNING

def isStopped (status : ℤ) : Bool := status = EXITED || status = CREATED_FILE || status = CREATED_STACK

def describeCurrent (last : Option StatusChange) (now : ℚ) : Option (ℤ × Option ℚ) :=
  match last with
  | none => none
  | some last =>
      match last.observedUntil with
      | none => none
      | some confirmed =>
          if confirmed < last.observedAt ∨ now - confirmed > OBSERVATION_FRESHNESS_MS then none
          else some (last.status, if last.status = UNKNOWN then none else some (now - last.observedAt))

structure Measured where
  coveredMs : ℚ := 0
  healthyMs : ℚ := 0
  stoppedMs : ℚ := 0
  incidents : ℕ := 0
deriving DecidableEq, Repr

/-- The variables of the loop in `measure`; before the first interval nothing has ended. -/
structure Measuring where
  measured : Measured := {}
  lastEnd : Option ℚ := none
  insideIncident : Bool := false
deriving DecidableEq, Repr

/-- The part of an interval that counts: in the window, and before the next one begins. -/
def clip (change : StatusChange) (next : Option StatusChange) (windowMs now : ℚ) : Stretch where
  start := max change.observedAt (now - windowMs)
  stop := min (change.observedUntil.getD change.observedAt) (min ((next.map (·.observedAt)).getD now) now)

def measureStep (change : StatusChange) (next : Option StatusChange) (windowMs now : ℚ)
    (soFar : Measuring) : Measuring :=
  let start := (clip change next windowMs now).start
  let stop := (clip change next windowMs now).stop
  if change.status = UNKNOWN ∨ stop ≤ start then { soFar with insideIncident := false }
  else
    let duration := stop - start
    let isDegraded : Bool := change.status = ATTENTION
    let isNew := isDegraded && (!soFar.insideIncident || soFar.lastEnd.all (· < start))
    { measured :=
        { coveredMs := soFar.measured.coveredMs + duration
          healthyMs := soFar.measured.healthyMs + if isHealthyStatus change.status then duration else 0
          stoppedMs := soFar.measured.stoppedMs + if isStopped change.status then duration else 0
          incidents := soFar.measured.incidents + if isNew then 1 else 0 }
      lastEnd := some stop
      insideIncident := isDegraded }

def measureFrom (sorted : List StatusChange) (windowMs now : ℚ) (soFar : Measuring) : Measuring :=
  match sorted with
  | [] => soFar
  | change :: rest => measureFrom rest windowMs now (measureStep change rest.head? windowMs now soFar)

def measure (sorted : List StatusChange) (windowMs now : ℚ) : Measured :=
  (measureFrom sorted windowMs now {}).measured

def sortedChanges (changes : List StatusChange) (now : ℚ) : List StatusChange :=
  sortBy (·.observedAt) (changes.filter (·.observedAt ≤ now))

/-- A rational is always finite. -/
def computeAvailability (changes : List StatusChange) (windowMs now : ℚ) : Availability :=
  let result : Availability :=
    { verdict := .noData, ratio := none, incidents := 0, coveredMs := 0, windowMs := windowMs,
      currentForMs := none, currentStatus := UNKNOWN }
  if windowMs ≤ 0 then result
  else
    let sorted := sortedChanges changes now
    let result :=
      match describeCurrent sorted.getLast? now with
      | none => result
      | some (status, forMs) => { result with currentStatus := status, currentForMs := forMs }
    let measured := measure sorted windowMs now
    let result := { result with incidents := measured.incidents, coveredMs := measured.coveredMs }
    if measured.coveredMs = 0 then result
    else if measured.stoppedMs = measured.coveredMs then { result with verdict := .stopped }
    else if MIN_COVERAGE_MS ≤ measured.coveredMs then
      { result with
        ratio := some (measured.healthyMs / measured.coveredMs)
        verdict := if measured.healthyMs = measured.coveredMs then .clean else .degraded }
    else result

/-! ## The stability history -/

inductive StabilityState where
  | running
  | attention
  | stopped
  | unknown
deriving DecidableEq, Repr

structure Bucket where
  span : Stretch
  knownMs : ℚ := 0
  runningMs : ℚ := 0
  attentionMs : ℚ := 0
deriving DecidableEq, Repr

structure StabilityHistoryBucket where
  span : Stretch
  state : StabilityState
  coverage : ℚ
deriving DecidableEq, Repr

def emptyBuckets (windowMs now : ℚ) (count : ℕ) : List Bucket :=
  (Stretch.pieces (now - windowMs) (windowMs / count) count).map ({ span := · })

def Bucket.add (bucket : Bucket) (status : ℤ) (part : Stretch) : Bucket :=
  let overlap := part.overlap bucket.span
  { bucket with
    knownMs := bucket.knownMs + overlap
    runningMs := bucket.runningMs + if status = RUNNING then overlap else 0
    attentionMs := bucket.attentionMs + if status = ATTENTION then overlap else 0 }

/-- The loop over the buckets from one on, until one begins behind the part -/
def addFrom (status : ℤ) (part : Stretch) : List Bucket → List Bucket
  | [] => []
  | bucket :: rest =>
      if part.stop ≤ bucket.span.start then bucket :: rest else bucket.add status part :: addFrom status part rest

/-- Only the buckets that a part meets are visited. -/
def addPart (status : ℤ) (part : Stretch) (windowMs now : ℚ) (count : ℕ) (buckets : List Bucket) : List Bucket :=
  let first := (max 0 ⌊(part.start - (now - windowMs)) / (windowMs / count)⌋).toNat
  buckets.take first ++ addFrom status part (buckets.drop first)

def historyStep (change : StatusChange) (next : Option StatusChange) (windowMs now : ℚ) (count : ℕ)
    (buckets : List Bucket) : List Bucket :=
  if change.status = UNKNOWN then buckets
  else
    let part : Stretch :=
      { start := max (now - windowMs) change.observedAt
        stop := min now (min (change.observedUntil.getD change.observedAt) ((next.map (·.observedAt)).getD now)) }
    if part.stop ≤ part.start then buckets else addPart change.status part windowMs now count buckets

def historyFrom (sorted : List StatusChange) (windowMs now : ℚ) (count : ℕ) (buckets : List Bucket) : List Bucket :=
  match sorted with
  | [] => buckets
  | change :: rest => historyFrom rest windowMs now count (historyStep change rest.head? windowMs now count buckets)

/-- The buckets with the time attributed to them -/
def attributed (changes : List StatusChange) (windowMs now : ℚ) (count : ℕ) : List Bucket :=
  historyFrom (sortBy (·.observedAt) changes) windowMs now count (emptyBuckets windowMs now count)

def Bucket.shown (bucket : Bucket) : StabilityHistoryBucket where
  span := bucket.span
  state :=
    if bucket.knownMs = 0 then .unknown
    else if bucket.attentionMs > 0 ∨ bucket.runningMs > 0 ∧ bucket.runningMs < bucket.knownMs then .attention
    else if bucket.runningMs > 0 then .running
    else .stopped
  coverage := min 1 (bucket.knownMs / (bucket.span.stop - bucket.span.start))

def buildStabilityHistory (changes : List StatusChange) (windowMs now : ℚ) (count : ℕ) : List StabilityHistoryBucket :=
  (attributed changes windowMs now count).map Bucket.shown

end Dockge.Observation.Exact
