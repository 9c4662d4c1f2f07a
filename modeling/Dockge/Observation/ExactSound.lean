import Dockge.Observation.Exact
import Mathlib.Algebra.Order.BigOperators.Group.List

namespace Dockge.Observation.Exact

open Dockge.Data

/-! What the measured times add up to, and that the history adds up to the same. -/

variable {changes sorted rest : List StatusChange} {change : StatusChange} {next : Option StatusChange}
variable {windowMs now : ℚ} {soFar : Measuring} {count : ℕ}

/-! ## The parts of the intervals that count -/

def clips (windowMs now : ℚ) : List StatusChange → List (ℤ × Stretch)
  | [] => []
  | change :: rest => (change.status, clip change rest.head? windowMs now) :: clips windowMs now rest

/-- The length of the parts that have some statuses -/
def share (statuses : ℤ → Bool) (parts : List (ℤ × Stretch)) : ℚ :=
  (parts.map fun part => if statuses part.1 then part.2.length else 0).sum

def isKnown (status : ℤ) : Bool := status ≠ UNKNOWN

theorem measureStep_adds (change : StatusChange) (next : Option StatusChange) (windowMs now : ℚ) (soFar : Measuring) :
    (measureStep change next windowMs now soFar).measured.coveredMs = soFar.measured.coveredMs +
        (if isKnown change.status then (clip change next windowMs now).length else 0) ∧
      (measureStep change next windowMs now soFar).measured.healthyMs = soFar.measured.healthyMs +
        (if isHealthyStatus change.status then (clip change next windowMs now).length else 0) ∧
      (measureStep change next windowMs now soFar).measured.stoppedMs = soFar.measured.stoppedMs +
        (if isStopped change.status then (clip change next windowMs now).length else 0) := by
  unfold measureStep Stretch.length
  generalize clip change next windowMs now = part
  dsimp only
  by_cases unknown : change.status = UNKNOWN
  · simp [unknown, isKnown, isHealthyStatus, isStopped, UNKNOWN, RUNNING, EXITED, CREATED_FILE, CREATED_STACK]
  · by_cases empty : part.stop ≤ part.start
    · rw [if_pos (.inr empty), max_eq_left (by linarith)]
      simp
    · rw [if_neg (by simp [unknown, empty]), max_eq_right (by linarith)]
      simp [isKnown, unknown]

theorem measureFrom_adds (sorted : List StatusChange) (windowMs now : ℚ) (soFar : Measuring) :
    (measureFrom sorted windowMs now soFar).measured.coveredMs =
        soFar.measured.coveredMs + share isKnown (clips windowMs now sorted) ∧
      (measureFrom sorted windowMs now soFar).measured.healthyMs =
        soFar.measured.healthyMs + share isHealthyStatus (clips windowMs now sorted) ∧
      (measureFrom sorted windowMs now soFar).measured.stoppedMs =
        soFar.measured.stoppedMs + share isStopped (clips windowMs now sorted) := by
  induction sorted generalizing soFar with
  | nil => simp [measureFrom, clips, share]
  | cons change rest ih =>
      obtain ⟨covered, healthy, stopped⟩ := measureStep_adds change rest.head? windowMs now soFar
      obtain ⟨restCovered, restHealthy, restStopped⟩ := ih (measureStep change rest.head? windowMs now soFar)
      simp only [measureFrom, clips, share, List.map_cons, List.sum_cons]
      rw [restCovered, restHealthy, restStopped, covered, healthy, stopped]
      simp only [share, add_assoc, and_self]

theorem measure_shares (sorted : List StatusChange) (windowMs now : ℚ) :
    (measure sorted windowMs now).coveredMs = share isKnown (clips windowMs now sorted) ∧
      (measure sorted windowMs now).healthyMs = share isHealthyStatus (clips windowMs now sorted) ∧
      (measure sorted windowMs now).stoppedMs = share isStopped (clips windowMs now sorted) := by
  have adds := measureFrom_adds sorted windowMs now {}
  simp only [zero_add] at adds
  exact adds

theorem share_nonneg (statuses : ℤ → Bool) (parts : List (ℤ × Stretch)) : 0 ≤ share statuses parts := by
  refine List.sum_nonneg fun length member => ?_
  obtain ⟨part, -, rfl⟩ := List.mem_map.mp member
  split
  · exact part.2.length_nonneg
  · exact le_refl 0

/-- No time is both healthy and stopped, and neither is unknown. -/
theorem share_add_le (parts : List (ℤ × Stretch)) :
    share isHealthyStatus parts + share isStopped parts ≤ share isKnown parts := by
  induction parts with
  | nil => simp [share]
  | cons part rest ih =>
      have own : (if isHealthyStatus part.1 then part.2.length else 0) + (if isStopped part.1 then part.2.length else 0) ≤
          if isKnown part.1 then part.2.length else 0 := by
        have nonneg := part.2.length_nonneg
        by_cases healthy : part.1 = RUNNING
        · simp [healthy, isHealthyStatus, isStopped, isKnown, UNKNOWN, RUNNING, EXITED, CREATED_FILE, CREATED_STACK]
        · by_cases unknown : part.1 = UNKNOWN
          · simp [unknown, isHealthyStatus, isStopped, isKnown, UNKNOWN, RUNNING, EXITED, CREATED_FILE, CREATED_STACK]
          · simp only [isHealthyStatus, healthy, isKnown, unknown, decide_false, Bool.false_eq_true, if_false, zero_add,
              ne_eq, not_false_iff, decide_true, if_true]
            split
            · exact le_refl _
            · exact nonneg
      simp only [share, List.map_cons, List.sum_cons] at ih ⊢
      linarith

theorem clip_within (change : StatusChange) (next : Option StatusChange) (windowMs now : ℚ) :
    now - windowMs ≤ (clip change next windowMs now).start ∧ (clip change next windowMs now).stop ≤ now :=
  ⟨le_max_right _ _, (min_le_right _ _).trans (min_le_right _ _)⟩

theorem clips_within (sorted : List StatusChange) (windowMs now : ℚ) :
    ∀ part ∈ clips windowMs now sorted, now - windowMs ≤ part.2.start ∧ part.2.stop ≤ now := by
  induction sorted with
  | nil => simp [clips]
  | cons change rest ih =>
      intro part member
      obtain rfl | member := List.mem_cons.mp member
      · exact clip_within change rest.head? windowMs now
      · exact ih part member

theorem clips_begun {bound : ℚ} (begun : ∀ change ∈ sorted, bound ≤ change.observedAt) :
    ∀ part ∈ clips windowMs now sorted, bound ≤ part.2.start := by
  induction sorted with
  | nil => simp [clips]
  | cons change rest ih =>
      intro part member
      obtain rfl | member := List.mem_cons.mp member
      · exact (begun change List.mem_cons_self).trans (le_max_left _ _)
      · exact ih (fun other held => begun other (List.mem_cons_of_mem _ held)) part member

/-- Each part ends where the next interval begins, at the latest. -/
theorem clips_apart (windowMs now : ℚ) (ordered : SortedBy (·.observedAt) sorted) :
    Stretch.Apart ((clips windowMs now sorted).map (·.2)) := by
  induction sorted with
  | nil => exact List.Pairwise.nil
  | cons change rest ih =>
      obtain ⟨-, orderedRest⟩ := List.pairwise_cons.mp ordered
      rw [clips, List.map_cons]
      refine List.pairwise_cons.mpr ⟨fun part member => ?_, ih orderedRest⟩
      obtain ⟨held, listed, rfl⟩ := List.mem_map.mp member
      cases rest with
      | nil => cases listed
      | cons follower others =>
          obtain ⟨least, -⟩ := List.pairwise_cons.mp orderedRest
          have bound : ∀ other ∈ follower :: others, follower.observedAt ≤ other.observedAt := by
            intro other member
            obtain rfl | member := List.mem_cons.mp member
            · exact le_refl _
            · exact least other member
          have stops : (clip change (some follower) windowMs now).stop ≤ follower.observedAt :=
            (min_le_right _ _).trans (min_le_left _ _)
          exact stops.trans (clips_begun bound held listed)

theorem share_le (ordered : SortedBy (·.observedAt) sorted) (positive : 0 < windowMs) (statuses : ℤ → Bool) :
    share statuses (clips windowMs now sorted) ≤ windowMs := by
  have filled := Stretch.sum_overlap_le ⟨now - windowMs, now⟩ (clips_apart windowMs now ordered)
    (by dsimp only; linarith)
  rw [List.map_map] at filled
  have most : share statuses (clips windowMs now sorted) ≤
      ((clips windowMs now sorted).map fun part => part.2.overlap ⟨now - windowMs, now⟩).sum := by
    refine List.sum_le_sum fun part member => ?_
    obtain ⟨first, last⟩ := clips_within sorted windowMs now part member
    rw [Stretch.overlap_eq_length first last]
    split
    · exact le_refl _
    · exact part.2.length_nonneg
  refine most.trans (filled.trans ?_)
  dsimp only
  linarith

/-! ## What begins behind now -/

theorem measureStep_empty (empty : (clip change next windowMs now).stop ≤ (clip change next windowMs now).start) :
    measureStep change next windowMs now soFar = { soFar with insideIncident := false } :=
  if_pos (.inr empty)

/-- Every interval behind now is cut off before it begins. -/
theorem clip_future (future : now ≤ change.observedAt) :
    (clip change next windowMs now).stop ≤ (clip change next windowMs now).start :=
  (clip_within change next windowMs now).2.trans (future.trans (le_max_left _ _))

theorem measureFrom_future (future : ∀ change ∈ sorted, now ≤ change.observedAt) (soFar : Measuring) :
    (measureFrom sorted windowMs now soFar).measured = soFar.measured := by
  induction sorted generalizing soFar with
  | nil => rfl
  | cons change rest ih =>
      have own : now ≤ change.observedAt := future change List.mem_cons_self
      have others : ∀ other ∈ rest, now ≤ other.observedAt := fun other member =>
        future other (List.mem_cons_of_mem _ member)
      rw [measureFrom, ih others, measureStep_empty (clip_future own)]

theorem filter_future (future : ∀ change ∈ sorted, now < change.observedAt) :
    sorted.filter (·.observedAt ≤ now) = [] := by
  rw [List.filter_eq_nil_iff]
  intro change member
  simpa using future change member

theorem behind_future (ordered : SortedBy (·.observedAt) (change :: rest)) (future : now < change.observedAt) :
    ∀ other ∈ change :: rest, now < other.observedAt := by
  intro other member
  obtain rfl | member := List.mem_cons.mp member
  · exact future
  · exact future.trans_le ((List.pairwise_cons.mp ordered).1 other member)

/-- An interval ends by now, whatever begins behind now. -/
theorem clip_past (ordered : SortedBy (·.observedAt) rest) :
    clip change rest.head? windowMs now = clip change (rest.filter (·.observedAt ≤ now)).head? windowMs now := by
  cases rest with
  | nil => rfl
  | cons follower others =>
      by_cases follows : follower.observedAt ≤ now
      · rw [List.filter_cons_of_pos (by simpa using follows)]
        rfl
      · rw [filter_future (behind_future ordered (not_le.mp follows))]
        simp only [clip, List.head?_cons, List.head?_nil, Option.map_some, Option.map_none, Option.getD_some,
          Option.getD_none, min_self, min_eq_right (le_of_not_ge follows)]

/-- What begins behind now does not change what is measured. -/
theorem measureFrom_past (ordered : SortedBy (·.observedAt) sorted) (soFar : Measuring) :
    (measureFrom (sorted.filter (·.observedAt ≤ now)) windowMs now soFar).measured =
      (measureFrom sorted windowMs now soFar).measured := by
  induction sorted generalizing soFar with
  | nil => rfl
  | cons change rest ih =>
      obtain ⟨-, orderedRest⟩ := List.pairwise_cons.mp ordered
      by_cases past : change.observedAt ≤ now
      · have same : measureStep change (rest.filter (·.observedAt ≤ now)).head? windowMs now soFar =
            measureStep change rest.head? windowMs now soFar := by
          simp only [measureStep, clip_past orderedRest]
        rw [List.filter_cons_of_pos (by simpa using past), measureFrom, measureFrom, same]
        exact ih orderedRest _
      · have future := behind_future ordered (not_le.mp past)
        rw [filter_future future, measureFrom_future (fun other member => (future other member).le)]
        rfl

theorem measure_sortedChanges (changes : List StatusChange) (windowMs now : ℚ) :
    measure (sortedChanges changes now) windowMs now = measure (sortBy (·.observedAt) changes) windowMs now := by
  rw [sortedChanges, ← sortBy_filter]
  exact measureFrom_past (sortBy_sorted changes) {}

/-! ## The history -/

/-- The time of a part, added to a bucket where the status is known -/
def Bucket.counted (bucket : Bucket) (part : ℤ × Stretch) : Bucket :=
  if part.1 = UNKNOWN then bucket else bucket.add part.1 part.2

theorem add_nothing {bucket : Bucket} {status : ℤ} {part : Stretch} (none_ : part.overlap bucket.span = 0) :
    bucket.add status part = bucket := by
  simp [Bucket.add, none_]

theorem overlap_of_before {part window : Stretch} (before : part.stop ≤ window.start) : part.overlap window = 0 := by
  refine max_eq_left ?_
  have first : min part.stop window.stop ≤ part.stop := min_le_left _ _
  have last : window.start ≤ max part.start window.start := le_max_right _ _
  linarith

theorem overlap_of_behind {part window : Stretch} (behind : window.stop ≤ part.start) : part.overlap window = 0 := by
  refine max_eq_left ?_
  have first : min part.stop window.stop ≤ window.stop := min_le_right _ _
  have last : part.start ≤ max part.start window.start := le_max_left _ _
  linarith

theorem overlap_of_empty {part window : Stretch} (empty : part.stop ≤ part.start) : part.overlap window = 0 := by
  refine max_eq_left ?_
  have first : min part.stop window.stop ≤ part.stop := min_le_left _ _
  have last : part.start ≤ max part.start window.start := le_max_left _ _
  linarith

theorem addFrom_eq {status : ℤ} {part : Stretch} {buckets : List Bucket}
    (ordered : buckets.Pairwise fun before after => before.span.start ≤ after.span.start) :
    addFrom status part buckets = buckets.map (·.add status part) := by
  induction buckets with
  | nil => rfl
  | cons bucket others ih =>
      obtain ⟨least, orderedRest⟩ := List.pairwise_cons.mp ordered
      unfold addFrom
      split
      next ended =>
        have same : ∀ other ∈ bucket :: others, other.add status part = other := by
          intro other member
          refine add_nothing (overlap_of_before ?_)
          obtain rfl | member := List.mem_cons.mp member
          · exact ended
          · exact ended.trans (least other member)
        rw [List.map_congr_left same, List.map_id']
      next => rw [ih orderedRest, List.map_cons]

theorem pieces_length (start width : ℚ) (count : ℕ) : (Stretch.pieces start width count).length = count := by
  induction count with
  | zero => rfl
  | succ count ih => rw [Stretch.pieces, List.length_append, ih, List.length_singleton]

theorem pieces_get {start width : ℚ} {count index : ℕ} {piece : Stretch}
    (found : (Stretch.pieces start width count)[index]? = some piece) :
    piece = ⟨start + index * width, start + (index + 1) * width⟩ := by
  induction count with
  | zero => cases found
  | succ count ih =>
      rw [Stretch.pieces, List.getElem?_append] at found
      split at found
      · exact ih found
      next behind =>
        rw [pieces_length] at behind found
        rw [List.getElem?_singleton] at found
        split at found
        next same =>
          have index_eq : index = count := by omega
          cases found
          rw [index_eq]
        next => cases found

section history

variable {buckets : List Bucket}

/-- The buckets of a history cut its window into pieces. -/
def Cut (windowMs now : ℚ) (count : ℕ) (buckets : List Bucket) : Prop :=
  buckets.map (·.span) = Stretch.pieces (now - windowMs) (windowMs / count) count

theorem Cut.get (cut : Cut windowMs now count buckets) {index : ℕ} {bucket : Bucket}
    (found : buckets[index]? = some bucket) :
    bucket.span = ⟨now - windowMs + index * (windowMs / count), now - windowMs + (index + 1) * (windowMs / count)⟩ := by
  have piece : (Stretch.pieces (now - windowMs) (windowMs / count) count)[index]? = some bucket.span := by
    rw [← cut, List.getElem?_map, found]
    rfl
  exact pieces_get piece

theorem Cut.ordered (cut : Cut windowMs now count buckets) (wide : 0 ≤ windowMs / count) :
    buckets.Pairwise fun before after => before.span.start ≤ after.span.start := by
  rw [List.pairwise_iff_getElem]
  intro first last bound bound' less
  rw [cut.get (List.getElem?_eq_getElem bound), cut.get (List.getElem?_eq_getElem bound')]
  have indices : (first : ℚ) ≤ last := by exact_mod_cast less.le
  have scaled := mul_le_mul_of_nonneg_right indices wide
  dsimp only
  linarith

/-- A bucket before the one a part begins in has ended by then. -/
theorem Cut.skipped (cut : Cut windowMs now count buckets) (wide : 0 < windowMs / count) {part : Stretch}
    (begun : now - windowMs ≤ part.start) :
    ∀ bucket ∈ buckets.take (max 0 ⌊(part.start - (now - windowMs)) / (windowMs / count)⌋).toNat,
      bucket.span.stop ≤ part.start := by
  intro bucket member
  obtain ⟨index, bound, same⟩ := List.getElem_of_mem member
  have bounds : index < (max 0 ⌊(part.start - (now - windowMs)) / (windowMs / count)⌋).toNat ∧ index < buckets.length := by
    rw [List.length_take] at bound
    omega
  rw [List.getElem_take] at same
  rw [← same, cut.get (List.getElem?_eq_getElem bounds.2)]
  have nonneg : 0 ≤ (part.start - (now - windowMs)) / (windowMs / count) := by
    have ahead : 0 ≤ part.start - (now - windowMs) := by linarith
    positivity
  have floor : (index : ℤ) + 1 ≤ ⌊(part.start - (now - windowMs)) / (windowMs / count)⌋ := by
    have floored := Int.floor_nonneg.mpr nonneg
    omega
  have below : ((index : ℚ) + 1) ≤ (part.start - (now - windowMs)) / (windowMs / count) := by
    have cast := Int.le_floor.mp floor
    push_cast at cast
    exact cast
  rw [le_div_iff₀ wide] at below
  dsimp only
  linarith

theorem addPart_eq (cut : Cut windowMs now count buckets) (wide : 0 < windowMs / count) {status : ℤ} {part : Stretch}
    (begun : now - windowMs ≤ part.start) :
    addPart status part windowMs now count buckets = buckets.map (·.add status part) := by
  unfold addPart
  dsimp only
  have skipped := cut.skipped wide begun
  generalize (max 0 ⌊(part.start - (now - windowMs)) / (windowMs / count)⌋).toNat = first at skipped ⊢
  have ordered := (cut.ordered wide.le).sublist (List.drop_sublist first buckets)
  have same : ∀ bucket ∈ buckets.take first, bucket.add status part = bucket := fun bucket member =>
    add_nothing (overlap_of_behind (skipped bucket member))
  rw [addFrom_eq ordered]
  conv_rhs => rw [← List.take_append_drop first buckets, List.map_append, List.map_congr_left same, List.map_id']

theorem part_eq_clip (change : StatusChange) (next : Option StatusChange) (windowMs now : ℚ) :
    (⟨max (now - windowMs) change.observedAt, min now (min (change.observedUntil.getD change.observedAt)
      ((next.map (·.observedAt)).getD now))⟩ : Stretch) = clip change next windowMs now := by
  rw [clip, max_comm, min_comm now, min_assoc]

theorem historyStep_eq (cut : Cut windowMs now count buckets) (wide : 0 < windowMs / count) :
    historyStep change next windowMs now count buckets =
      buckets.map (·.counted (change.status, clip change next windowMs now)) := by
  unfold historyStep
  rw [part_eq_clip]
  have begun := (clip_within change next windowMs now).1
  generalize clip change next windowMs now = part at begun ⊢
  dsimp only
  split
  next unknown =>
    have same : ∀ bucket ∈ buckets, bucket.counted (change.status, part) = bucket := fun bucket _ => if_pos unknown
    rw [List.map_congr_left same, List.map_id']
  next known =>
    have counts : ∀ bucket ∈ buckets, bucket.counted (change.status, part) = bucket.add change.status part :=
      fun bucket _ => if_neg known
    rw [List.map_congr_left counts]
    split
    next empty =>
      have same : ∀ bucket ∈ buckets, bucket.add change.status part = bucket := fun bucket _ =>
        add_nothing (overlap_of_empty empty)
      rw [List.map_congr_left same, List.map_id']
    next => exact addPart_eq cut wide begun

theorem counted_span (bucket : Bucket) (part : ℤ × Stretch) : (bucket.counted part).span = bucket.span := by
  unfold Bucket.counted
  split <;> rfl

theorem Cut.counted (cut : Cut windowMs now count buckets) (part : ℤ × Stretch) :
    Cut windowMs now count (buckets.map (·.counted part)) := by
  rw [Cut, List.map_map]
  exact (List.map_congr_left fun bucket _ => counted_span bucket part).trans cut

/-- A bucket with all parts counted -/
def Bucket.countAll (parts : List (ℤ × Stretch)) (bucket : Bucket) : Bucket := parts.foldl Bucket.counted bucket

theorem historyFrom_eq (cut : Cut windowMs now count buckets) (wide : 0 < windowMs / count) :
    historyFrom sorted windowMs now count buckets = buckets.map (Bucket.countAll (clips windowMs now sorted)) := by
  induction sorted generalizing buckets with
  | nil => exact (List.map_id' _).symm
  | cons change rest ih =>
      rw [historyFrom, historyStep_eq cut wide, ih (cut.counted _), List.map_map]
      rfl

/-- The part of the known statuses, or of the running ones, in a bucket -/
def shareIn (statuses : ℤ → Bool) (parts : List (ℤ × Stretch)) (window : Stretch) : ℚ :=
  (parts.map fun part => if statuses part.1 then part.2.overlap window else 0).sum

theorem shareIn_nonneg (statuses : ℤ → Bool) (parts : List (ℤ × Stretch)) (window : Stretch) :
    0 ≤ shareIn statuses parts window := by
  refine List.sum_nonneg fun length member => ?_
  obtain ⟨part, -, rfl⟩ := List.mem_map.mp member
  split
  · exact Stretch.overlap_nonneg _ _
  · exact le_refl 0

theorem shareIn_le_shareIn {fewer more : ℤ → Bool} (included : ∀ status, fewer status = true → more status = true)
    (parts : List (ℤ × Stretch)) (window : Stretch) : shareIn fewer parts window ≤ shareIn more parts window := by
  refine List.sum_le_sum fun part _ => ?_
  cases chosen : fewer part.1 with
  | true =>
      rw [included part.1 chosen]
  | false =>
      simp only [Bool.false_eq_true, if_false]
      split
      · exact Stretch.overlap_nonneg _ _
      · exact le_refl 0

theorem countAll_eq (parts : List (ℤ × Stretch)) (bucket : Bucket) :
    (bucket.countAll parts).span = bucket.span ∧
      (bucket.countAll parts).knownMs = bucket.knownMs + shareIn isKnown parts bucket.span ∧
      (bucket.countAll parts).runningMs = bucket.runningMs + shareIn isHealthyStatus parts bucket.span := by
  induction parts generalizing bucket with
  | nil => simp [Bucket.countAll, shareIn]
  | cons part rest ih =>
      obtain ⟨span, known, running⟩ := ih (bucket.counted part)
      have counted : bucket.countAll (part :: rest) = (bucket.counted part).countAll rest := rfl
      rw [counted, span, known, running, counted_span]
      have knownPart : (bucket.counted part).knownMs = bucket.knownMs +
          if isKnown part.1 then part.2.overlap bucket.span else 0 := by
        unfold Bucket.counted
        by_cases unknown : part.1 = UNKNOWN
        · simp [unknown, isKnown]
        · simp [unknown, isKnown, Bucket.add]
      have runningPart : (bucket.counted part).runningMs = bucket.runningMs +
          if isHealthyStatus part.1 then part.2.overlap bucket.span else 0 := by
        unfold Bucket.counted
        by_cases unknown : part.1 = UNKNOWN
        · simp [unknown, isHealthyStatus, UNKNOWN, RUNNING]
        · simp [unknown, isHealthyStatus, Bucket.add]
      simp only [knownPart, runningPart, shareIn, List.map_cons, List.sum_cons, add_assoc, and_self]

/-- Over all pieces of the window, a part counts as long as it is. -/
theorem sum_shareIn (positive : 0 < windowMs) (some_ : 0 < count) (statuses : ℤ → Bool)
    {parts : List (ℤ × Stretch)} (within : ∀ part ∈ parts, now - windowMs ≤ part.2.start ∧ part.2.stop ≤ now) :
    ((Stretch.pieces (now - windowMs) (windowMs / count) count).map (shareIn statuses parts)).sum =
      share statuses parts := by
  have counted : (0 : ℚ) < count := by exact_mod_cast some_
  have wide : 0 < windowMs / count := div_pos positive counted
  have whole : now - windowMs + count * (windowMs / count) = now := by
    rw [mul_div_cancel₀ _ counted.ne']
    linarith
  induction parts with
  | nil =>
      have none_ : ∀ piece ∈ Stretch.pieces (now - windowMs) (windowMs / count) count,
          shareIn statuses [] piece = 0 := fun piece _ => rfl
      rw [List.map_congr_left none_, List.sum_map_zero]
      rfl
  | cons part rest ih =>
      have others := ih fun other member => within other (List.mem_cons_of_mem _ member)
      obtain ⟨first, last⟩ := within part List.mem_cons_self
      have own : ((Stretch.pieces (now - windowMs) (windowMs / count) count).map part.2.overlap).sum = part.2.length := by
        rcases le_total part.2.start part.2.stop with proper | inverted
        · exact Stretch.sum_overlap_pieces_eq proper wide.le first (by rw [whole]; exact last)
        · have none_ : ∀ piece ∈ Stretch.pieces (now - windowMs) (windowMs / count) count,
              part.2.overlap piece = 0 := fun piece _ => overlap_of_empty inverted
          rw [List.map_congr_left none_, Stretch.length, max_eq_left (by linarith)]
          simp
      have split : (shareIn statuses (part :: rest)) = fun window =>
          (if statuses part.1 then part.2.overlap window else 0) + shareIn statuses rest window := by
        funext window
        simp [shareIn]
      rw [split, List.sum_map_add, others]
      simp only [share, List.map_cons, List.sum_cons]
      congr 1
      cases statuses part.1 with
      | true => simpa using own
      | false => simp

theorem emptyBuckets_cut (windowMs now : ℚ) (count : ℕ) : Cut windowMs now count (emptyBuckets windowMs now count) := by
  rw [Cut, emptyBuckets, List.map_map]
  exact List.map_id' _

theorem attributed_eq (positive : 0 < windowMs) (some_ : 0 < count) :
    attributed changes windowMs now count = (Stretch.pieces (now - windowMs) (windowMs / count) count).map fun span =>
      Bucket.countAll (clips windowMs now (sortBy (·.observedAt) changes)) { span := span } := by
  have wide : 0 < windowMs / count := div_pos positive (by exact_mod_cast some_)
  rw [attributed, historyFrom_eq (emptyBuckets_cut windowMs now count) wide, emptyBuckets, List.map_map]
  rfl

theorem piece_width {start width : ℚ} : ∀ piece ∈ Stretch.pieces start width count, piece.stop - piece.start = width := by
  induction count with
  | zero => simp [Stretch.pieces]
  | succ count ih =>
      intro piece member
      obtain held | held := List.mem_append.mp member
      · exact ih piece held
      · rw [List.mem_singleton.mp held]
        dsimp only
        ring

/-- No bucket is filled beyond its width. -/
theorem attributed_bounded (positive : 0 < windowMs) (some_ : 0 < count) :
    ∀ bucket ∈ attributed changes windowMs now count,
      0 ≤ bucket.runningMs ∧ bucket.runningMs ≤ bucket.knownMs ∧ bucket.knownMs ≤ bucket.span.stop - bucket.span.start := by
  have wide : 0 < windowMs / count := div_pos positive (by exact_mod_cast some_)
  rw [attributed_eq positive some_]
  intro bucket member
  obtain ⟨span, cut, rfl⟩ := List.mem_map.mp member
  have proper : span.stop - span.start = windowMs / count := piece_width span cut
  obtain ⟨spans, known, running⟩ := countAll_eq (clips windowMs now (sortBy (·.observedAt) changes)) { span := span }
  rw [spans, known, running]
  simp only [zero_add]
  have ordered : SortedBy StatusChange.observedAt (sortBy StatusChange.observedAt changes) := sortBy_sorted changes
  have apart := clips_apart windowMs now ordered
  generalize clips windowMs now (sortBy (·.observedAt) changes) = parts at apart ⊢
  refine ⟨shareIn_nonneg _ _ _, shareIn_le_shareIn (fun status healthy => ?_) _ _, ?_⟩
  · rw [isKnown, decide_eq_true_eq, of_decide_eq_true healthy]
    decide
  · have filled := Stretch.sum_overlap_le span apart (by linarith)
    rw [List.map_map] at filled
    refine (List.sum_le_sum fun part held => ?_).trans filled
    split
    · exact le_refl _
    · exact Stretch.overlap_nonneg _ _

/-- The buckets hold the time that is measured, each status its own. -/
theorem attributed_sums (changes : List StatusChange) (now : ℚ) (positive : 0 < windowMs) (some_ : 0 < count) :
    ((attributed changes windowMs now count).map (·.knownMs)).sum =
        (measure (sortedChanges changes now) windowMs now).coveredMs ∧
      ((attributed changes windowMs now count).map (·.runningMs)).sum =
        (measure (sortedChanges changes now) windowMs now).healthyMs := by
  rw [measure_sortedChanges]
  obtain ⟨covered, healthy, -⟩ := measure_shares (sortBy (·.observedAt) changes) windowMs now
  rw [covered, healthy, attributed_eq positive some_, List.map_map, List.map_map]
  have within := clips_within (sortBy (·.observedAt) changes) windowMs now
  generalize clips windowMs now (sortBy (·.observedAt) changes) = parts at within ⊢
  rw [← sum_shareIn positive some_ isKnown within, ← sum_shareIn positive some_ isHealthyStatus within]
  constructor
  · congr 1
    refine List.map_congr_left fun span _ => ?_
    rw [Function.comp_apply, (countAll_eq parts _).2.1, zero_add]
  · congr 1
    refine List.map_congr_left fun span _ => ?_
    rw [Function.comp_apply, (countAll_eq parts _).2.2, zero_add]

/-- Shown as a coverage, the time of a bucket is its part of the width. -/
theorem shown_covers (positive : 0 < windowMs) (some_ : 0 < count) :
    (buildStabilityHistory changes windowMs now count).map (fun shown => shown.coverage * (shown.span.stop - shown.span.start)) =
      (attributed changes windowMs now count).map (·.knownMs) := by
  have wide : 0 < windowMs / count := div_pos positive (by exact_mod_cast some_)
  rw [buildStabilityHistory, List.map_map]
  refine List.map_congr_left fun bucket member => ?_
  obtain ⟨-, -, bounded⟩ := attributed_bounded positive some_ bucket member
  have spans : bucket.span.stop - bucket.span.start = windowMs / count := by
    rw [attributed_eq positive some_] at member
    obtain ⟨span, cut, rfl⟩ := List.mem_map.mp member
    rw [(countAll_eq _ _).1]
    exact piece_width span cut
  rw [Function.comp_apply, Bucket.shown]
  dsimp only
  rw [spans] at bounded ⊢
  rw [min_eq_right ((div_le_one wide).mpr bounded), div_mul_cancel₀ _ wide.ne']

end history

end Dockge.Observation.Exact
