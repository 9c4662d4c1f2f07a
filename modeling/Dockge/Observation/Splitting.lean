import Dockge.Observation.ExactSound

namespace Dockge.Observation.Exact

open Dockge.Data

/-! An interval split in two, and what is measured of it. -/

variable {before after low high rest : List StatusChange} {change : StatusChange} {moment windowMs now : ℚ}

/-- The two halves of an interval have its status. -/
def firstHalf (change : StatusChange) (moment : ℚ) : StatusChange := { change with observedUntil := some moment }

def secondHalf (change : StatusChange) (moment : ℚ) : StatusChange := { change with observedAt := moment }

/-- The point lies inside the interval, and before whatever is measured after the interval. -/
structure InnerPoint (before after : List StatusChange) (change : StatusChange) (moment : ℚ) : Prop where
  begun : change.observedAt < moment
  ends : moment < change.observedUntil.getD change.observedAt
  earlier : ∀ other ∈ before, other.observedAt ≤ change.observedAt ∨ moment < other.observedAt
  later : ∀ other ∈ after, other.observedAt < change.observedAt ∨ moment < other.observedAt

/-! ## Where the halves stand -/

def sortedBefore (before after : List StatusChange) (change : StatusChange) : List StatusChange :=
  sortBy (·.observedAt) (before.filter (·.observedAt ≤ change.observedAt) ++ after.filter (·.observedAt < change.observedAt))

def sortedBehind (before after : List StatusChange) (change : StatusChange) : List StatusChange :=
  sortBy (·.observedAt) (before.filter (change.observedAt < ·.observedAt) ++ after.filter (change.observedAt ≤ ·.observedAt))

theorem behind_inner (inner : InnerPoint before after change moment) :
    ∀ other ∈ sortedBehind before after change, moment < other.observedAt := by
  intro other member
  obtain held | held := List.mem_append.mp ((sortBy_perm _).subset member)
  · obtain ⟨listed, behind⟩ := List.mem_filter.mp held
    exact (inner.earlier other listed).resolve_left (not_le.mpr (of_decide_eq_true behind))
  · obtain ⟨listed, behind⟩ := List.mem_filter.mp held
    exact (inner.later other listed).resolve_left (not_lt.mpr (of_decide_eq_true behind))

theorem sorted_whole (before after : List StatusChange) (change : StatusChange) :
    sortBy (·.observedAt) (before ++ change :: after) =
      sortedBefore before after change ++ change :: sortedBehind before after change :=
  sortBy_insert before after change

theorem sorted_halves (inner : InnerPoint before after change moment) :
    sortBy (·.observedAt) (before ++ firstHalf change moment :: secondHalf change moment :: after) =
      sortedBefore before after change ++
        firstHalf change moment :: secondHalf change moment :: sortedBehind before after change := by
  rw [@sortBy_insert _ _ _ StatusChange.observedAt]
  have left : (secondHalf change moment :: after).filter (·.observedAt < (firstHalf change moment).observedAt) =
      after.filter (·.observedAt < change.observedAt) := by
    rw [List.filter_cons_of_neg]
    · rfl
    · exact fun held => absurd (of_decide_eq_true held) (not_lt.mpr inner.begun.le)
  have right : (secondHalf change moment :: after).filter ((firstHalf change moment).observedAt ≤ ·.observedAt) =
      secondHalf change moment :: after.filter (change.observedAt ≤ ·.observedAt) := by
    rw [List.filter_cons_of_pos]
    · rfl
    · exact decide_eq_true inner.begun.le
  rw [left, right]
  have behind := behind_inner inner
  have early : ∀ other ∈ before.filter (change.observedAt < ·.observedAt) ++ after.filter (change.observedAt ≤ ·.observedAt),
      moment < other.observedAt := fun other member => behind other ((sortBy_perm _).symm.subset member)
  have order : sortBy (·.observedAt) (before.filter (change.observedAt < ·.observedAt) ++
      secondHalf change moment :: after.filter (change.observedAt ≤ ·.observedAt)) =
        secondHalf change moment :: sortedBehind before after change := by
    refine sortBy_eq ?_ fun value => ?_
    · refine List.pairwise_cons.mpr ⟨fun other member => (behind other member).le, sortBy_sorted _⟩
    · rw [List.filter_cons, List.filter_append, List.filter_cons, sortedBehind, filter_sortBy, List.filter_append]
      split
      next own =>
        have none_ : (before.filter (change.observedAt < ·.observedAt)).filter (·.observedAt = value) = [] := by
          rw [List.filter_eq_nil_iff]
          intro other member
          have past := early other (List.mem_append_left _ member)
          have same : moment = value := of_decide_eq_true own
          simpa [← same] using past.ne'
        rw [none_]
        rfl
      next => rfl
  exact congrArg (sortedBefore before after change ++ firstHalf change moment :: ·) order

/-! ## Measuring the halves -/

/-- The loop over the intervals before one of them -/
def measureUntil (low : List StatusChange) (following : StatusChange) (windowMs now : ℚ) (soFar : Measuring) : Measuring :=
  match low with
  | [] => soFar
  | change :: rest =>
      measureUntil rest following windowMs now
        (measureStep change (some (rest.head?.getD following)) windowMs now soFar)

theorem measureFrom_append (low : List StatusChange) (following : StatusChange) (rest : List StatusChange) (windowMs now : ℚ)
    (soFar : Measuring) : measureFrom (low ++ following :: rest) windowMs now soFar =
      measureFrom (following :: rest) windowMs now (measureUntil low following windowMs now soFar) := by
  induction low generalizing soFar with
  | nil => rfl
  | cons change others ih =>
      have next : (others ++ following :: rest).head? = some (others.head?.getD following) := by
        cases others <;> rfl
      rw [List.cons_append, measureFrom, next, ih]
      rfl

/-- Only the start of the following interval counts. -/
theorem measureUntil_start {following other : StatusChange} (same : following.observedAt = other.observedAt)
    (low : List StatusChange) (windowMs now : ℚ) (soFar : Measuring) :
    measureUntil low following windowMs now soFar = measureUntil low other windowMs now soFar := by
  induction low generalizing soFar with
  | nil => rfl
  | cons change rest ih =>
      have part : clip change (some (rest.head?.getD following)) windowMs now =
          clip change (some (rest.head?.getD other)) windowMs now := by
        cases rest with
        | nil => simp only [clip, List.head?_nil, Option.getD_none, Option.map_some, Option.getD_some, same]
        | cons => rfl
      have step : measureStep change (some (rest.head?.getD following)) windowMs now soFar =
          measureStep change (some (rest.head?.getD other)) windowMs now soFar := by
        simp only [measureStep, part]
      rw [measureUntil, measureUntil, step, ih]

/-- Inside an incident, something in the window ended before the following interval. -/
def InsideWindow (windowMs now start : ℚ) (soFar : Measuring) : Prop :=
  soFar.insideIncident = true → now - windowMs < start

theorem measureStep_inside (change : StatusChange) (following : StatusChange) (windowMs now : ℚ) (soFar : Measuring) :
    InsideWindow windowMs now following.observedAt (measureStep change (some following) windowMs now soFar) := by
  intro inside
  unfold measureStep at inside
  dsimp only at inside
  split at inside
  next => cases inside
  next proper =>
    have longer := not_le.mp (not_or.mp proper).2
    have first := (clip_within change (some following) windowMs now).1
    have last : (clip change (some following) windowMs now).stop ≤ following.observedAt :=
      (min_le_right _ _).trans (min_le_left _ _)
    exact first.trans_lt (longer.trans_le last)

theorem measureUntil_inside (low : List StatusChange) (following : StatusChange) (windowMs now : ℚ) {soFar : Measuring}
    (inside : low = [] → InsideWindow windowMs now following.observedAt soFar) :
    InsideWindow windowMs now following.observedAt (measureUntil low following windowMs now soFar) := by
  induction low generalizing soFar with
  | nil => exact inside rfl
  | cons change rest ih =>
      refine ih fun last => ?_
      rw [last]
      exact measureStep_inside change following windowMs now soFar

/-- How far an interval counts when what follows begins behind a point inside it -/
theorem clip_stop (inner : moment < change.observedUntil.getD change.observedAt) {next : Option StatusChange}
    (follows : ∀ other, next = some other → moment < other.observedAt) (reached : moment < now) :
    moment < (clip change next windowMs now).stop := by
  refine lt_min inner (lt_min ?_ reached)
  cases next with
  | none => exact reached
  | some other => exact follows other rfl

theorem secondHalf_ends (inner : moment < change.observedUntil.getD change.observedAt) (begun : change.observedAt < moment) :
    change.observedUntil.getD moment = change.observedUntil.getD change.observedAt := by
  cases stopped : change.observedUntil with
  | some => rfl
  | none =>
      rw [stopped] at inner
      exact absurd inner (not_lt.mpr begun.le)

/-- What a step does, from the status and the part that counts -/
def countPart (status : ℤ) (part : Stretch) (soFar : Measuring) : Measuring :=
  if status = UNKNOWN ∨ part.stop ≤ part.start then { soFar with insideIncident := false }
  else
    { measured :=
        { coveredMs := soFar.measured.coveredMs + (part.stop - part.start)
          healthyMs := soFar.measured.healthyMs + if isHealthyStatus status then part.stop - part.start else 0
          stoppedMs := soFar.measured.stoppedMs + if isStopped status then part.stop - part.start else 0
          incidents := soFar.measured.incidents +
            if decide (status = ATTENTION) && (!soFar.insideIncident || soFar.lastEnd.all (· < part.start)) then 1 else 0 }
      lastEnd := some part.stop
      insideIncident := decide (status = ATTENTION) }

theorem measureStep_eq (change : StatusChange) (next : Option StatusChange) (windowMs now : ℚ) (soFar : Measuring) :
    measureStep change next windowMs now soFar = countPart change.status (clip change next windowMs now) soFar := rfl

theorem countPart_proper {status : ℤ} {start stop : ℚ} (known : status ≠ UNKNOWN) (proper : start < stop)
    (soFar : Measuring) : countPart status ⟨start, stop⟩ soFar =
    { measured :=
        { coveredMs := soFar.measured.coveredMs + (stop - start)
          healthyMs := soFar.measured.healthyMs + if isHealthyStatus status then stop - start else 0
          stoppedMs := soFar.measured.stoppedMs + if isStopped status then stop - start else 0
          incidents := soFar.measured.incidents +
            if decide (status = ATTENTION) && (!soFar.insideIncident || soFar.lastEnd.all (· < start)) then 1 else 0 }
      lastEnd := some stop
      insideIncident := decide (status = ATTENTION) } :=
  if_neg (not_or.mpr ⟨known, not_le.mpr proper⟩)

/-- Two parts that meet count as one, and the second one is no incident of its own. -/
theorem countPart_halves {status : ℤ} {start stop : ℚ} (begun : start < moment) (ends : moment < stop) (soFar : Measuring) :
    countPart status ⟨moment, stop⟩ (countPart status ⟨start, moment⟩ soFar) = countPart status ⟨start, stop⟩ soFar := by
  by_cases known : status = UNKNOWN
  · simp [countPart, known]
  · rw [countPart_proper known begun, countPart_proper known ends, countPart_proper known (begun.trans ends)]
    congr 2
    · ring
    · dsimp only
      split
      · ring
      · ring
    · dsimp only
      split
      · ring
      · ring
    · simp

theorem halves_between (inner : moment < change.observedUntil.getD change.observedAt) (begun : change.observedAt < moment)
    {next : Option StatusChange} (follows : ∀ other, next = some other → moment < other.observedAt)
    (opened : now - windowMs < moment) (reached : moment < now) (soFar : Measuring) :
    measureStep (secondHalf change moment) next windowMs now
        (measureStep (firstHalf change moment) (some (secondHalf change moment)) windowMs now soFar) =
      measureStep change next windowMs now soFar := by
  have first : clip (firstHalf change moment) (some (secondHalf change moment)) windowMs now =
      ⟨(clip change next windowMs now).start, moment⟩ := by
    simp [clip, firstHalf, secondHalf, reached.le]
  have second : clip (secondHalf change moment) next windowMs now = ⟨moment, (clip change next windowMs now).stop⟩ := by
    simp only [clip, secondHalf, secondHalf_ends inner begun, max_eq_left opened.le]
  rw [measureStep_eq, measureStep_eq, measureStep_eq, first, second]
  exact countPart_halves (max_lt begun opened) (clip_stop inner follows reached) soFar

/-- A point before the window: the first half does not count, and no incident goes on. -/
theorem halves_early (inner : moment < change.observedUntil.getD change.observedAt) (begun : change.observedAt < moment)
    {next : Option StatusChange} (early : moment ≤ now - windowMs) {soFar : Measuring}
    (inside : InsideWindow windowMs now change.observedAt soFar) :
    measureStep (secondHalf change moment) next windowMs now
        (measureStep (firstHalf change moment) (some (secondHalf change moment)) windowMs now soFar) =
      measureStep change next windowMs now soFar := by
  have empty : (clip (firstHalf change moment) (some (secondHalf change moment)) windowMs now).stop ≤
      (clip (firstHalf change moment) (some (secondHalf change moment)) windowMs now).start :=
    (min_le_left _ _).trans (early.trans (le_max_right _ _))
  have outside : soFar.insideIncident = false := by
    cases going : soFar.insideIncident with
    | false => rfl
    | true => exact absurd (inside going) (not_lt.mpr (begun.le.trans early))
  have same : clip (secondHalf change moment) next windowMs now = clip change next windowMs now := by
    simp only [clip, secondHalf, secondHalf_ends inner begun, max_eq_right early, max_eq_right (begun.le.trans early)]
  have untouched : { soFar with insideIncident := false } = soFar := by rw [← outside]
  rw [measureStep_empty empty, untouched, measureStep_eq, measureStep_eq, same]
  rfl

/-- A point behind now: only the first half counts. -/
theorem halves_late (inner : moment < change.observedUntil.getD change.observedAt)
    (follows : ∀ other ∈ high, moment < other.observedAt) (late : now ≤ moment) (soFar : Measuring) :
    (measureFrom high windowMs now (measureStep (secondHalf change moment) high.head? windowMs now
        (measureStep (firstHalf change moment) (some (secondHalf change moment)) windowMs now soFar))).measured =
      (measureFrom high windowMs now (measureStep change high.head? windowMs now soFar)).measured := by
  have future : ∀ other ∈ high, now ≤ other.observedAt := fun other member => late.trans (follows other member).le
  have next : now ≤ (high.head?.map (·.observedAt)).getD now := by
    cases found : high.head? with
    | none => exact le_refl _
    | some other => exact future other (List.mem_of_head? found)
  have same : clip (firstHalf change moment) (some (secondHalf change moment)) windowMs now =
      clip change high.head? windowMs now := by
    simp only [clip, firstHalf, secondHalf, Option.map_some, Option.getD_some, min_eq_right next, min_eq_right late,
      min_eq_right (late.trans inner.le)]
  have empty : (clip (secondHalf change moment) high.head? windowMs now).stop ≤
      (clip (secondHalf change moment) high.head? windowMs now).start := clip_future late
  rw [measureFrom_future future, measureFrom_future future, measureStep_empty empty, measureStep_eq, measureStep_eq, same]
  rfl

theorem measure_halves (inner : moment < change.observedUntil.getD change.observedAt) (begun : change.observedAt < moment)
    (follows : ∀ other ∈ high, moment < other.observedAt) (low : List StatusChange) (windowMs now : ℚ) :
    measure (low ++ firstHalf change moment :: secondHalf change moment :: high) windowMs now =
      measure (low ++ change :: high) windowMs now := by
  have next : ∀ other, high.head? = some other → moment < other.observedAt := fun other found =>
    follows other (List.mem_of_head? found)
  have inside : InsideWindow windowMs now change.observedAt (measureUntil low change windowMs now {}) :=
    measureUntil_inside low change windowMs now fun _ held => nomatch held
  rw [measure, measure, measureFrom_append, measureFrom_append,
    measureUntil_start (show (firstHalf change moment).observedAt = change.observedAt from rfl)]
  generalize measureUntil low change windowMs now {} = soFar at inside ⊢
  rw [measureFrom, measureFrom, measureFrom, List.head?_cons]
  rcases le_or_gt now moment with late | reached
  · exact halves_late inner follows late soFar
  · rcases le_or_gt moment (now - windowMs) with early | opened
    · rw [halves_early inner begun early inside]
    · rw [halves_between inner begun next opened reached]

theorem measure_splits (inner : InnerPoint before after change moment) (windowMs now : ℚ) :
    measure (sortedChanges (before ++ firstHalf change moment :: secondHalf change moment :: after) now) windowMs now =
      measure (sortedChanges (before ++ change :: after) now) windowMs now := by
  rw [measure_sortedChanges, measure_sortedChanges, sorted_halves inner, sorted_whole]
  exact measure_halves inner.ends inner.begun (behind_inner inner) _ windowMs now

/-! ## What is shown of the measured times -/

variable {changes : List StatusChange}

def ratioOf (measured : Measured) : Option ℚ :=
  if measured.coveredMs ≠ 0 ∧ measured.stoppedMs ≠ measured.coveredMs ∧ MIN_COVERAGE_MS ≤ measured.coveredMs then
    some (measured.healthyMs / measured.coveredMs)
  else none

def verdictOf (measured : Measured) : AvailabilityVerdict :=
  if measured.coveredMs = 0 then .noData
  else if measured.stoppedMs = measured.coveredMs then .stopped
  else if MIN_COVERAGE_MS ≤ measured.coveredMs then
    if measured.healthyMs = measured.coveredMs then .clean else .degraded
  else .noData

theorem computeAvailability_shows (changes : List StatusChange) (now : ℚ) (positive : 0 < windowMs) :
    (computeAvailability changes windowMs now).coveredMs = (measure (sortedChanges changes now) windowMs now).coveredMs ∧
      (computeAvailability changes windowMs now).incidents = (measure (sortedChanges changes now) windowMs now).incidents ∧
      (computeAvailability changes windowMs now).ratio = ratioOf (measure (sortedChanges changes now) windowMs now) ∧
      (computeAvailability changes windowMs now).verdict = verdictOf (measure (sortedChanges changes now) windowMs now) := by
  unfold computeAvailability ratioOf verdictOf
  rw [if_neg (not_le.mpr positive)]
  dsimp only
  generalize measure (sortedChanges changes now) windowMs now = measured
  cases describeCurrent (sortedChanges changes now).getLast? now with
  | none =>
      dsimp only
      split
      next none_ => simp [none_]
      next some_ =>
        split
        next stopped => simp [some_, stopped]
        next running =>
          split
          next enough => simp [some_, running, enough]
          next short => simp [short]
  | some current =>
      dsimp only
      split
      next none_ => simp [none_]
      next some_ =>
        split
        next stopped => simp [some_, stopped]
        next running =>
          split
          next enough => simp [some_, running, enough]
          next short => simp [short]

/-- No time counts twice, and none outside the window. -/
theorem measure_bounded (changes : List StatusChange) (now : ℚ) (positive : 0 < windowMs) :
    0 ≤ (measure (sortedChanges changes now) windowMs now).healthyMs ∧
      0 ≤ (measure (sortedChanges changes now) windowMs now).stoppedMs ∧
      (measure (sortedChanges changes now) windowMs now).healthyMs +
        (measure (sortedChanges changes now) windowMs now).stoppedMs ≤
          (measure (sortedChanges changes now) windowMs now).coveredMs ∧
      (measure (sortedChanges changes now) windowMs now).coveredMs ≤ windowMs := by
  obtain ⟨covered, healthy, stopped⟩ := measure_shares (sortedChanges changes now) windowMs now
  rw [covered, healthy, stopped]
  have ordered : SortedBy (·.observedAt) (sortedChanges changes now) := sortBy_sorted _
  exact ⟨share_nonneg _ _, share_nonneg _ _, share_add_le _, share_le ordered positive isKnown⟩

theorem ratioOf_bounded {measured : Measured} (nonneg : 0 ≤ measured.healthyMs) (least : 0 ≤ measured.stoppedMs)
    (most : measured.healthyMs + measured.stoppedMs ≤ measured.coveredMs) {ratio : ℚ} (found : ratioOf measured = some ratio) :
    0 ≤ ratio ∧ ratio ≤ 1 := by
  unfold ratioOf at found
  split at found
  next shown =>
    cases found
    have positive : 0 < measured.coveredMs := lt_of_le_of_ne (by linarith) shown.1.symm
    exact ⟨div_nonneg nonneg positive.le, (div_le_one positive).mpr (by linarith)⟩
  next => cases found

theorem verdictOf_clean (measured : Measured) : verdictOf measured = .clean ↔ ratioOf measured = some 1 := by
  unfold verdictOf ratioOf
  by_cases none_ : measured.coveredMs = 0
  · simp [none_]
  · by_cases stopped : measured.stoppedMs = measured.coveredMs
    · simp [none_, stopped]
    · by_cases enough : MIN_COVERAGE_MS ≤ measured.coveredMs
      · simp only [none_, stopped, enough, if_false, if_true, ne_eq, not_false_eq_true, and_self, Option.some.injEq,
          div_eq_one_iff_eq none_]
        split
        next full => simp [full]
        next short => simp [short]
      · simp [none_, stopped, enough]

theorem availability_sound (changes : List StatusChange) (windowMs now : ℚ) (positive : 0 < windowMs) :
    let measured := measure (sortedChanges changes now) windowMs now
    let availability := computeAvailability changes windowMs now
    availability.coveredMs = measured.coveredMs ∧
      0 ≤ measured.healthyMs ∧ 0 ≤ measured.stoppedMs ∧
      measured.healthyMs + measured.stoppedMs ≤ measured.coveredMs ∧ measured.coveredMs ≤ windowMs ∧
      (∀ ratio, availability.ratio = some ratio → 0 ≤ ratio ∧ ratio ≤ 1) ∧
      (availability.verdict = .clean ↔ availability.ratio = some 1) ∧
      (∀ before change after moment, changes = before ++ change :: after → InnerPoint before after change moment →
        let halved := computeAvailability (before ++ firstHalf change moment :: secondHalf change moment :: after) windowMs now
        halved.coveredMs = availability.coveredMs ∧ halved.ratio = availability.ratio ∧
          halved.verdict = availability.verdict ∧ halved.incidents = availability.incidents) ∧
      (∀ count, 0 < count →
        ((buildStabilityHistory changes windowMs now count).map
          fun shown => shown.coverage * (shown.span.stop - shown.span.start)).sum = measured.coveredMs ∧
        ((attributed changes windowMs now count).map (·.knownMs)).sum = measured.coveredMs ∧
        ((attributed changes windowMs now count).map (·.runningMs)).sum = measured.healthyMs ∧
        ∀ bucket ∈ attributed changes windowMs now count,
          0 ≤ bucket.runningMs ∧ bucket.runningMs ≤ bucket.knownMs ∧
            bucket.knownMs ≤ bucket.span.stop - bucket.span.start) := by
  dsimp only
  obtain ⟨nonneg, least, most, fits⟩ := measure_bounded changes now positive
  obtain ⟨covered, incidents, ratio, verdict⟩ := computeAvailability_shows changes now positive
  refine ⟨covered, nonneg, least, most, fits, ?_, ?_, ?_, ?_⟩
  · intro value found
    rw [ratio] at found
    exact ratioOf_bounded nonneg least most found
  · rw [ratio, verdict]
    exact verdictOf_clean _
  · intro before change after moment split inner
    subst split
    have same := measure_splits inner windowMs now
    obtain ⟨covered', incidents', ratio', verdict'⟩ := computeAvailability_shows
      (before ++ firstHalf change moment :: secondHalf change moment :: after) now positive
    rw [covered, incidents, ratio, verdict, covered', incidents', ratio', verdict', same]
    exact ⟨rfl, rfl, rfl, rfl⟩
  · intro count some_
    obtain ⟨known, running⟩ := attributed_sums changes now positive some_
    rw [shown_covers positive some_]
    exact ⟨known, known, running, attributed_bounded positive some_⟩

/-- A minute of running, then half a minute stopped -/
def twoChanges : List StatusChange := [⟨RUNNING, 0, some 60⟩, ⟨EXITED, 60, some 90⟩]

theorem availability_sound_two : 0 < (100 : ℚ) ∧ (computeAvailability twoChanges 100 100).coveredMs ≤ 100 :=
  ⟨by norm_num, by
    have sound := availability_sound twoChanges 100 100 (by norm_num)
    exact sound.1.trans_le sound.2.2.2.2.1⟩

/-- Ten of running, and three of them reported again from the second on -/
def overlapping : StatusChange × StatusChange := (⟨RUNNING, 0, some 10⟩, ⟨RUNNING, 2, some 3⟩)

theorem sorted_overlapping : sortedChanges [overlapping.1, overlapping.2] 50 = [overlapping.1, overlapping.2] := by
  have past : [overlapping.1, overlapping.2].filter (·.observedAt ≤ 50) = [overlapping.1, overlapping.2] := by
    decide +kernel
  rw [sortedChanges, past]
  simp [sortBy, overlapping, List.mergeSort, List.MergeSort.Internal.splitInTwo]

theorem sorted_overlapping_halves :
    sortedChanges [firstHalf overlapping.1 5, secondHalf overlapping.1 5, overlapping.2] 50 =
      [firstHalf overlapping.1 5, overlapping.2, secondHalf overlapping.1 5] := by
  have past : [firstHalf overlapping.1 5, secondHalf overlapping.1 5, overlapping.2].filter (·.observedAt ≤ 50) =
      [firstHalf overlapping.1 5, secondHalf overlapping.1 5, overlapping.2] := by decide +kernel
  rw [sortedChanges, past]
  simp [sortBy, overlapping, firstHalf, secondHalf, List.mergeSort, List.MergeSort.Internal.splitInTwo,
    List.cons_merge_cons]
  norm_num

/-- Where another interval begins before the point, the time behind the point counts in the second half only. -/
theorem late_half_counts :
    overlapping.1.observedAt < 5 ∧ (5 : ℚ) < overlapping.1.observedUntil.getD 0 ∧
      (computeAvailability [overlapping.1, overlapping.2] 100 50).coveredMs = 3 ∧
      (computeAvailability [firstHalf overlapping.1 5, secondHalf overlapping.1 5, overlapping.2] 100 50).coveredMs = 8 := by
  obtain ⟨whole, -⟩ := computeAvailability_shows [overlapping.1, overlapping.2] 50 (show (0 : ℚ) < 100 by norm_num)
  obtain ⟨halves, -⟩ := computeAvailability_shows
    [firstHalf overlapping.1 5, secondHalf overlapping.1 5, overlapping.2] 50 (show (0 : ℚ) < 100 by norm_num)
  rw [whole, halves, sorted_overlapping, sorted_overlapping_halves]
  decide +kernel

end Dockge.Observation.Exact
