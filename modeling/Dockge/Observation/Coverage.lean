import Dockge.Data.History
import Dockge.Observation.Availability
import Dockge.Observation.Recording

namespace Dockge.Observation

open Dockge.Data Dockge.StackStatus

/-! What was observed of one stack, and that the stored intervals say the same. -/

/-- The time from one recorded sample to the next, in the status seen at its start. -/
structure Gap where
  span : Span
  status : Status
deriving DecidableEq, Repr

def within (recordedAt moment : Nat) : Nat :=
  if moment ≤ recordedAt + maxScanGapMs then moment else recordedAt

/-- How long the status of a sample is vouched for by what was recorded after it. -/
def reach (recordedAt : Nat) : List Mark → Nat
  | [] => recordedAt
  | .sample moment _ :: _ => within recordedAt moment
  | .ended moment :: later => max (within recordedAt moment) (reach recordedAt later)
  | .cut :: _ => recordedAt

/-- The gaps between consecutive recorded samples that are close enough to each other. -/
def gaps : List Mark → List Gap
  | [] => []
  | .sample moment status :: later => ⟨⟨moment, reach moment later⟩, status⟩ :: gaps later
  | .ended _ :: later => gaps later
  | .cut :: later => gaps later

/-- The time in a window that was observed with some statuses. -/
def observedTime (statuses : Status → Bool) (marks : List Mark) (windowMs now : Nat) : Nat :=
  coveredLength Gap.span ((gaps marks).filter (statuses ·.status)) (now - windowMs) now

/-! ## One more mark -/

variable {marks later : List Mark} {mark : Mark} {status : Status} {moment recordedAt now : Nat}
variable {recorder after : Recorder} {stack other : StackRef}

def Mark.closes : Mark → Option Nat
  | .sample moment _ => some moment
  | .ended moment => some moment
  | .cut => none

def Mark.isEnded : Mark → Bool
  | .ended _ => true
  | _ => false

/-- The last sample, unless it was cut off. -/
def openSample : List Mark → Option (Nat × Status)
  | [] => none
  | .sample moment status :: later =>
      if later.all Mark.isEnded then some (moment, status) else openSample later
  | .ended _ :: later => openSample later
  | .cut :: later => openSample later

def GapIn (marks : List Mark) (status : Status) (moment : Nat) : Prop :=
  ∃ gap ∈ gaps marks, gap.status = status ∧ gap.span.Holds moment

theorem openSample_of_ended (ended : later.all Mark.isEnded) : openSample later = none := by
  induction later with
  | nil => rfl
  | cons mark rest ih =>
      cases mark with
      | ended moment => exact ih ended
      | sample moment status => simp [Mark.isEnded] at ended
      | cut => simp [Mark.isEnded] at ended

@[simp] theorem openSample_append_cut : openSample (marks ++ [.cut]) = none := by
  induction marks with
  | nil => rfl
  | cons mark rest ih => cases mark <;> simp [openSample, ih, Mark.isEnded]

@[simp] theorem openSample_append_ended : openSample (marks ++ [.ended moment]) = openSample marks := by
  induction marks with
  | nil => rfl
  | cons mark rest ih => cases mark <;> simp [openSample, ih, Mark.isEnded]

@[simp] theorem openSample_append_sample :
    openSample (marks ++ [.sample moment status]) = some (moment, status) := by
  induction marks with
  | nil => rfl
  | cons mark rest ih => cases mark <;> simp [openSample, ih, Mark.isEnded]

theorem reach_append_closed (closed : later.all Mark.isEnded = false) :
    reach recordedAt (later ++ [mark]) = reach recordedAt later := by
  induction later with
  | nil => simp at closed
  | cons first rest ih =>
      cases first with
      | ended moment =>
          have tail := ih closed
          simp [reach, tail]
      | sample moment status => rfl
      | cut => rfl

theorem lt_reach_append (ended : later.all Mark.isEnded) (from_start : recordedAt ≤ moment) :
    moment < reach recordedAt (later ++ [mark]) ↔
      moment < reach recordedAt later ∨
        ∃ last, mark.closes = some last ∧ last ≤ recordedAt + maxScanGapMs ∧ moment < last := by
  induction later with
  | nil =>
      cases mark with
      | cut => simp [reach, Mark.closes]
      | sample last status =>
          simp only [List.nil_append, reach, within, Mark.closes, Option.some.injEq, exists_eq_left']
          split <;> omega
      | ended last =>
          simp only [List.nil_append, reach, within, Mark.closes, Option.some.injEq, exists_eq_left']
          split <;> omega
  | cons first rest ih =>
      cases first with
      | ended last =>
          simp only [List.cons_append, reach, lt_max_iff, ih ended, or_assoc]
      | sample last status => simp [Mark.isEnded] at ended
      | cut => simp [Mark.isEnded] at ended

/-- A mark lengthens the gap of the last sample, and no other. -/
theorem gapIn_append :
    GapIn (marks ++ [mark]) status moment ↔ GapIn marks status moment ∨
      ∃ recordedAt last, openSample marks = some (recordedAt, status) ∧ mark.closes = some last ∧
        last ≤ recordedAt + maxScanGapMs ∧ recordedAt ≤ moment ∧ moment < last := by
  induction marks with
  | nil =>
      cases mark <;> simp [GapIn, gaps, reach, openSample, Span.Holds]
  | cons first rest ih =>
      cases first with
      | ended moment => exact ih
      | cut => exact ih
      | sample recorded seen =>
          have split : ∀ later, GapIn (.sample recorded seen :: later) status moment ↔
              (seen = status ∧ recorded ≤ moment ∧ moment < reach recorded later) ∨
                GapIn later status moment := by
            intro later
            simp [GapIn, gaps, Span.Holds]
          rw [List.cons_append, split, split, ih]
          cases ended : rest.all Mark.isEnded with
          | false =>
              rw [reach_append_closed ended]
              simp [openSample, ended, or_assoc]
          | true =>
              have noOther : openSample rest = none := openSample_of_ended ended
              simp only [openSample, ended, if_true, noOther, Option.some.injEq, Prod.mk.injEq, reduceCtorEq,
                false_and, exists_false, or_false]
              constructor
              · intro held
                rcases held with ⟨same, begun, before⟩ | held
                · rcases (lt_reach_append ended begun).mp before with before | ⟨last, closes, near, before⟩
                  · exact Or.inl (Or.inl ⟨same, begun, before⟩)
                  · exact Or.inr ⟨recorded, last, ⟨rfl, same⟩, closes, near, begun, before⟩
                · exact Or.inl (Or.inr held)
              · intro held
                rcases held with (⟨same, begun, before⟩ | held) | ⟨_, last, ⟨rfl, same⟩, closes, near, begun, before⟩
                · exact Or.inl ⟨same, begun, (lt_reach_append ended begun).mpr (Or.inl before)⟩
                · exact Or.inr held
                · exact Or.inl ⟨same, begun, (lt_reach_append ended begun).mpr (Or.inr ⟨last, closes, near, before⟩)⟩

theorem gapIn_append_cut : GapIn (marks ++ [.cut]) status moment ↔ GapIn marks status moment := by
  simp [gapIn_append, Mark.closes]

/-! ## What the recorder keeps -/

/-- The rows of a stack say that it had a status at a moment. -/
def RowIn (recorder : Recorder) (stack : StackRef) (status : Status) (moment : Nat) : Prop :=
  ∃ row ∈ recorder.table.rowsOf stack, row.status = status ∧ row.span.Holds moment

/-- What the panel remembers is the newest row, and the sample that confirmed it. -/
structure Current (recorder : Recorder) (stack : StackRef) (last : LastStatus) : Prop where
  newest : ∃ front row, recorder.table.rowsOf stack = front ++ [row] ∧ row.id = last.id ∧
    row.status = last.status ∧ row.observedAt ≤ last.recordedAt ∧ last.recordedAt ≤ row.observedUntil
  sampled : openSample (recorder.seen stack) = some (last.recordedAt, last.status)
  recent : recorder.clock ≤ last.recordedAt + maxScanGapMs

/-- The rows of a stack cover what was observed of it, as far back as history is kept. -/
structure Tracks (recorder : Recorder) (stack : StackRef) : Prop where
  settled : Settled (recorder.table.rowsOf stack) recorder.clock
  current : ∀ last, recorder.lastStatus (keyOf stack) = some last → Current recorder stack last
  stale : recorder.lastStatus (keyOf stack) = none → ∀ recordedAt status,
    openSample (recorder.seen stack) = some (recordedAt, status) → recordedAt + maxScanGapMs < recorder.clock
  covered : ∀ status moment, recorder.clock ≤ moment + retentionMs →
    (RowIn recorder stack status moment ↔ GapIn (recorder.seen stack) status moment)

def Recorder.Tracked (recorder : Recorder) : Prop := ∀ stack, Tracks recorder stack

/-- Nothing about another stack moves what is tracked of this one. -/
theorem Tracks.congr (tracks : Tracks recorder stack)
    (sameRows : after.table.rowsOf stack = recorder.table.rowsOf stack)
    (sameLast : after.lastStatus (keyOf stack) = recorder.lastStatus (keyOf stack))
    (sameSeen : after.seen stack = recorder.seen stack) (sameClock : after.clock = recorder.clock) :
    Tracks after stack where
  settled := by
    rw [sameRows, sameClock]
    exact tracks.settled
  current := by
    intro last remembered
    rw [sameLast] at remembered
    obtain ⟨newest, sampled, recent⟩ := tracks.current last remembered
    exact ⟨by rw [sameRows]; exact newest, by rw [sameSeen]; exact sampled, by rw [sameClock]; exact recent⟩
  stale := by
    rw [sameLast, sameSeen, sameClock]
    exact tracks.stale
  covered := by
    unfold RowIn
    rw [sameRows, sameSeen, sameClock]
    exact tracks.covered

namespace Recorder

variable {mark : Mark} {last : Option LastStatus} {scanned : Scanned}

/-- Replace what is remembered of one stack. -/
def setLast (recorder : Recorder) (stack : StackRef) (last : Option LastStatus) : Recorder :=
  { recorder with lastStatus := Function.update recorder.lastStatus (keyOf stack) last }

@[simp] theorem note_table : (recorder.note stack mark).table = recorder.table := rfl
@[simp] theorem note_lastStatus : (recorder.note stack mark).lastStatus = recorder.lastStatus := rfl
@[simp] theorem note_clock : (recorder.note stack mark).clock = recorder.clock := rfl
@[simp] theorem note_seen : (recorder.note stack mark).seen stack = recorder.seen stack ++ [mark] := by
  simp [note]
theorem note_seen_other (differs : other ≠ stack) : (recorder.note stack mark).seen other = recorder.seen other := by
  simp [note, differs]

@[simp] theorem forgetObservation_table : (recorder.forgetObservation stack).table = recorder.table := rfl
@[simp] theorem forgetObservation_clock : (recorder.forgetObservation stack).clock = recorder.clock := rfl
@[simp] theorem forgetObservation_lastStatus :
    (recorder.forgetObservation stack).lastStatus (keyOf stack) = none := by
  simp [forgetObservation]
theorem forgetObservation_lastStatus_other (differs : other ≠ stack) :
    (recorder.forgetObservation stack).lastStatus (keyOf other) = recorder.lastStatus (keyOf other) := by
  simp [forgetObservation, keyOf_injective.ne differs]

@[simp] theorem touch_table {now : Nat} : (recorder.touch stack now).table = recorder.table := rfl
@[simp] theorem touch_clock {now : Nat} : (recorder.touch stack now).clock = recorder.clock := rfl
@[simp] theorem touch_seen {now : Nat} : (recorder.touch stack now).seen = recorder.seen := rfl

theorem Tracked.forgetObservation (tracked : recorder.Tracked) (stack : StackRef) :
    (recorder.forgetObservation stack).Tracked := by
  intro each
  by_cases own : each = stack
  · subst own
    have tracks := tracked each
    have cut : (recorder.forgetObservation each).seen each = recorder.seen each ++ [.cut] := by
      simp [Recorder.forgetObservation, note]
    refine ⟨tracks.settled, ?_, ?_, ?_⟩
    · intro last remembered
      simp at remembered
    · intro _ recordedAt status sampled
      rw [cut, openSample_append_cut] at sampled
      contradiction
    · intro status moment kept
      rw [cut, gapIn_append_cut]
      exact tracks.covered status moment kept
  · exact (tracked each).congr rfl (forgetObservation_lastStatus_other own) (note_seen_other own) rfl

theorem Tracked.forgetAll (tracked : recorder.Tracked) (stackList : List StackRef) :
    (recorder.forgetAll stackList).Tracked := by
  induction stackList generalizing recorder with
  | nil => exact tracked
  | cons stack rest ih => exact ih (tracked.forgetObservation stack)

theorem Tracked.restart (tracked : recorder.Tracked) : recorder.resetObservationState.Tracked := by
  intro stack
  have tracks := tracked stack
  refine ⟨tracks.settled, ?_, ?_, ?_⟩
  · intro last remembered
    simp [resetObservationState] at remembered
  · intro _ recordedAt status sampled
    simp [resetObservationState] at sampled
  · intro status moment kept
    have cut : recorder.resetObservationState.seen stack = recorder.seen stack ++ [.cut] := rfl
    rw [cut, gapIn_append_cut]
    exact tracks.covered status moment kept

/-- Time passes at the start of a scan, and what was seen too long ago is dropped. -/
theorem Tracked.beginScan (tracked : recorder.Tracked) (later : recorder.clock < now) :
    (recorder.beginScan now).Tracked := by
  intro stack
  have tracks := tracked stack
  refine ⟨tracks.settled.mono later.le, ?_, ?_, ?_⟩
  · intro last remembered
    simp only [Recorder.beginScan, Option.filter_eq_some_iff, decide_eq_true_eq] at remembered
    obtain ⟨remembered, recent⟩ := remembered
    obtain ⟨newest, sampled, _⟩ := tracks.current last remembered
    refine ⟨newest, sampled, ?_⟩
    change now ≤ last.recordedAt + maxScanGapMs
    omega
  · intro forgotten recordedAt status sampled
    change recordedAt + maxScanGapMs < now
    cases remembered : recorder.lastStatus (keyOf stack) with
    | none => exact (tracks.stale remembered recordedAt status sampled).trans later
    | some last =>
        have own := (tracks.current last remembered).sampled
        rw [show recorder.seen stack = (recorder.beginScan now).seen stack from rfl, sampled] at own
        simp only [Option.some.injEq, Prod.mk.injEq] at own
        simp only [Recorder.beginScan, remembered, Option.filter_some, decide_eq_true_eq, ite_eq_right_iff,
          reduceCtorEq, imp_false] at forgotten
        omega
  · intro status moment kept
    exact tracks.covered status moment (later.le.trans kept)

/-- Old rows say nothing about the time that history is kept for. -/
theorem Tracked.prune (tracked : recorder.Tracked) (works : Bool) :
    (recorder.pruneOldObservations recorder.clock works).Tracked := by
  unfold pruneOldObservations
  split
  · intro stack
    have tracks := tracked stack
    refine ⟨?_, ?_, tracks.stale, ?_⟩
    · simp only [IntervalTable.rowsOf_prune]
      exact tracks.settled.filter _
    · intro last remembered
      obtain ⟨⟨front, row, rows, named, status, begun, confirmed⟩, sampled, recent⟩ :=
        tracks.current last remembered
      refine ⟨⟨front.filter (recorder.clock - retentionMs ≤ ·.observedUntil), row, ?_, named, status, begun,
        confirmed⟩, sampled, recent⟩
      have survives : recorder.clock ≤ row.observedUntil + retentionMs := by
        unfold maxScanGapMs at recent
        unfold retentionMs
        omega
      simp [IntervalTable.rowsOf_prune, rows, survives]
    · intro status moment kept
      rw [← tracks.covered status moment kept]
      simp only [RowIn, IntervalTable.rowsOf_prune, List.mem_filter, decide_eq_true_eq]
      constructor
      · intro held
        obtain ⟨row, ⟨member, _⟩, same, holds⟩ := held
        exact ⟨row, member, same, holds⟩
      · intro held
        obtain ⟨row, member, same, holds⟩ := held
        refine ⟨row, ⟨member, ?_⟩, same, holds⟩
        have before : moment < row.observedUntil := holds.2
        change recorder.clock ≤ moment + retentionMs at kept
        omega
  · exact tracked

/-! ## One sample -/

theorem forgetAll_table (stackList : List StackRef) :
    (recorder.forgetAll stackList).table = recorder.table := by
  induction stackList generalizing recorder with
  | nil => rfl
  | cons first rest ih => exact ih

theorem forgetAll_clock (stackList : List StackRef) :
    (recorder.forgetAll stackList).clock = recorder.clock := by
  induction stackList generalizing recorder with
  | nil => rfl
  | cons first rest ih => exact ih

/-- Forgetting stacks drops what is remembered of them, and keeps the rest. -/
theorem forgetAll_lastStatus (stackList : List StackRef) :
    (recorder.forgetAll stackList).lastStatus (keyOf stack) = none ∨
      (recorder.forgetAll stackList).lastStatus (keyOf stack) = recorder.lastStatus (keyOf stack) := by
  induction stackList generalizing recorder with
  | nil => exact Or.inr rfl
  | cons first rest ih =>
      rcases @ih (recorder.forgetObservation first) with gone | kept
      · exact Or.inl gone
      · by_cases own : stack = first
        · subst own
          exact Or.inl (kept.trans forgetObservation_lastStatus)
        · exact Or.inr (kept.trans (forgetObservation_lastStatus_other own))

theorem forgetObservation_withTable (table : IntervalTable StackRef Status) :
    ({ recorder with table := table } : Recorder).forgetObservation stack =
      { recorder.forgetObservation stack with table := table } := rfl

theorem forgetAll_withTable (table : IntervalTable StackRef Status) (stackList : List StackRef) :
    ({ recorder with table := table } : Recorder).forgetAll stackList =
      { recorder.forgetAll stackList with table := table } := by
  induction stackList generalizing recorder with
  | nil => rfl
  | cons first rest ih => exact @ih (recorder.forgetObservation first)

/-- Whether the time of a sample is moved before or after a stack is forgotten makes no difference. -/
theorem forgetObservation_touch :
    (recorder.forgetObservation other).touch stack now = (recorder.touch stack now).forgetObservation other := by
  by_cases own : stack = other
  · subst own
    simp [touch, Recorder.forgetObservation, note]
  · have keys : keyOf stack ≠ keyOf other := keyOf_injective.ne own
    simp [touch, Recorder.forgetObservation, note, keys, Function.update_comm keys]

theorem forgetAll_touch (stackList : List StackRef) :
    (recorder.forgetAll stackList).touch stack now = (recorder.touch stack now).forgetAll stackList := by
  induction stackList generalizing recorder with
  | nil => rfl
  | cons first rest ih =>
      calc (recorder.forgetAll (first :: rest)).touch stack now
          = ((recorder.forgetObservation first).touch stack now).forgetAll rest := ih
        _ = (recorder.touch stack now).forgetAll (first :: rest) := by
            rw [forgetObservation_touch]
            rfl

/-- The newest row of the stack, if it is still remembered, reaches up to now. -/
def Reaches (recorder : Recorder) (stack : StackRef) (now : Nat) : Prop :=
  ∀ last, recorder.lastStatus (keyOf stack) = some last →
    ∃ row ∈ recorder.table.rowsOf stack, row.status = last.status ∧ row.observedAt ≤ last.recordedAt ∧
      row.observedUntil = now

theorem Reaches.forgetAll (reaches : recorder.Reaches stack now) (stackList : List StackRef) :
    (recorder.forgetAll stackList).Reaches stack now := by
  intro last remembered
  rw [forgetAll_table]
  rcases @forgetAll_lastStatus recorder stack stackList with gone | kept
  · rw [gone] at remembered
    contradiction
  · exact reaches last (kept.symm.trans remembered)

/-- The state in which a new interval has been inserted and is remembered. -/
def started (recorder : Recorder) (stack : StackRef) (status : Status) (now : Nat) : Recorder :=
  ({ recorder with table := (recorder.table.insert stack status now).1 }.setLast stack
    (some ⟨recorder.table.nextId, status, now⟩)).note stack (.sample now status)

theorem rowsOf_started {status : Status} : (recorder.started stack status now).table.rowsOf stack =
    recorder.table.rowsOf stack ++ [⟨recorder.table.nextId, stack, status, now, now⟩] := by
  simp [started, setLast, IntervalTable.rowsOf_insert]

theorem rowsOf_started_other {status : Status} (differs : other ≠ stack) :
    (recorder.started stack status now).table.rowsOf other = recorder.table.rowsOf other := by
  simp [started, setLast, IntervalTable.rowsOf_insert, differs.symm]

/-- The gap before a sample is told by the rows already when it starts a new interval. -/
theorem closed_of_reaches (tracks : Tracks recorder stack) (reaches : recorder.Reaches stack recorder.clock)
    {status : Status} {moment recordedAt : Nat}
    (sampled : openSample (recorder.seen stack) = some (recordedAt, status))
    (near : recorder.clock ≤ recordedAt + maxScanGapMs)
    (begun : recordedAt ≤ moment) (before : moment < recorder.clock) : RowIn recorder stack status moment := by
  cases remembered : recorder.lastStatus (keyOf stack) with
  | none =>
      have := tracks.stale remembered recordedAt status sampled
      omega
  | some last =>
      have own := (tracks.current last remembered).sampled
      rw [sampled] at own
      simp only [Option.some.injEq, Prod.mk.injEq] at own
      obtain ⟨row, member, same, started, reached⟩ := reaches last remembered
      refine ⟨row, member, same.trans own.2.symm, ?_, ?_⟩
      · change row.observedAt ≤ moment
        omega
      · change moment < row.observedUntil
        omega

theorem Tracked.start (tracked : recorder.Tracked) (reaches : recorder.Reaches stack recorder.clock)
    (status : Status) : (recorder.started stack status recorder.clock).Tracked := by
  intro each
  by_cases own : each = stack
  · subst own
    have tracks := tracked each
    have seen : (recorder.started each status recorder.clock).seen each =
        recorder.seen each ++ [.sample recorder.clock status] := note_seen
    refine ⟨?_, ?_, ?_, ?_⟩
    · rw [rowsOf_started]
      exact tracks.settled.insert
    · intro last remembered
      have fresh : last = ⟨recorder.table.nextId, status, recorder.clock⟩ := by
        simpa [started, setLast, eq_comm] using remembered
      subst fresh
      refine ⟨⟨_, _, rowsOf_started, rfl, rfl, le_refl _, le_refl _⟩, ?_, ?_⟩
      · rw [seen, openSample_append_sample]
      · exact Nat.le_add_right _ _
    · intro forgotten
      simp [started, setLast] at forgotten
    · intro seenStatus moment kept
      rw [seen, gapIn_append, ← tracks.covered seenStatus moment kept]
      have rows : RowIn (recorder.started each status recorder.clock) each seenStatus moment ↔
          RowIn recorder each seenStatus moment := by
        simp only [RowIn, rowsOf_started, List.mem_append, List.mem_singleton, or_and_right, exists_or,
          exists_eq_left, or_iff_left_iff_imp]
        intro held
        have := held.2
        simp only [Span.Holds, IntervalRow.span] at this
        omega
      rw [rows]
      constructor
      · exact Or.inl
      · intro held
        rcases held with held | ⟨recordedAt, last, sampled, closes, near, begun, before⟩
        · exact held
        · simp only [Mark.closes, Option.some.injEq] at closes
          subst closes
          exact closed_of_reaches tracks reaches sampled near begun before
  · apply (tracked each).congr (rowsOf_started_other own) _ (note_seen_other own) rfl
    simp [started, setLast, keyOf_injective.ne own]

theorem insertObservation_works (works : scanned.insertWorks = true) :
    (recorder.insertObservation scanned now).1 =
      (recorder.forgetAll scanned.forgottenInInsert).started scanned.stack scanned.status now := by
  simp only [insertObservation, works, if_true, forgetAll_withTable, started, setLast, forgetAll_table]
  rfl

theorem insertObservation_tracked (tracked : recorder.Tracked) (present : recorder.clock = now)
    (reaches : recorder.Reaches scanned.stack now) : (recorder.insertObservation scanned now).1.Tracked := by
  by_cases works : scanned.insertWorks = true
  · have forgotten := tracked.forgetAll scanned.forgottenInInsert
    have stillReaches := reaches.forgetAll scanned.forgottenInInsert
    have stillPresent := (forgetAll_clock scanned.forgottenInInsert).trans present
    rw [insertObservation_works works]
    rw [← stillPresent] at stillReaches ⊢
    exact forgotten.start stillReaches scanned.status
  · have refused : (recorder.insertObservation scanned now).1 =
        recorder.forgetAll scanned.forgottenInInsert := by simp [insertObservation, works]
    rw [refused]
    exact tracked.forgetAll _

/-- The state in which the remembered row is confirmed up to now, with what is remembered of it then. -/
def confirmed (recorder : Recorder) (stack : StackRef) (previous last : LastStatus) (now : Nat) (mark : Mark) :
    Recorder :=
  ({ recorder with table := (recorder.table.confirm previous.id now).1 }.note stack mark).setLast stack (some last)

/-- A sample that confirms what is remembered of a stack, whether it shows the same status or not. -/
structure Confirms (recorder : Recorder) (stack : StackRef) (previous last : LastStatus) (mark : Mark) : Prop where
  remembered : recorder.lastStatus (keyOf stack) = some previous
  closes : mark.closes = some recorder.clock
  sampled : openSample (recorder.seen stack ++ [mark]) = some (last.recordedAt, last.status)
  sameId : last.id = previous.id
  sameStatus : last.status = previous.status
  since : previous.recordedAt ≤ last.recordedAt
  past : last.recordedAt ≤ recorder.clock

variable {previous current : LastStatus} {front : List (IntervalRow StackRef Status)} {row : IntervalRow StackRef Status}

theorem confirmed_last :
    (recorder.confirmed stack previous current now mark).lastStatus (keyOf stack) = some current := by
  simp [confirmed, setLast]

theorem confirmed_seen :
    (recorder.confirmed stack previous current now mark).seen stack = recorder.seen stack ++ [mark] := note_seen

theorem rowsOf_confirmed (rows : recorder.table.rowsOf stack = front ++ [row]) (named : row.id = previous.id) :
    (recorder.confirmed stack previous current now mark).table.rowsOf stack =
      front ++ [{ row with observedUntil := now }] := IntervalTable.rowsOf_confirm_last rows named

/-- Moving the end of the newest row covers what the mark adds to the gap of the last sample. -/
theorem confirmed_covers {status : Status} {moment : Nat}
    (tracks : Tracks recorder stack) (confirms : Confirms recorder stack previous current mark)
    (kept : recorder.clock ≤ moment + retentionMs) :
    RowIn (recorder.confirmed stack previous current recorder.clock mark) stack status moment ↔
      GapIn (recorder.seen stack ++ [mark]) status moment := by
  obtain ⟨⟨front, row, rows, named, same, begun, reached⟩, sampled, recent⟩ :=
    tracks.current previous confirms.remembered
  have past : row.observedUntil ≤ recorder.clock := tracks.settled.past row (by simp [rows])
  have before : RowIn recorder stack status moment ↔
      (∃ earlier ∈ front, earlier.status = status ∧ earlier.span.Holds moment) ∨
        (previous.status = status ∧ row.observedAt ≤ moment ∧ moment < row.observedUntil) := by
    simp only [RowIn, rows, List.mem_append, List.mem_singleton, or_and_right, exists_or, exists_eq_left,
      Span.Holds, IntervalRow.span, same]
  have after : RowIn (recorder.confirmed stack previous current recorder.clock mark) stack status moment ↔
      (∃ earlier ∈ front, earlier.status = status ∧ earlier.span.Holds moment) ∨
        (previous.status = status ∧ row.observedAt ≤ moment ∧ moment < recorder.clock) := by
    simp only [RowIn, rowsOf_confirmed rows named, List.mem_append, List.mem_singleton, or_and_right, exists_or,
      exists_eq_left, Span.Holds, IntervalRow.span, same]
  have added : (∃ recordedAt last, openSample (recorder.seen stack) = some (recordedAt, status) ∧
      mark.closes = some last ∧ last ≤ recordedAt + maxScanGapMs ∧ recordedAt ≤ moment ∧ moment < last) ↔
        previous.status = status ∧ previous.recordedAt ≤ moment ∧ moment < recorder.clock := by
    rw [sampled, confirms.closes]
    constructor
    · intro extended
      obtain ⟨recordedAt, last, pair, ended, _, started, ends⟩ := extended
      simp only [Option.some.injEq, Prod.mk.injEq] at pair ended
      exact ⟨pair.2, by omega, by omega⟩
    · intro extended
      obtain ⟨sameStatus, started, ends⟩ := extended
      exact ⟨previous.recordedAt, recorder.clock, by rw [sameStatus], rfl, recent, started, ends⟩
  rw [gapIn_append, ← tracks.covered status moment kept, added, before, after, or_assoc]
  apply or_congr_right
  constructor
  · intro held
    obtain ⟨sameStatus, started, ends⟩ := held
    by_cases already : moment < row.observedUntil
    · exact Or.inl ⟨sameStatus, started, already⟩
    · exact Or.inr ⟨sameStatus, by omega, ends⟩
  · intro held
    rcases held with ⟨sameStatus, started, ends⟩ | ⟨sameStatus, started, ends⟩
    · exact ⟨sameStatus, started, by omega⟩
    · exact ⟨sameStatus, by omega, ends⟩

theorem Tracked.confirm (tracked : recorder.Tracked) (confirms : Confirms recorder stack previous current mark) :
    (recorder.confirmed stack previous current recorder.clock mark).Tracked := by
  obtain ⟨⟨front, row, rows, named, same, begun, reached⟩, sampled, recent⟩ :=
    (tracked stack).current previous confirms.remembered
  intro each
  by_cases own : each = stack
  · subst own
    have tracks := tracked each
    refine ⟨?_, ?_, ?_, ?_⟩
    · have settled := tracks.settled
      rw [rows] at settled
      rw [rowsOf_confirmed rows named]
      exact settled.confirm_last
    · intro last remembered
      rw [confirmed_last, Option.some.injEq] at remembered
      subst remembered
      refine ⟨⟨front, _, rowsOf_confirmed rows named, named.trans confirms.sameId.symm,
        same.trans confirms.sameStatus.symm, begun.trans confirms.since, confirms.past⟩, ?_, ?_⟩
      · rw [confirmed_seen]
        exact confirms.sampled
      · exact recent.trans (Nat.add_le_add_right confirms.since _)
    · intro forgotten
      rw [confirmed_last] at forgotten
      contradiction
    · intro status moment kept
      rw [confirmed_seen]
      exact confirmed_covers tracks confirms kept
  · have held : row ∈ recorder.table.rowsOf stack := by simp [rows]
    have sameRows : (recorder.confirmed stack previous current recorder.clock mark).table.rowsOf each =
        recorder.table.rowsOf each := IntervalTable.rowsOf_confirm_other held named (Ne.symm own)
    have sameLast : (recorder.confirmed stack previous current recorder.clock mark).lastStatus (keyOf each) =
        recorder.lastStatus (keyOf each) := by simp [confirmed, setLast, keyOf_injective.ne own]
    exact (tracked each).congr sameRows sameLast (note_seen_other own) rfl

theorem Tracked.confirm_reaches (tracked : recorder.Tracked)
    (confirms : Confirms recorder stack previous current mark) :
    (recorder.confirmed stack previous current recorder.clock mark).Reaches stack recorder.clock := by
  obtain ⟨⟨front, row, rows, named, same, begun, reached⟩, _, _⟩ :=
    (tracked stack).current previous confirms.remembered
  intro last remembered
  rw [confirmed_last, Option.some.injEq] at remembered
  subst remembered
  refine ⟨{ row with observedUntil := recorder.clock }, ?_, same.trans confirms.sameStatus.symm,
    begun.trans confirms.since, rfl⟩
  simp [rowsOf_confirmed rows named]

/-- The same status again: the sample moves the end of the interval. -/
theorem Confirms.again (tracks : Tracks recorder stack)
    (remembered : recorder.lastStatus (keyOf stack) = some previous) :
    Confirms recorder stack previous { previous with recordedAt := recorder.clock }
      (.sample recorder.clock previous.status) := by
  obtain ⟨⟨front, row, rows, _, _, _, reached⟩, _, _⟩ := tracks.current previous remembered
  have past := tracks.settled.past row (by simp [rows])
  exact ⟨remembered, rfl, openSample_append_sample, rfl, rfl, reached.trans past, le_refl _⟩

/-- Another status: the interval ends here, and what is remembered stays until the next one is inserted. -/
theorem Confirms.ends (tracks : Tracks recorder stack)
    (remembered : recorder.lastStatus (keyOf stack) = some previous) :
    Confirms recorder stack previous previous (.ended recorder.clock) := by
  obtain ⟨⟨front, row, rows, _, _, _, reached⟩, sampled, _⟩ := tracks.current previous remembered
  have past := tracks.settled.past row (by simp [rows])
  exact ⟨remembered, rfl, by rw [openSample_append_ended, sampled], rfl, rfl, le_refl _, reached.trans past⟩

theorem touched_eq (remembered : recorder.lastStatus (keyOf stack) = some previous) :
    ({ recorder with table := (recorder.table.confirm previous.id now).1 }.note stack mark).touch stack now =
      recorder.confirmed stack previous { previous with recordedAt := now } now mark := by
  simp [touch, confirmed, setLast, remembered]

theorem untouched_eq (remembered : recorder.lastStatus (keyOf stack) = some previous) :
    { recorder with table := (recorder.table.confirm previous.id now).1 }.note stack mark =
      recorder.confirmed stack previous previous now mark := by
  simp [note, confirmed, setLast, ← remembered]

theorem Tracked.recordStatus (tracked : recorder.Tracked) :
    (recorder.recordStatus scanned recorder.clock).1.Tracked := by
  unfold Recorder.recordStatus
  cases remembered : recorder.lastStatus (keyOf scanned.stack) with
  | none =>
      apply insertObservation_tracked tracked rfl
      intro last known
      rw [remembered] at known
      contradiction
  | some previous =>
      have tracks := tracked scanned.stack
      obtain ⟨⟨front, row, rows, named, _, _, reached⟩, _, recent⟩ := tracks.current previous remembered
      have held : row ∈ recorder.table.rowsOf scanned.stack := by simp [rows]
      have past := tracks.settled.past row held
      have near : previous.recordedAt ≤ recorder.clock ∧ recorder.clock - previous.recordedAt ≤ maxScanGapMs :=
        ⟨reached.trans past, by omega⟩
      have updated := @IntervalTable.confirm_updates _ _ _ _ recorder.clock _ _ _ held named
      simp only [near, and_self, if_true, updated]
      by_cases works : scanned.updateWorks = true
      · by_cases same : previous.status = scanned.status
        · have confirmed := tracked.confirm (Confirms.again tracks remembered)
          simp only [works, same, if_true, forgetAll_touch]
          rw [touched_eq remembered, ← same]
          exact confirmed.forgetAll _
        · have ended := Confirms.ends tracks remembered
          have stillTracked := (tracked.confirm ended).forgetAll scanned.forgottenInUpdate
          have reaches := (tracked.confirm_reaches ended).forgetAll scanned.forgottenInUpdate
          simp only [works, same, if_true, if_false]
          rw [untouched_eq remembered]
          exact insertObservation_tracked stillTracked (forgetAll_clock _) reaches
      · simp only [works]
        exact tracked.forgetAll _

theorem insertObservation_clock : (recorder.insertObservation scanned now).1.clock = recorder.clock := by
  unfold insertObservation
  split
  · simp [forgetAll_clock]
  · simp [forgetAll_clock]

theorem recordStatus_clock : (recorder.recordStatus scanned now).1.clock = recorder.clock := by
  unfold recordStatus
  cases recorder.lastStatus (keyOf scanned.stack) with
  | none => exact insertObservation_clock
  | some previous =>
      simp only []
      split_ifs <;> simp [insertObservation_clock, forgetAll_clock]

theorem recordEach_tracked (tracked : recorder.Tracked) (present : recorder.clock = now)
    (stackList : List Scanned) (written : Nat) :
    (recorder.recordEach stackList now written).1.Tracked ∧
      (recorder.recordEach stackList now written).1.clock = now := by
  induction stackList generalizing recorder written with
  | nil => exact ⟨tracked, present⟩
  | cons scanned rest ih =>
      unfold recordEach
      by_cases aborted : scanned.aborted = true
      · rw [if_pos aborted]
        exact ⟨tracked, present⟩
      · rw [if_neg aborted]
        subst present
        exact ih tracked.recordStatus recordStatus_clock _

theorem Tracked.recordScan (tracked : recorder.Tracked) (later : recorder.clock < now)
    (stackList : List Scanned) (aborted pruneWorks : Bool) :
    (recorder.recordScan stackList now aborted pruneWorks).1.Tracked := by
  obtain ⟨scanned, present⟩ := recordEach_tracked (tracked.beginScan later) rfl stackList 0
  change (Recorder.recordEach _ _ now 0).1.Tracked at scanned
  change (Recorder.recordEach _ _ now 0).1.clock = now at present
  unfold Recorder.recordScan
  simp only []
  split
  · have marked : { ((recorder.beginScan now).recordEach stackList now 0).1 with lastPruneAt := now }.Tracked :=
      fun stack => (scanned stack).congr rfl rfl rfl rfl
    have pruned := marked.prune pruneWorks
    rw [present] at pruned
    exact pruned
  · exact scanned

end Recorder

/-! ## Whole histories -/

theorem recorderStep_tracked (recorder : Recorder) (event : RecorderEvent) (tracked : recorder.Tracked) :
    (recorderStep recorder event).Tracked := by
  cases event with
  | scan elapsed stackList aborted pruneWorks =>
      exact tracked.recordScan (by omega) stackList aborted pruneWorks
  | forget stack => exact tracked.forgetObservation stack
  | restart => exact tracked.restart

theorem initial_tracked : ({} : Recorder).Tracked := by
  intro stack
  refine ⟨Settled.nil, ?_, ?_, ?_⟩
  · intro last remembered
    contradiction
  · intro _ recordedAt status sampled
    contradiction
  · intro status moment _
    simp [RowIn, GapIn, gaps]

def recorded (history : List RecorderEvent) : Recorder := replay recorderStep {} history

theorem recorded_tracked (history : List RecorderEvent) : (recorded history).Tracked :=
  replay_invariant initial_tracked recorderStep_tracked history

def changeOf (row : IntervalRow StackRef Status) : StatusChange :=
  ⟨row.status, row.observedAt, some row.observedUntil⟩

/-- The stored intervals of a stack, in the order they were inserted. -/
def Recorder.changes (recorder : Recorder) (stack : StackRef) : List StatusChange :=
  (recorder.table.rowsOf stack).map changeOf

theorem Tracks.apart (tracks : Tracks recorder stack) : Apart StatusChange.span (recorder.changes stack) :=
  List.pairwise_map.mpr tracks.settled.apart

theorem Tracks.sorted (tracks : Tracks recorder stack) (later : recorder.clock ≤ now) :
    sortedChanges (recorder.changes stack) now = recorder.changes stack := by
  apply sortedChanges_eq
  · apply List.pairwise_map.mpr
    apply tracks.settled.apart.imp_of_mem
    intro before after member _ follows
    exact (tracks.settled.begun before member).trans follows
  · intro change member
    obtain ⟨row, held, same⟩ := List.mem_map.mp member
    subst same
    exact ((tracks.settled.begun row held).trans (tracks.settled.past row held)).trans later

/-- As far back as history is kept, the stored intervals confirm the time that was observed. -/
theorem Tracks.confirmedTime_eq (tracks : Tracks recorder stack) {windowMs : Nat} (later : recorder.clock ≤ now)
    (kept : windowMs ≤ retentionMs) (statuses : Status → Bool) :
    confirmedTime statuses (recorder.changes stack) windowMs now =
      observedTime statuses (recorder.seen stack) windowMs now := by
  apply coveredLength_congr
  intro moment inside
  have covered := fun status => tracks.covered status moment (by omega)
  constructor
  · intro held
    obtain ⟨change, member, holds⟩ := held
    obtain ⟨member, counts⟩ := List.mem_filter.mp member
    obtain ⟨row, rowMember, same⟩ := List.mem_map.mp member
    subst same
    obtain ⟨gap, gapMember, sameStatus, gapHolds⟩ := (covered row.status).mp ⟨row, rowMember, rfl, holds⟩
    exact ⟨gap, List.mem_filter.mpr ⟨gapMember, by rw [sameStatus]; exact counts⟩, gapHolds⟩
  · intro held
    obtain ⟨gap, member, holds⟩ := held
    obtain ⟨member, counts⟩ := List.mem_filter.mp member
    obtain ⟨row, rowMember, sameStatus, rowHolds⟩ := (covered gap.status).mpr ⟨gap, member, rfl, holds⟩
    refine ⟨changeOf row, List.mem_filter.mpr ⟨List.mem_map_of_mem rowMember, ?_⟩, rowHolds⟩
    change statuses row.status = true
    rw [sameStatus]
    exact counts

/-- Whatever is scanned, missed, forgotten or fails to be written, the intervals of a stack lie
apart, and the availability of a window is counted from the time that was observed in it. -/
theorem recorded_availability (history : List RecorderEvent) (stack : StackRef) (now windowMs : Nat)
    (later : (recorded history).clock ≤ now) (nonempty : 0 < windowMs) (kept : windowMs ≤ retentionMs) :
    let changes := (recorded history).changes stack
    let seen := (recorded history).seen stack
    let measured := measure (sortedChanges changes now) windowMs now
    Apart StatusChange.span changes ∧
      (computeAvailability changes windowMs now).coveredMs = observedTime isKnown seen windowMs now ∧
      measured.coveredMs = observedTime isKnown seen windowMs now ∧
      measured.healthyMs = observedTime isHealthyStatus seen windowMs now ∧
      measured.stoppedMs = observedTime isStopped seen windowMs now := by
  have tracks := recorded_tracked history stack
  obtain ⟨covered, healthy, stopped⟩ := @measure_apart _ windowMs now tracks.apart
  intro changes seen measured
  have sorted : sortedChanges changes now = changes := tracks.sorted later
  refine ⟨tracks.apart, ?_, ?_, ?_, ?_⟩
  · rw [computeAvailability_coveredMs nonempty, sorted, covered, tracks.confirmedTime_eq later kept]
  · simp only [measured, sorted]
    rw [covered, tracks.confirmedTime_eq later kept]
  · simp only [measured, sorted]
    rw [healthy, tracks.confirmedTime_eq later kept]
  · simp only [measured, sorted]
    rw [stopped, tracks.confirmedTime_eq later kept]

def sampleStack : StackRef := ⟨"app", "", by decide⟩

/-- A scan that finds the sample stack in some status. -/
def sampleScan (elapsed : Nat) (status : Status) : RecorderEvent :=
  .scan elapsed [{ stack := sampleStack, status := status }] false true

theorem recorded_availability_app :
    (computeAvailability ((recorded [sampleScan 0 .running, sampleScan 9 .exited]).changes sampleStack) 20 15).coveredMs =
      observedTime isKnown ((recorded [sampleScan 0 .running, sampleScan 9 .exited]).seen sampleStack) 20 15 :=
  (recorded_availability [sampleScan 0 .running, sampleScan 9 .exited] sampleStack 15 20 (by decide +kernel)
    (by decide) (by decide)).2.1

def Mark.isSample : Mark → Bool
  | .sample _ _ => true
  | _ => false

/-- The gaps between the recorded samples alone, whatever their status and what came between them. -/
def gapTime (history : List RecorderEvent) (windowMs now : Nat) : Nat :=
  observedTime (fun _ => true) (((recorded history).seen sampleStack).filter Mark.isSample) windowMs now

def coveredTime (history : List RecorderEvent) (windowMs now : Nat) : Nat :=
  (computeAvailability ((recorded history).changes sampleStack) windowMs now).coveredMs

/-- The stored intervals are sorted already. -/
theorem coveredTime_eq {history : List RecorderEvent} {windowMs : Nat}
    (later : (recorded history).clock ≤ now) (nonempty : 0 < windowMs) :
    coveredTime history windowMs now =
      (measure ((recorded history).changes sampleStack) windowMs now).coveredMs := by
  rw [coveredTime, computeAvailability_coveredMs nonempty, (recorded_tracked history sampleStack).sorted later]

def halfWritten : RecorderEvent :=
  .scan 9 [{ stack := sampleStack, status := .exited, insertWorks := false }] false true

/-- What nobody could read counts for nothing, a deleted stack starts anew, an interval ends where
another status was seen even when that one was not written, and old history is removed. -/
theorem availability_not_gap_time :
    (coveredTime [sampleScan 0 .unknown, sampleScan 9 .unknown] 11 11 = 0 ∧
      gapTime [sampleScan 0 .unknown, sampleScan 9 .unknown] 11 11 = 10) ∧
    (coveredTime [sampleScan 0 .running, .forget sampleStack, sampleScan 9 .running] 11 11 = 0 ∧
      gapTime [sampleScan 0 .running, .forget sampleStack, sampleScan 9 .running] 11 11 = 10) ∧
    (coveredTime [sampleScan 0 .running, halfWritten] 11 11 = 10 ∧
      gapTime [sampleScan 0 .running, halfWritten] 11 11 = 0) ∧
    (coveredTime [sampleScan 0 .running, sampleScan 9 .running, sampleScan retentionMs .running]
        (retentionMs + 12) (retentionMs + 12) = 0 ∧
      gapTime [sampleScan 0 .running, sampleScan 9 .running, sampleScan retentionMs .running]
        (retentionMs + 12) (retentionMs + 12) = 10) := by
  refine ⟨?_, ?_, ?_, ?_, ?_⟩
  · rw [coveredTime_eq (by decide +kernel) (by decide)]
    decide +kernel
  · rw [coveredTime_eq (by decide +kernel) (by decide)]
    decide +kernel
  · rw [coveredTime_eq (by decide +kernel) (by decide)]
    decide +kernel
  · rw [coveredTime_eq (by decide +kernel) (by decide)]
    decide +kernel
  · rw [gapTime, observedTime, ← Apart.sum_lengthWithin (by decide +kernel)]
    decide +kernel

end Dockge.Observation
