import Dockge.Observation.Shown

namespace Dockge.Observation

open Dockge.Data Dockge.StackStatus

/-! The batched reading of several stacks, whose names may come several times over, and the reading of
each by itself. -/

/-! ## Intervals that are read several times over -/

section
variable {changes rest : List StatusChange} {change : StatusChange} {next : Option StatusChange}
variable {windowMs now count : Nat} {single several : Measuring}

/-- Each interval begins later than the ones before it, and two of one status do not even touch. -/
def Seams (changes : List StatusChange) : Prop :=
  changes.Pairwise fun before after => before.observedAt < after.observedAt ∧
    before.span.stop ≤ after.observedAt ∧ (before.status = after.status → before.span.stop < after.observedAt)

/-- Whatever degraded interval comes next, it is an incident of its own. -/
def Measuring.Seamless (soFar : Measuring) (rest : List StatusChange) : Prop :=
  soFar.insideIncident = true → ∀ change ∈ rest, change.status = .attention →
    soFar.lastEnd.all (· < change.observedAt) = true

theorem measureStep_seamless (seams : Seams (change :: rest)) :
    (measureStep change next windowMs now single).Seamless rest := by
  obtain ⟨follows, -⟩ := List.pairwise_cons.mp seams
  unfold measureStep
  dsimp only
  split
  · exact fun inside => by cases inside
  · intro inside later member degraded
    have status : change.status = .attention := of_decide_eq_true inside
    have apart := (follows later member).2.2 (status.trans degraded.symm)
    have stop : change.span.stop = change.observedUntil.getD change.observedAt := rfl
    simp only [Option.all_some, decide_eq_true_eq]
    omega

/-- What is counted does not depend on whether the interval before was degraded. -/
theorem measureStep_agree (first : single.Seamless (change :: rest)) (second : several.Seamless (change :: rest))
    (measured : single.measured = several.measured) (lastEnd : single.lastEnd = several.lastEnd) :
    (measureStep change next windowMs now single).measured = (measureStep change next windowMs now several).measured ∧
      (measureStep change next windowMs now single).lastEnd = (measureStep change next windowMs now several).lastEnd := by
  have isNew {soFar : Measuring} (seamless : soFar.Seamless (change :: rest)) (degraded : change.status = .attention) :
      (!soFar.insideIncident || soFar.lastEnd.all (· < max change.observedAt (now - windowMs))) = true := by
    cases inside : soFar.insideIncident with
    | false => rfl
    | true =>
        have ended := seamless inside change List.mem_cons_self degraded
        cases end_ : soFar.lastEnd with
        | none => rfl
        | some stop =>
            rw [end_, Option.all_some, decide_eq_true_eq] at ended
            simp only [Option.all_some, Bool.not_true, Bool.false_or, decide_eq_true_eq]
            omega
  unfold measureStep
  dsimp only
  split
  · exact ⟨measured, lastEnd⟩
  · refine ⟨?_, rfl⟩
    by_cases degraded : change.status = .attention
    · rw [isNew first degraded, isNew second degraded, measured]
    · simp only [degraded, decide_false, Bool.false_and, measured]

/-- A copy in front of its interval is cut off where it begins. -/
theorem measureStep_copy : measureStep change (some change) windowMs now single =
    { single with insideIncident := false } := by
  have empty : min (change.observedUntil.getD change.observedAt)
      (min (((some change).map (·.observedAt)).getD now) now) ≤ max change.observedAt (now - windowMs) := by
    simp only [Option.map_some, Option.getD_some]
    omega
  unfold measureStep
  simp only [empty, or_true, if_true]

theorem measureFrom_copies : ∃ inside, measureFrom (List.replicate (count + 1) change ++ rest) windowMs now several =
    measureFrom (change :: rest) windowMs now { several with insideIncident := inside } ∧
      (inside = several.insideIncident ∨ inside = false) := by
  induction count generalizing several with
  | zero => exact ⟨several.insideIncident, rfl, .inl rfl⟩
  | succ count ih =>
      have copied : measureFrom (List.replicate (count + 1 + 1) change ++ rest) windowMs now several =
          measureFrom (List.replicate (count + 1) change ++ rest) windowMs now
            (measureStep change (some change) windowMs now several) := rfl
      rw [copied, measureStep_copy]
      obtain ⟨inside, same, which⟩ := @ih { several with insideIncident := false }
      exact ⟨inside, same, .inr (which.elim id id)⟩

theorem head_repeated (changes : List StatusChange) :
    (changes.flatMap (List.replicate (count + 1))).head? = changes.head? := by
  cases changes <;> rfl

theorem measureFrom_repeated (seams : Seams changes) (first : single.Seamless changes)
    (second : several.Seamless changes) (measured : single.measured = several.measured)
    (lastEnd : single.lastEnd = several.lastEnd) :
    (measureFrom (changes.flatMap (List.replicate (count + 1))) windowMs now several).measured =
      (measureFrom changes windowMs now single).measured := by
  induction changes generalizing single several with
  | nil => exact measured.symm
  | cons change rest ih =>
      rw [List.flatMap_cons]
      obtain ⟨inside, same, which⟩ := @measureFrom_copies (rest.flatMap (List.replicate (count + 1))) change windowMs
        now count several
      have second' : Measuring.Seamless { several with insideIncident := inside } (change :: rest) := by
        intro held
        obtain rfl | rfl := which
        · exact second held
        · cases held
      rw [same, measureFrom, measureFrom, head_repeated]
      obtain ⟨stepMeasured, stepEnd⟩ := @measureStep_agree rest change rest.head? windowMs now single
        { several with insideIncident := inside } first second' measured lastEnd
      exact ih (List.pairwise_cons.mp seams).2 (measureStep_seamless seams) (measureStep_seamless seams)
        stepMeasured stepEnd

theorem getLast_repeated (changes : List StatusChange) :
    (changes.flatMap (List.replicate (count + 1))).getLast? = changes.getLast? := by
  induction changes using List.reverseRecOn with
  | nil => rfl
  | append_singleton front last =>
      rw [List.flatMap_append, List.flatMap_singleton, List.replicate_succ', ← List.append_assoc,
        List.getLast?_concat, List.getLast?_concat]

/-- Intervals read several times over give the availability that they give once. -/
theorem computeAvailability_repeated (seams : Seams changes) (past : ∀ change ∈ changes, change.observedAt ≤ now) :
    computeAvailability (List.replicate (count + 1) changes).flatten windowMs now =
      computeAvailability changes windowMs now := by
  have strict : changes.Pairwise fun before after => before.observedAt < after.observedAt :=
    seams.imp fun held => held.1
  have kept : (List.replicate (count + 1) changes).flatten.filter (·.observedAt ≤ now) =
      (List.replicate (count + 1) changes).flatten := by
    rw [List.filter_eq_self]
    intro change member
    obtain ⟨copy, listed, held⟩ := List.mem_flatten.mp member
    exact decide_eq_true (past change (List.eq_of_mem_replicate listed ▸ held))
  have repeated : sortedChanges (List.replicate (count + 1) changes).flatten now =
      changes.flatMap (List.replicate (count + 1)) := by
    rw [sortedChanges, kept, mergeSort_repeated strict]
  have once := sortedChanges_eq (strict.imp Nat.le_of_lt) past
  have none_ : ({} : Measuring).Seamless changes := fun inside => by cases inside
  have measured : measure (changes.flatMap (List.replicate (count + 1))) windowMs now = measure changes windowMs now :=
    measureFrom_repeated seams none_ none_ rfl rfl
  unfold computeAvailability
  simp only [repeated, once, getLast_repeated, measured]

end

/-! ## Intervals as scans record them -/

/-- `Seams`, for the rows of one stack -/
def SeamedRows (rows : List (IntervalRow StackRef Status)) : Prop :=
  rows.Pairwise fun before after => before.observedAt < after.observedAt ∧
    (before.status = after.status → before.observedUntil < after.observedAt)

namespace Recorder

variable {recorder : Recorder} {stack other : StackRef} {scanned : Scanned} {now : Nat}

def Seamed (recorder : Recorder) : Prop := ∀ stack, SeamedRows (recorder.table.rowsOf stack)

theorem Seamed.of_table {after : Recorder} (seamed : recorder.Seamed) (same : after.table = recorder.table) :
    after.Seamed := by
  intro stack
  rw [same]
  exact seamed stack

theorem insertObservation_rows (recorder : Recorder) (scanned : Scanned) (now : Nat) (stack : StackRef) :
    (recorder.insertObservation scanned now).1.table.rowsOf stack = recorder.table.rowsOf stack ∨
      scanned.stack = stack ∧ ∃ id, (recorder.insertObservation scanned now).1.table.rowsOf stack =
        recorder.table.rowsOf stack ++ [⟨id, stack, scanned.status, now, now⟩] := by
  unfold insertObservation
  split
  · by_cases own : scanned.stack = stack
    · refine .inr ⟨own, recorder.table.nextId, ?_⟩
      simp only [note, forgetAll_table, IntervalTable.rowsOf_insert, own, if_true]
    · left
      simp only [note, forgetAll_table, IntervalTable.rowsOf_insert, own, if_false, List.append_nil]
  · left
    rw [forgetAll_table]

/-- A new interval begins behind the ones before it, and one of its status has ended by then. -/
theorem Seamed.insert (seamed : recorder.Seamed)
    (behind : ∀ row ∈ recorder.table.rowsOf scanned.stack, row.observedAt < now ∧
      (row.status = scanned.status → row.observedUntil < now)) :
    (recorder.insertObservation scanned now).1.Seamed := by
  intro stack
  obtain same | ⟨own, id, rows⟩ := recorder.insertObservation_rows scanned now stack
  · rw [same]
    exact seamed stack
  · rw [rows]
    refine List.pairwise_append.mpr ⟨seamed stack, List.pairwise_singleton _ _, ?_⟩
    intro row member last added
    rw [List.mem_singleton.mp added]
    exact behind row (own ▸ member)

variable {previous current : LastStatus} {mark : Mark} {front : List (IntervalRow StackRef Status)}
  {row : IntervalRow StackRef Status}

theorem rowsOf_confirmed_other (rows : recorder.table.rowsOf stack = front ++ [row]) (named : row.id = previous.id)
    (differs : stack ≠ other) :
    (recorder.confirmed stack previous current now mark).table.rowsOf other = recorder.table.rowsOf other :=
  IntervalTable.rowsOf_confirm_other (by simp [rows]) named differs

theorem Seamed.confirm (seamed : recorder.Seamed) (rows : recorder.table.rowsOf stack = front ++ [row])
    (named : row.id = previous.id) : (recorder.confirmed stack previous current now mark).Seamed := by
  intro each
  by_cases own : stack = each
  · subst own
    have held := seamed stack
    rw [rows] at held
    rw [rowsOf_confirmed rows named]
    obtain ⟨earlier, -, before⟩ := List.pairwise_append.mp held
    refine List.pairwise_append.mpr ⟨earlier, List.pairwise_singleton _ _, ?_⟩
    intro first member last added
    rw [List.mem_singleton.mp added]
    exact before first member row (List.mem_singleton_self row)
  · rw [rowsOf_confirmed_other rows named own]
    exact seamed each

/-- A scan that has not come to a stack yet finds its intervals ended. -/
def Ended (recorder : Recorder) (stack : StackRef) : Prop :=
  ∀ row ∈ recorder.table.rowsOf stack, row.observedUntil < recorder.clock

theorem Seamed.recordStatus (seamed : recorder.Seamed) (tracked : recorder.Tracked)
    (ended : recorder.Ended scanned.stack) : (recorder.recordStatus scanned recorder.clock).1.Seamed := by
  have settled := (tracked scanned.stack).settled
  have behind : ∀ row ∈ recorder.table.rowsOf scanned.stack, row.observedAt < recorder.clock ∧
      (row.status = scanned.status → row.observedUntil < recorder.clock) := by
    intro row member
    exact ⟨Nat.lt_of_le_of_lt (settled.begun row member) (ended row member), fun _ => ended row member⟩
  unfold Recorder.recordStatus
  cases remembered : recorder.lastStatus (keyOf scanned.stack) with
  | none => exact seamed.insert behind
  | some previous =>
      have tracks := tracked scanned.stack
      obtain ⟨⟨front, row, rows, named, status, -, reached⟩, -, recent⟩ := tracks.current previous remembered
      have held : row ∈ recorder.table.rowsOf scanned.stack := by simp [rows]
      have past := tracks.settled.past row held
      have near : previous.recordedAt ≤ recorder.clock ∧ recorder.clock - previous.recordedAt ≤ maxScanGapMs :=
        ⟨reached.trans past, by omega⟩
      have updated := @IntervalTable.confirm_updates _ _ _ _ recorder.clock _ _ _ held named
      simp only [near, and_self, if_true, updated]
      by_cases works : scanned.updateWorks = true
      · by_cases same : previous.status = scanned.status
        · simp only [works, same, if_true, forgetAll_touch]
          rw [touched_eq remembered]
          exact (seamed.confirm rows named).of_table (forgetAll_table _)
        · simp only [works, same, if_true, if_false]
          rw [untouched_eq remembered]
          refine ((seamed.confirm rows named).of_table (forgetAll_table _)).insert ?_
          intro other member
          rw [forgetAll_table, rowsOf_confirmed rows named] at member
          obtain earlier | last := List.mem_append.mp member
          · exact behind other (by simp [rows, earlier])
          · -- The interval that was confirmed has another status.
            rw [List.mem_singleton.mp last]
            exact ⟨(behind row held).1, fun sameStatus => absurd (status.symm.trans sameStatus) same⟩
      · simp only [works]
        exact seamed.of_table (forgetAll_table _)

theorem recordStatus_rows_other (tracked : recorder.Tracked) (differs : scanned.stack ≠ stack) :
    (recorder.recordStatus scanned recorder.clock).1.table.rowsOf stack = recorder.table.rowsOf stack := by
  have inserted (held : Recorder) : (held.insertObservation scanned recorder.clock).1.table.rowsOf stack =
      held.table.rowsOf stack :=
    (held.insertObservation_rows scanned recorder.clock stack).resolve_right fun own => differs own.1
  unfold Recorder.recordStatus
  cases remembered : recorder.lastStatus (keyOf scanned.stack) with
  | none => exact inserted recorder
  | some previous =>
      obtain ⟨⟨front, row, rows, named, -, -, -⟩, -, -⟩ := (tracked scanned.stack).current previous remembered
      have confirmed : (recorder.table.confirm previous.id recorder.clock).1.rowsOf stack =
          recorder.table.rowsOf stack :=
        IntervalTable.rowsOf_confirm_other (by simp [rows]) named differs
      dsimp only
      split
      · split
        · split
          · split
            · simp only [touch_table, forgetAll_table, note_table]
              exact confirmed
            · rw [inserted, forgetAll_table]
              exact confirmed
          · rw [inserted, forgetAll_table]
            exact confirmed
        · rw [forgetAll_table]
      · exact inserted recorder

theorem Seamed.recordEach (seamed : recorder.Seamed) (tracked : recorder.Tracked) {stackList : List Scanned}
    (distinct : (stackList.map (·.stack)).Nodup) (ended : ∀ scanned ∈ stackList, recorder.Ended scanned.stack)
    (written : Nat) : (recorder.recordEach stackList recorder.clock written).1.Seamed := by
  induction stackList generalizing recorder written with
  | nil => exact seamed
  | cons scanned rest ih =>
      unfold Recorder.recordEach
      split
      · exact seamed
      · rw [List.map_cons, List.nodup_cons] at distinct
        have stepped := seamed.recordStatus tracked (ended scanned List.mem_cons_self)
        have clock : (recorder.recordStatus scanned recorder.clock).1.clock = recorder.clock := recordStatus_clock
        have later : ∀ other ∈ rest, (recorder.recordStatus scanned recorder.clock).1.Ended other.stack := by
          intro other member row held
          have differs : scanned.stack ≠ other.stack := fun same => distinct.1 (same ▸ List.mem_map_of_mem member)
          rw [recordStatus_rows_other tracked differs] at held
          rw [clock]
          exact ended other (List.mem_cons_of_mem _ member) row held
        have rest_ := ih stepped tracked.recordStatus distinct.2 later
        rw [clock] at rest_
        exact rest_ _

theorem Seamed.recordScan (seamed : recorder.Seamed) (tracked : recorder.Tracked) (later : recorder.clock < now)
    {stackList : List Scanned} (distinct : (stackList.map (·.stack)).Nodup) (aborted pruneWorks : Bool) :
    (recorder.recordScan stackList now aborted pruneWorks).1.Seamed := by
  have begun : (recorder.beginScan now).Seamed := seamed.of_table rfl
  have ended : ∀ scanned ∈ stackList, (recorder.beginScan now).Ended scanned.stack := by
    intro scanned _ row member
    exact Nat.lt_of_le_of_lt ((tracked scanned.stack).settled.past row member) later
  have recorded : ((recorder.beginScan now).recordEach stackList now 0).1.Seamed :=
    begun.recordEach (tracked.beginScan later) distinct ended 0
  unfold Recorder.recordScan
  dsimp only
  split
  · unfold pruneOldObservations
    split
    · intro stack
      rw [IntervalTable.rowsOf_prune]
      exact (recorded stack).filter _
    · exact recorded
  · exact recorded

end Recorder

/-! ## Over a whole history -/

/-- A scan that lists each stack once, as what observes them does. -/
def RecorderEvent.Distinct : RecorderEvent → Prop
  | .scan _ stackList _ _ => (stackList.map (·.stack)).Nodup
  | _ => True

theorem recorded_seamed (history : List RecorderEvent) (distinct : ∀ event ∈ history, event.Distinct) :
    (recorded history).Seamed := by
  induction history using List.reverseRecOn with
  | nil => exact fun _ => List.Pairwise.nil
  | append_singleton past event ih =>
      have seamed := ih fun earlier member => distinct earlier (List.mem_append_left _ member)
      have its := distinct event (List.mem_append_right _ (List.mem_singleton_self _))
      have tracked := recorded_tracked past
      rw [recorded, replay_append, replay_cons, replay_nil]
      cases event with
      | scan elapsed stackList aborted pruneWorks =>
          have passed : (recorded past).clock < (recorded past).clock + elapsed + 1 :=
            Nat.lt_succ_of_le (Nat.le_add_right _ _)
          exact seamed.recordScan tracked passed its aborted pruneWorks
      | forget stack => exact seamed.of_table rfl
      | restart => exact seamed.of_table rfl

section
variable {recorder : Recorder} {stack : StackRef} {windowMs now : Nat}

theorem changes_seams {rows : List (IntervalRow StackRef Status)} (seamed : SeamedRows rows)
    (settled : Settled rows recorder.clock) : Seams (rows.map changeOf) := by
  refine List.pairwise_map.mpr ?_
  exact seamed.imp₂ (fun before after held apart => ⟨held.1, apart, held.2⟩) settled.apart

/-- Several copies of the recent intervals give the availability too. -/
theorem availability_of_copies (tracks : Tracks recorder stack) (seamed : recorder.Seamed)
    (later : recorder.clock ≤ now) (wide : observationFreshnessMs ≤ windowMs) (count : Nat) :
    computeAvailability (((List.replicate (count + 1)
      ((recorder.table.rowsOf stack).filter (now - windowMs ≤ ·.observedUntil))).flatten).map changeOf) windowMs now =
      computeAvailability (recorder.changes stack) windowMs now := by
  have settled := tracks.settled.filter (now - windowMs ≤ ·.observedUntil)
  have seams := changes_seams ((seamed stack).filter _) settled
  rw [List.map_flatten, List.map_replicate, computeAvailability_repeated seams, availability_of_until tracks later wide]
  intro change member
  obtain ⟨row, held, rfl⟩ := List.mem_map.mp member
  exact ((settled.begun row held).trans (settled.past row held)).trans later

end

end Dockge.Observation
