import Mathlib.Data.List.Induction
import Dockge.PanelUpdate.Derive

namespace Dockge.PanelUpdate

/-! What the five sources of evidence leave of an operation. -/

def PanelUpdateLine.phaseText? : PanelUpdateLine → Option String
  | .phase line => some line.phase
  | _ => none

def PanelUpdateLine.phaseOp? : PanelUpdateLine → Option String
  | .phase line => some line.op
  | _ => none

def PanelUpdateLine.resultLine? : PanelUpdateLine → Option PanelUpdateResultLine
  | .result line => some line
  | _ => none

def linePhases (lines : List PanelUpdateLine) : List String := lines.filterMap (·.phaseText?)

def firstPhaseOp (lines : List PanelUpdateLine) : Option String := (lines.filterMap (·.phaseOp?)).head?

def lastResultLine (lines : List PanelUpdateLine) : Option PanelUpdateResultLine :=
  (lines.filterMap (·.resultLine?)).getLast?

/-- A phase no phase of the list ranks above; none for the empty list. -/
def Furthest (seen : List String) : Option String → Prop
  | none => seen = []
  | some phase => phase ∈ seen ∧ ∀ other ∈ seen, phaseRank (some other) ≤ phaseRank (some phase)

theorem Furthest.rank_le {seen : List String} {phase : Option String} {other : String}
    (furthest : Furthest seen phase) (member : other ∈ seen) :
    phaseRank (some other) ≤ phaseRank phase := by
  cases phase with
  | none => cases furthest ▸ member
  | some phase => exact furthest.2 other member

theorem advancePhase_furthest {seen : List String} (operation : PanelUpdateOperation) (phase : String)
    (furthest : Furthest seen operation.phase) :
    Furthest (seen ++ [phase]) (advancePhase operation phase).phase := by
  by_cases further : phaseRank (some phase) ≥ phaseRank operation.phase
  · simp only [advancePhase, if_pos further]
    refine ⟨by simp, ?_⟩
    intro other member
    rcases List.mem_append.mp member with earlier | last
    · exact Int.le_trans (furthest.rank_le earlier) further
    · have same := List.mem_singleton.mp last
      subst same
      exact Int.le_refl _
  · simp only [advancePhase, if_neg further]
    cases held : operation.phase with
    | none => exact absurd (phaseRank_ge (some phase)) (by simpa [held] using further)
    | some current =>
        rw [held] at furthest further
        refine ⟨by simp [furthest.1], ?_⟩
        intro other member
        rcases List.mem_append.mp member with earlier | last
        · exact furthest.2 other earlier
        · rw [List.mem_singleton.mp last]
          omega

@[simp] theorem advancePhase_op (operation : PanelUpdateOperation) (phase : String) :
    (advancePhase operation phase).op = operation.op := by
  unfold advancePhase
  split <;> rfl

@[simp] theorem advancePhase_kind (operation : PanelUpdateOperation) (phase : String) :
    (advancePhase operation phase).kind = operation.kind := by
  unfold advancePhase
  split <;> rfl

theorem foldLines_snoc (operation : PanelUpdateOperation) (lines : List PanelUpdateLine)
    (line : PanelUpdateLine) :
    foldLines operation (lines ++ [line]) = foldLine (foldLines operation lines) line := by
  simp [foldLines]

theorem foldLines_kind (operation : PanelUpdateOperation) (lines : List PanelUpdateLine) :
    (foldLines operation lines).1.kind = operation.kind := by
  induction lines using List.reverseRecOn with
  | nil => rfl
  | append_singleton lines line ih =>
      rw [foldLines_snoc]
      cases line <;> simp [foldLine, ih]

theorem foldLines_unfinished (operation : PanelUpdateOperation) (lines : List PanelUpdateLine) :
    (foldLines operation lines).1.result = operation.result := by
  induction lines using List.reverseRecOn with
  | nil => rfl
  | append_singleton lines line ih =>
      rw [foldLines_snoc]
      cases line <;> simp [foldLine, ih, advancePhase, apply_ite PanelUpdateOperation.result]

theorem foldLines_op (operation : PanelUpdateOperation) (lines : List PanelUpdateLine) :
    (foldLines operation lines).1.op = operation.op.or (firstPhaseOp lines) := by
  induction lines using List.reverseRecOn with
  | nil => simp [foldLines, firstPhaseOp]
  | append_singleton lines line ih =>
      rw [foldLines_snoc]
      cases line <;>
        simp [foldLine, ih, firstPhaseOp, PanelUpdateLine.phaseOp?]

theorem foldLines_result (operation : PanelUpdateOperation) (lines : List PanelUpdateLine) :
    (foldLines operation lines).2 = lastResultLine lines := by
  induction lines using List.reverseRecOn with
  | nil => rfl
  | append_singleton lines line ih =>
      rw [foldLines_snoc]
      cases line <;>
        simp [foldLine, ih, lastResultLine, PanelUpdateLine.resultLine?]

theorem foldLines_phase {operation : PanelUpdateOperation} (lines : List PanelUpdateLine)
    (unstarted : operation.phase = none) :
    Furthest (linePhases lines) (foldLines operation lines).1.phase := by
  induction lines using List.reverseRecOn with
  | nil => simp [foldLines, unstarted, linePhases, Furthest]
  | append_singleton lines line ih =>
      rw [foldLines_snoc]
      cases line with
      | phase line =>
          have seen : linePhases (lines ++ [.phase line]) = linePhases lines ++ [line.phase] := by
            simp [linePhases, PanelUpdateLine.phaseText?]
          rw [seen]
          exact advancePhase_furthest { (foldLines operation lines).1 with
            op := (foldLines operation lines).1.op.or (some line.op) } line.phase ih
      | preview line => simpa [linePhases, foldLine, PanelUpdateLine.phaseText?] using ih
      | result line => simpa [linePhases, foldLine, PanelUpdateLine.phaseText?] using ih
      | journal line => simpa [linePhases, foldLine, PanelUpdateLine.phaseText?] using ih

theorem fromResultLine_operation (operation : PanelUpdateOperation) (line : PanelUpdateResultLine)
    (exitCode : Option Int) (panelVersion : String) :
    (fromResultLine operation line exitCode panelVersion).1 =
      advancePhase (if line.op ≠ "" then { operation with op := some line.op } else operation)
        line.phase := by
  simp only [fromResultLine, apply_ite Prod.fst, ite_self]

theorem fromResultLine_furthest {seen : List String} {operation : PanelUpdateOperation}
    (line : PanelUpdateResultLine) (exitCode : Option Int) (panelVersion : String)
    (furthest : Furthest seen operation.phase) :
    Furthest (seen ++ [line.phase]) (fromResultLine operation line exitCode panelVersion).1.phase := by
  rw [fromResultLine_operation]
  apply advancePhase_furthest
  split <;> exact furthest

/-- A result line gives its outcome only together with the exit code it stands for, and a
success of an apply only to the target version. -/
theorem fromResultLine_outcome {operation : PanelUpdateOperation} {line : PanelUpdateResultLine}
    {exitCode : Option Int} {panelVersion : String}
    (known : (fromResultLine operation line exitCode panelVersion).2.outcome ≠ .unknown) :
    (fromResultLine operation line exitCode panelVersion).2.outcome = line.outcome ∧
      (line.outcome ∈ successfulOutcomes ↔ exitCode = some 0) ∧
      (line.outcome = .success → operation.kind = .apply → line.toVersion = panelVersion) := by
  have kept : (if line.op ≠ "" then { operation with op := some line.op } else operation).kind =
      operation.kind := by split <;> rfl
  by_cases mismatch : decide (line.outcome ∈ successfulOutcomes) ≠ decide (exitCode = some 0)
  · simp only [fromResultLine, if_pos mismatch] at known
    exact absurd rfl known
  · simp only [fromResultLine, if_neg mismatch, advancePhase_kind, kept] at known ⊢
    by_cases version : line.outcome = .success ∧ operation.kind = .apply ∧ line.toVersion ≠ panelVersion
    · simp only [if_pos version] at known
      exact absurd rfl known
    · refine ⟨by simp only [if_neg version], by simpa using mismatch, ?_⟩
      intro success apply
      by_contra other
      exact version ⟨success, apply, other⟩

theorem fromJournal_furthest {seen : List String} {operation : PanelUpdateOperation}
    (journal : PanelUpdateJournalLine) (panelVersion : String)
    (furthest : Furthest seen operation.phase) :
    Furthest (seen ++ [journal.phase]) (fromJournal operation journal panelVersion).1.phase :=
  advancePhase_furthest { operation with op := some journal.op } journal.phase furthest

theorem journalOutcome_success {phase : String} (success : journalOutcome phase = some .success) :
    phase = "success" := by
  unfold journalOutcome at success
  split at success
  · assumption
  · split at success
    · simp at success
    · split at success
      · simp at success
      · split at success <;> simp at success

theorem fromJournal_success {operation : PanelUpdateOperation} {journal : PanelUpdateJournalLine}
    {panelVersion : String} (success : (fromJournal operation journal panelVersion).2.outcome = .success) :
    journal.phase = "success" ∧ journal.toVersion = panelVersion := by
  cases final : journalOutcome journal.phase with
  | none => simp [fromJournal, final] at success
  | some outcome =>
      by_cases version : outcome = .success ∧ journal.toVersion ≠ panelVersion
      · simp [fromJournal, final, version] at success
      · have same : outcome = .success := by
          simpa only [fromJournal, final, if_neg version] using success
        subst outcome
        exact ⟨journalOutcome_success final, by simpa using version⟩

theorem startFailure_startError {helper : PanelUpdateHelper} {lines : List PanelUpdateLine}
    (started : startFailure helper lines = none) : helper.startError = none := by
  unfold startFailure at started
  by_contra failed
  simp [Option.isSome_iff_ne_none.mpr failed] at started

theorem startFailure_refused {helper : PanelUpdateHelper} {lines : List PanelUpdateLine}
    {result : PanelUpdateResult} (failed : startFailure helper lines = some result) :
    result.outcome = .refused := by
  simp only [startFailure] at failed
  split at failed
  · cases failed
    rfl
  · split at failed
    · cases failed
      rfl
    · contradiction

section
variable (dateParse : String → Option Int)

/-- The journal names the operation of the first phase line, or, where that line is missing
or names none, was recorded no earlier than the helper started. -/
def NamedOrLater (helper : PanelUpdateHelper) (lines : List PanelUpdateLine)
    (journal : PanelUpdateJournalLine) : Prop :=
  (∃ op, firstPhaseOp lines = some op ∧ op ≠ "" ∧ journal.op = op) ∨
  ((firstPhaseOp lines = none ∨ firstPhaseOp lines = some "") ∧
    ∃ recorded started, operationTime journal.op = some recorded ∧
      dateParse helper.startedAt = some started ∧ started ≤ recorded)

variable {dateParse}

theorem recordedSince_iff {helper : PanelUpdateHelper} {journal : PanelUpdateJournalLine} :
    journalBelongs.recordedSince dateParse journal helper = true ↔
      ∃ recorded started, operationTime journal.op = some recorded ∧
        dateParse helper.startedAt = some started ∧ started ≤ recorded := by
  unfold journalBelongs.recordedSince
  cases operationTime journal.op <;> cases dateParse helper.startedAt <;> simp

theorem journalBelongs_iff {helper : PanelUpdateHelper} {lines : List PanelUpdateLine}
    {journal : PanelUpdateJournalLine} {operation : PanelUpdateOperation}
    (named : operation.op = firstPhaseOp lines) :
    journalBelongs dateParse operation journal helper = true ↔
      journal.fromVersion = helper.fromVersion ∧ journal.toVersion = helper.toVersion ∧
        NamedOrLater dateParse helper lines journal := by
  unfold journalBelongs NamedOrLater
  rw [named]
  by_cases versions : journal.fromVersion ≠ helper.fromVersion ∨ journal.toVersion ≠ helper.toVersion
  · simp only [if_pos versions, Bool.false_eq_true, false_iff]
    tauto
  · simp only [if_neg versions]
    obtain ⟨sameFrom, sameTo⟩ := not_or.mp versions
    cases firstPhaseOp lines with
    | none => simp [not_not.mp sameFrom, not_not.mp sameTo, recordedSince_iff]
    | some op =>
        by_cases empty : op = ""
        · simp [empty, not_not.mp sameFrom, not_not.mp sameTo, recordedSince_iff]
        · simp [empty, not_not.mp sameFrom, not_not.mp sameTo]
          exact ⟨fun same => ⟨same.symm, same ▸ empty⟩, fun both => both.1.symm⟩

/-- The phases an operation was derived from, oldest first: those of the phase lines, and
that of the result line or of the journal when the result was taken from it. -/
def phasesRead (dateParse : String → Option Int) (helper : PanelUpdateHelper)
    (lines : List PanelUpdateLine) (journal : Option PanelUpdateJournalLine) : List String :=
  if helper.running ∨ (startFailure helper lines).isSome then linePhases lines
  else
    match lastResultLine lines, journal with
    | some line, _ => linePhases lines ++ [line.phase]
    | none, some journal =>
        if helper.kind = .apply ∧
            journalBelongs dateParse (foldLines (helperOperation helper) lines).1 journal helper then
          linePhases lines ++ [journal.phase]
        else linePhases lines
    | none, none => linePhases lines

theorem helperOperation_apply {helper : PanelUpdateHelper} :
    (helperOperation helper).kind = .apply ↔ helper.kind = .apply := by
  unfold helperOperation
  split <;> simp_all

/-- How each source of evidence leaves an ended operation. -/
theorem endedResult_cases (dateParse : String → Option Int) (helper : PanelUpdateHelper) (lines : List PanelUpdateLine)
    (panelVersion : String) (journal : Option PanelUpdateJournalLine) :
    let folded := (foldLines (helperOperation helper) lines).1
    let ended := endedResult dateParse helper lines panelVersion journal
    (∃ refused, startFailure helper lines = some refused ∧ ended = (folded, refused)) ∨
    (startFailure helper lines = none ∧ ∃ line, lastResultLine lines = some line ∧
      ended = fromResultLine folded line helper.exitCode panelVersion) ∨
    (startFailure helper lines = none ∧ lastResultLine lines = none ∧ ∃ record, journal = some record ∧
      helper.kind = .apply ∧ journalBelongs dateParse folded record helper = true ∧
      ended = fromJournal folded record panelVersion) ∨
    (startFailure helper lines = none ∧ lastResultLine lines = none ∧
      (∀ record, journal = some record →
        ¬ (helper.kind = .apply ∧ journalBelongs dateParse folded record helper = true)) ∧
      ended = (folded, { outcome := .unknown, code := some .noResult })) := by
  intro folded ended
  have line := foldLines_result (helperOperation helper) lines
  have kind : folded.kind = .apply ↔ helper.kind = .apply := by
    rw [foldLines_kind, helperOperation_apply]
  cases failed : startFailure helper lines with
  | some refused => exact .inl ⟨refused, rfl, by simp only [ended, endedResult, failed]; rfl⟩
  | none =>
      cases last : lastResultLine lines with
      | some printed =>
          exact .inr (.inl ⟨rfl, printed, rfl, by
            simp only [ended, endedResult, failed, line, last]; rfl⟩)
      | none =>
          cases journal with
          | none =>
              exact .inr (.inr (.inr ⟨rfl, rfl, by simp, by
                simp only [ended, endedResult, failed, line, last]; rfl⟩))
          | some record =>
              by_cases belongs : helper.kind = .apply ∧ journalBelongs dateParse folded record helper = true
              · refine .inr (.inr (.inl ⟨rfl, rfl, record, rfl, belongs.1, belongs.2, ?_⟩))
                simp only [ended, endedResult, failed, line, last]
                exact if_pos ⟨kind.mpr belongs.1, belongs.2⟩
              · refine .inr (.inr (.inr ⟨rfl, rfl, ?_, ?_⟩))
                · intro other same
                  cases same
                  exact belongs
                · simp only [ended, endedResult, failed, line, last]
                  exact if_neg (fun both => belongs ⟨kind.mp both.1, both.2⟩)

theorem helperOperation_phase (helper : PanelUpdateHelper) : (helperOperation helper).phase = none := rfl

theorem foldLines_helper_op (helper : PanelUpdateHelper) (lines : List PanelUpdateLine) :
    (foldLines (helperOperation helper) lines).1.op = firstPhaseOp lines := by
  rw [foldLines_op]
  rfl

/-- A helper that still runs has no result; an ended one has the result of its evidence. -/
theorem derive_result {helper : PanelUpdateHelper} {lines : List PanelUpdateLine}
    {panelVersion : String} {journal : Option PanelUpdateJournalLine} {result : PanelUpdateResult}
    (derived : (derivePanelUpdateOperation dateParse helper lines panelVersion journal).result =
      some result) :
    helper.running = false ∧
      result.outcome = (endedResult dateParse helper lines panelVersion journal).2.outcome := by
  unfold derivePanelUpdateOperation at derived
  cases live : helper.running with
  | true =>
      simp [live, foldLines_unfinished, helperOperation] at derived
  | false =>
      simp only [live, Bool.false_eq_true, if_false, Option.some.injEq] at derived
      exact ⟨rfl, derived ▸ rfl⟩

theorem derive_phase (helper : PanelUpdateHelper) (lines : List PanelUpdateLine)
    (panelVersion : String) (journal : Option PanelUpdateJournalLine) :
    Furthest (phasesRead dateParse helper lines journal)
      (derivePanelUpdateOperation dateParse helper lines panelVersion journal).phase := by
  have folded := foldLines_phase lines (helperOperation_phase helper)
  unfold derivePanelUpdateOperation phasesRead
  cases live : helper.running with
  | true => simpa using folded
  | false =>
      simp only [Bool.false_eq_true, if_false, false_or]
      rcases endedResult_cases dateParse helper lines panelVersion journal with
        ⟨refused, failed, ended⟩ | ⟨started, line, last, ended⟩ |
          ⟨started, last, record, rfl, apply, belongs, ended⟩ | ⟨started, last, foreign, ended⟩
      · simpa [failed, ended] using folded
      · simpa [started, last, ended] using
          fromResultLine_furthest line helper.exitCode panelVersion folded
      · simpa [started, last, ended, apply, belongs] using
          fromJournal_furthest record panelVersion folded
      · cases journal with
        | none => simpa [started, last, ended] using folded
        | some record =>
            simpa only [started, last, ended, Option.isSome_none, Bool.false_eq_true, if_false,
              if_neg (foreign record rfl)] using folded

theorem derive_success {helper : PanelUpdateHelper} {lines : List PanelUpdateLine}
    {panelVersion : String} {journal : Option PanelUpdateJournalLine} {result : PanelUpdateResult}
    (apply : helper.kind = .apply)
    (derived : (derivePanelUpdateOperation dateParse helper lines panelVersion journal).result =
      some result)
    (success : result.outcome = .success) :
    helper.running = false ∧ helper.startError = none ∧
      ((∃ line, lastResultLine lines = some line ∧ line.outcome = .success ∧
          helper.exitCode = some 0 ∧ line.toVersion = panelVersion) ∨
        (lastResultLine lines = none ∧ ∃ record, journal = some record ∧
          record.fromVersion = helper.fromVersion ∧ record.toVersion = helper.toVersion ∧
          record.phase = "success" ∧ record.toVersion = panelVersion ∧
          NamedOrLater dateParse helper lines record)) := by
  obtain ⟨ended, outcome⟩ := derive_result derived
  rw [success] at outcome
  refine ⟨ended, ?_⟩
  rcases endedResult_cases dateParse helper lines panelVersion journal with
    ⟨refused, failed, source⟩ | ⟨started, line, last, source⟩ |
      ⟨started, last, record, rfl, _, belongs, source⟩ | ⟨started, last, _, source⟩
  · rw [source, startFailure_refused failed] at outcome
    contradiction
  · rw [source] at outcome
    have known := ne_of_eq_of_ne outcome.symm (by simp : PanelUpdateOutcome.success ≠ .unknown)
    obtain ⟨same, exit, version⟩ := fromResultLine_outcome known
    have printed : line.outcome = .success := same.symm.trans outcome.symm
    have kind : (foldLines (helperOperation helper) lines).1.kind = .apply := by
      rw [foldLines_kind, helperOperation_apply]
      exact apply
    exact ⟨startFailure_startError started, .inl ⟨line, last, printed,
      exit.mp (by simp [printed, successfulOutcomes]), version printed kind⟩⟩
  · rw [source] at outcome
    obtain ⟨final, version⟩ := fromJournal_success outcome.symm
    obtain ⟨sameFrom, sameTo, named⟩ :=
      (journalBelongs_iff (foldLines_helper_op helper lines)).mp belongs
    exact ⟨startFailure_startError started,
      .inr ⟨last, record, rfl, sameFrom, sameTo, final, version, named⟩⟩
  · rw [source] at outcome
    contradiction

theorem derive_exitCode {helper : PanelUpdateHelper} {lines : List PanelUpdateLine}
    {panelVersion : String} {journal : Option PanelUpdateJournalLine} {result : PanelUpdateResult}
    {line : PanelUpdateResultLine}
    (started : startFailure helper lines = none) (last : lastResultLine lines = some line)
    (derived : (derivePanelUpdateOperation dateParse helper lines panelVersion journal).result =
      some result)
    (known : result.outcome ≠ .unknown) :
    result.outcome ∈ successfulOutcomes ↔ helper.exitCode = some 0 := by
  obtain ⟨_, outcome⟩ := derive_result derived
  rcases endedResult_cases dateParse helper lines panelVersion journal with
    ⟨_, failed, _⟩ | ⟨_, printed, found, source⟩ | ⟨_, absent, _⟩ | ⟨_, absent, _⟩
  · simp [started] at failed
  · rw [source] at outcome
    obtain ⟨same, exit, _⟩ := fromResultLine_outcome (outcome ▸ known)
    rw [outcome, same]
    exact exit
  · simp [last] at absent
  · simp [last] at absent

variable (dateParse)

/-- Fail closed: success needs the updater's result line, exit code 0 and the answering
panel on the target version, or a journal of this operation that says all of it; an
outcome read from a result line agrees with the exit code; and the phase is the furthest
of those the operation was derived from. -/
theorem derivePanelUpdateOperation_fail_closed (helper : PanelUpdateHelper)
    (lines : List PanelUpdateLine) (panelVersion : String) (journal : Option PanelUpdateJournalLine) :
    (∀ result, helper.kind = .apply →
      (derivePanelUpdateOperation dateParse helper lines panelVersion journal).result = some result →
      result.outcome = .success →
      helper.running = false ∧ helper.startError = none ∧
        ((∃ line, lastResultLine lines = some line ∧ line.outcome = .success ∧
            helper.exitCode = some 0 ∧ line.toVersion = panelVersion) ∨
          (lastResultLine lines = none ∧ ∃ record, journal = some record ∧
            record.fromVersion = helper.fromVersion ∧ record.toVersion = helper.toVersion ∧
            record.phase = "success" ∧ record.toVersion = panelVersion ∧
            NamedOrLater dateParse helper lines record))) ∧
    (∀ result line, startFailure helper lines = none → lastResultLine lines = some line →
      (derivePanelUpdateOperation dateParse helper lines panelVersion journal).result = some result →
      result.outcome ≠ .unknown →
      (result.outcome ∈ successfulOutcomes ↔ helper.exitCode = some 0)) ∧
    Furthest (phasesRead dateParse helper lines journal)
      (derivePanelUpdateOperation dateParse helper lines panelVersion journal).phase :=
  ⟨fun _ apply derived success => derive_success apply derived success,
    fun _ _ started last derived known => derive_exitCode started last derived known,
    derive_phase helper lines panelVersion journal⟩

/-- A helper killed after two phase lines, the first of which names no operation. -/
def killedHelper : PanelUpdateHelper :=
  { kind := .apply, requestId := "6f1f0000-0000-4000-8000-000000000001", fromVersion := "0.0.13"
    toVersion := "0.0.14", startedAt := "1970-01-01T00:00:00Z", running := false
    exitCode := some 137, finishedAt := none, startError := none }

def unnamedThenNamed : List PanelUpdateLine :=
  [.phase { op := "", phase := "prepared", fromVersion := "0.0.13", toVersion := "0.0.14" },
    .phase { op := "20260926T101500.000000000", phase := "downloaded", fromVersion := "0.0.13"
             toVersion := "0.0.14" }]

def laterJournal : PanelUpdateJournalLine :=
  { op := "20260926T111500.000000000", phase := "success", fromVersion := "0.0.13"
    toVersion := "0.0.14", error := none, restoredData := none }

/-- The first phase line alone decides which journal belongs: with an empty id there, the
id of a later line is not compared, and a journal of another operation makes the success. -/
theorem later_op_not_compared :
    ((derivePanelUpdateOperation (fun _ => some 0) killedHelper unnamedThenNamed "0.0.14"
        (some laterJournal)).result.map (·.outcome) = some .success) ∧
      lastResultLine unnamedThenNamed = none ∧
      firstPhaseOp unnamedThenNamed ≠ some laterJournal.op ∧
      ∃ line ∈ unnamedThenNamed, line.phaseOp? = some "20260926T101500.000000000" := by
  refine ⟨by decide, by decide, by decide, ?_⟩
  exact ⟨_, List.mem_cons_of_mem _ (List.mem_singleton.mpr rfl), rfl⟩

end

end Dockge.PanelUpdate
