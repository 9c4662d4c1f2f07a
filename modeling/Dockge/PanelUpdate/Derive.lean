import Dockge.PanelUpdate.Contract

namespace Dockge.PanelUpdate

/-! Deriving one operation from its helper: the labels, the exit code, the lines it
printed and, when those end without a result, the journal on the host. -/

/-- Journal phase of a finished operation to the outcome it stands for. -/
def journalOutcome (phase : String) : Option PanelUpdateOutcome :=
  if phase = "success" then some .success
  else if phase = "failed-before-cutover" then some .failedBeforeCutover
  else if phase = "recovered" then some .recovered
  else if phase = "recovery-required" then some .recoveryRequired
  else none

/-- Keep the furthest phase; a late or unknown one never moves the operation back. -/
def advancePhase (operation : PanelUpdateOperation) (phase : String) : PanelUpdateOperation :=
  if phaseRank (some phase) ≥ phaseRank operation.phase then { operation with phase := some phase }
  else operation

def foldLine (folded : PanelUpdateOperation × Option PanelUpdateResultLine) :
    PanelUpdateLine → PanelUpdateOperation × Option PanelUpdateResultLine
  | .phase line =>
      let named := { folded.1 with op := folded.1.op.or (some line.op) }
      (advancePhase named line.phase, folded.2)
  | .preview line =>
      ({ folded.1 with preview := some {
          channel := line.channel, fields := line.fields, schemaChanges := line.schemaChanges } },
        folded.2)
  | .result line => (folded.1, some line)
  | .journal _ => folded

/-- Fold the phase and preview lines into the operation and return the last result line. -/
def foldLines (operation : PanelUpdateOperation) (lines : List PanelUpdateLine) :
    PanelUpdateOperation × Option PanelUpdateResultLine :=
  lines.foldl foldLine (operation, none)

/-- The result the updater printed, checked against the exit code and the answering version. -/
def fromResultLine (operation : PanelUpdateOperation) (line : PanelUpdateResultLine)
    (exitCode : Option Int) (panelVersion : String) : PanelUpdateOperation × PanelUpdateResult :=
  let named := if line.op ≠ "" then { operation with op := some line.op } else operation
  let operation := advancePhase named line.phase
  if decide (line.outcome ∈ successfulOutcomes) ≠ decide (exitCode = some 0) then
    (operation, { outcome := .unknown, code := some .exitMismatch })
  else if line.outcome = .success ∧ operation.kind = .apply ∧ line.toVersion ≠ panelVersion then
    (operation, { outcome := .unknown, code := some .versionMismatch })
  else
    (operation, { outcome := line.outcome, error := line.error, restoredData := line.restoredData })

/-- The number a run of decimal digits spells. -/
def decimal (digits : List Char) : Option Int :=
  if digits.all Char.isDigit then
    some (digits.foldl (fun value digit => value * 10 + (digit.toNat - '0'.toNat)) 0)
  else none

/-- Days from 1970-01-01 to a date of the proleptic Gregorian calendar. -/
def daysFromCivil (year month day : Int) : Int :=
  let shifted := if month ≤ 2 then year - 1 else year
  let era := shifted / 400
  let yearOfEra := shifted - era * 400
  let dayOfYear := (153 * ((month + 9) % 12) + 2) / 5 + day - 1
  let dayOfEra := yearOfEra * 365 + yearOfEra / 4 - yearOfEra / 100 + dayOfYear
  era * 146097 + dayOfEra - 719468

/-- `Date.UTC`: fields outside their range carry over, and a year below 100 is one of the
twentieth century. -/
def dateUTC (year month day hour minute second ms : Int) : Int :=
  let full := if 0 ≤ year ∧ year ≤ 99 then 1900 + year else year
  let days := daysFromCivil (full + month / 12) (month % 12 + 1) 1 + (day - 1)
  (((days * 24 + hour) * 60 + minute) * 60 + second) * 1000 + ms

/-- Time of an updater operation id, `20060102T150405.000000000` in UTC, in milliseconds. -/
def operationTime (op : String) : Option Int := do
  let text := op.toList
  guard (text.length = 25 ∧ text[8]? = some 'T' ∧ text[15]? = some '.')
  let year ← decimal (text.take 4)
  let month ← decimal ((text.drop 4).take 2)
  let day ← decimal ((text.drop 6).take 2)
  let hour ← decimal ((text.drop 9).take 2)
  let minute ← decimal ((text.drop 11).take 2)
  let second ← decimal ((text.drop 13).take 2)
  let ms ← decimal ((text.drop 16).take 3)
  let _ ← decimal (text.drop 19)
  return dateUTC year (month - 1) day hour minute second ms

/-- A helper that never ran the update: the updater is missing, Docker refused the
container, or an updater older than `--progress json` rejected the flag. -/
def startFailure (helper : PanelUpdateHelper) (lines : List PanelUpdateLine) : Option PanelUpdateResult :=
  let missing := helper.exitCode = some 126 ∨ helper.exitCode = some 127
  if helper.startError.isSome ∨ (missing ∧ lines = []) then
    some { outcome := .refused, code := some (if missing then .updaterMissing else .startFailed) }
  else if helper.exitCode = some 2 ∧ lines = [] then
    some { outcome := .refused, code := some .updaterOutdated }
  else none

/-- Where the journal on the host says an operation without a result line stopped. -/
def fromJournal (operation : PanelUpdateOperation) (journal : PanelUpdateJournalLine)
    (panelVersion : String) : PanelUpdateOperation × PanelUpdateResult :=
  let operation := advancePhase { operation with op := some journal.op } journal.phase
  let value : PanelUpdateResult :=
    match journalOutcome journal.phase with
    | none => { outcome := .unknown, code := some .interrupted }
    | some outcome =>
        if outcome = .success ∧ journal.toVersion ≠ panelVersion then
          { outcome := .unknown, code := some .versionMismatch }
        else { outcome }
  (operation, { value with error := journal.error, restoredData := journal.restoredData })

/-- What the labels of the helper say before any line is read. -/
def helperOperation (helper : PanelUpdateHelper) : PanelUpdateOperation :=
  { requestId := helper.requestId
    kind := if helper.kind = .apply then .apply else .preview
    fromVersion := helper.fromVersion
    toVersion := helper.toVersion
    startedAt := helper.startedAt
    running := helper.running }

section
variable (dateParse : String → Option Int)

/-- Whether the journal is about this helper's operation.  Without an id from the lines,
the operation has to be the same versions and recorded after the helper started. -/
def journalBelongs (operation : PanelUpdateOperation) (journal : PanelUpdateJournalLine)
    (helper : PanelUpdateHelper) : Bool :=
  if journal.fromVersion ≠ helper.fromVersion ∨ journal.toVersion ≠ helper.toVersion then false
  else
    match operation.op with
    | some op => if op ≠ "" then journal.op = op else recordedSince journal helper
    | none => recordedSince journal helper
where
  recordedSince (journal : PanelUpdateJournalLine) (helper : PanelUpdateHelper) : Bool :=
    match operationTime journal.op, dateParse helper.startedAt with
    | some recorded, some started => recorded ≥ started
    | _, _ => false

/-- The result of a helper that ended, with the operation as its source leaves it. -/
def endedResult (helper : PanelUpdateHelper) (lines : List PanelUpdateLine) (panelVersion : String)
    (journal : Option PanelUpdateJournalLine) : PanelUpdateOperation × PanelUpdateResult :=
  let (operation, line) := foldLines (helperOperation helper) lines
  match startFailure helper lines, line, journal with
  | some refused, _, _ => (operation, refused)
  | none, some line, _ => fromResultLine operation line helper.exitCode panelVersion
  | none, none, some journal =>
      if operation.kind = .apply ∧ journalBelongs dateParse operation journal helper then
        fromJournal operation journal panelVersion
      else (operation, { outcome := .unknown, code := some .noResult })
  | none, none, none => (operation, { outcome := .unknown, code := some .noResult })

/-- Derive one operation from its helper, fail closed. -/
def derivePanelUpdateOperation (helper : PanelUpdateHelper) (lines : List PanelUpdateLine)
    (panelVersion : String) (journal : Option PanelUpdateJournalLine) : PanelUpdateOperation :=
  if helper.running then (foldLines (helperOperation helper) lines).1
  else
    let (operation, result) := endedResult dateParse helper lines panelVersion journal
    { operation with result := some { result with
        finishedAt := if helper.finishedAt = some "" then none else helper.finishedAt } }

end

end Dockge.PanelUpdate
