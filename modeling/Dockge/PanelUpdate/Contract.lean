import Mathlib.Data.List.Basic

namespace Dockge.PanelUpdate

/-! The contract between the host updater, the panel that observes it and the page. -/

/-- Journal phases of a running update, in the order the updater writes them. -/
def panelUpdatePhases : List String :=
  ["prepared", "downloaded", "stopping", "backing-up", "starting-target", "checking-target", "rolling-back"]

/-- Journal phases after which the updater no longer runs. -/
def panelUpdateFinalPhases : List String :=
  ["success", "failed-before-cutover", "recovered", "recovery-required"]

/-- How an operation ended.  Only the observer produces `unknown`. -/
inductive PanelUpdateOutcome where
  | previewed
  | success
  | noChange
  | refused
  | failedBeforeCutover
  | recovered
  | recoveryRequired
  | unknown
deriving DecidableEq, Repr

def PanelUpdateOutcome.text : PanelUpdateOutcome → String
  | .previewed => "previewed"
  | .success => "success"
  | .noChange => "no-change"
  | .refused => "refused"
  | .failedBeforeCutover => "failed-before-cutover"
  | .recovered => "recovered"
  | .recoveryRequired => "recovery-required"
  | .unknown => "unknown"

/-- Outcomes that come with exit code 0. -/
def successfulOutcomes : List PanelUpdateOutcome := [.previewed, .success, .noChange]

/-- Why an outcome is `unknown` or `refused` without the updater saying so.  A page keeps
the text of a code that a newer panel sent. -/
inductive PanelUpdateResultCode where
  | updaterMissing
  | updaterOutdated
  | startFailed
  | noResult
  | interrupted
  | exitMismatch
  | versionMismatch
  | other (text : String)
deriving DecidableEq, Repr

/-- Why the page shows host commands instead of an Update button. -/
inductive PanelUpdateManualReason where
  | notContainer
  | noInstallation
  | updaterMissing
  | unsupported
  | unreadable
deriving DecidableEq, Repr

def PanelUpdateResultCode.text : PanelUpdateResultCode → String
  | .updaterMissing => "updater-missing"
  | .updaterOutdated => "updater-outdated"
  | .startFailed => "start-failed"
  | .noResult => "no-result"
  | .interrupted => "interrupted"
  | .exitMismatch => "exit-mismatch"
  | .versionMismatch => "version-mismatch"
  | .other text => text

/-- A helper runs one of these; `status` only reads the journal. -/
inductive PanelUpdateKind where
  | preview
  | apply
  | status
deriving DecidableEq, Repr

/-- What an operation of the status is. -/
inductive PanelUpdateOperationKind where
  | preview
  | apply
deriving DecidableEq, Repr

/-- The decimal digits a text starts with, with what follows; none where it starts with none. -/
def takeNumber (text : List Char) : Option (List Char) :=
  match text.span Char.isDigit with
  | ([], _) => none
  | (_, rest) => some rest

def takeDot : List Char → Option (List Char)
  | '.' :: rest => some rest
  | _ => none

/-- A version the browser may name: `/^\d+\.\d+\.\d+(-[0-9A-Za-z.-]+)?$/`. -/
def panelVersionPattern (version : String) : Bool :=
  match (((takeNumber version.toList).bind takeDot).bind takeNumber).bind takeDot |>.bind takeNumber with
  | none => false
  | some [] => true
  | some ('-' :: suffix) => suffix ≠ [] ∧ suffix.all fun char => char.isAlphanum || char == '.' || char == '-'
  | some _ => false

/-- A request id the page generates: lower case hexadecimal digits in groups of 8, 4, 4, 4
and 12. -/
def panelUpdateRequestPattern (request : String) : Bool :=
  request.toList.length = 36 ∧ request.toList.zipIdx.all fun (char, index) =>
    if index ∈ [8, 13, 18, 23] then char == '-'
    else char.isDigit || ('a' ≤ char && char ≤ 'f')

/-- How long a finished dry run authorises an apply of its target version. -/
def panelUpdatePreviewTtlMs : Int := 10 * 60 * 1000

structure PanelUpdatePhaseLine where
  op : String
  phase : String
  fromVersion : String
  toVersion : String
deriving DecidableEq, Repr

structure PanelUpdatePreview where
  channel : String
  fields : List String
  schemaChanges : Bool
deriving DecidableEq, Repr

structure PanelUpdatePreviewLine where
  fromVersion : String
  toVersion : String
  channel : String
  fields : List String
  schemaChanges : Bool
deriving DecidableEq, Repr

/-- The updater never prints `unknown`; the parser drops a line that says so. -/
structure PanelUpdateResultLine where
  op : String
  outcome : PanelUpdateOutcome
  phase : String
  fromVersion : String
  toVersion : String
  error : Option String
  restoredData : Option Bool
  known : outcome ≠ .unknown
deriving DecidableEq, Repr

structure PanelUpdateJournalLine where
  op : String
  phase : String
  fromVersion : String
  toVersion : String
  error : Option String
  restoredData : Option Bool
deriving DecidableEq, Repr

inductive PanelUpdateLine where
  | phase (line : PanelUpdatePhaseLine)
  | preview (line : PanelUpdatePreviewLine)
  | result (line : PanelUpdateResultLine)
  | journal (line : PanelUpdateJournalLine)
deriving DecidableEq, Repr

/-- What the observer reads from `docker inspect` of a helper. -/
structure PanelUpdateHelper where
  kind : PanelUpdateKind
  requestId : String
  fromVersion : String
  toVersion : String
  startedAt : String
  running : Bool
  exitCode : Option Int
  finishedAt : Option String
  startError : Option String
deriving DecidableEq, Repr

structure PanelUpdateResult where
  outcome : PanelUpdateOutcome
  code : Option PanelUpdateResultCode := none
  error : Option String := none
  finishedAt : Option String := none
  restoredData : Option Bool := none
deriving DecidableEq, Repr

/-- One operation as the page sees it. -/
structure PanelUpdateOperation where
  requestId : String
  kind : PanelUpdateOperationKind
  op : Option String := none
  fromVersion : String
  toVersion : String
  startedAt : String
  running : Bool
  phase : Option String := none
  preview : Option PanelUpdatePreview := none
  result : Option PanelUpdateResult := none
deriving DecidableEq, Repr

inductive PanelUpdateManaged where
  | yes
  | no
  | unknown
deriving DecidableEq, Repr

structure PanelUpdatePanel where
  version : String
  managed : PanelUpdateManaged
  reason : Option PanelUpdateManualReason
deriving DecidableEq, Repr

/-- The status the panel sends. -/
structure PanelUpdateStatus where
  panel : PanelUpdatePanel
  operation : Option PanelUpdateOperation
deriving DecidableEq, Repr

/-- Order of a phase: -1 before any phase, the index for a running phase, and one rank
for every final phase.  A phase the build does not know ranks with no phase at all. -/
def phaseRank (phase : Option String) : Int :=
  match phase with
  | none => -1
  | some phase =>
      match panelUpdatePhases.idxOf? phase with
      | some running => running
      | none => if phase ∈ panelUpdateFinalPhases then panelUpdatePhases.length else -1

/-- Cancel is offered only while the image is still being fetched. -/
def canCancelPanelUpdate (phase : Option String) : Bool :=
  phaseRank phase < phaseRank (some "downloaded")

theorem phaseRank_ge (phase : Option String) : -1 ≤ phaseRank phase := by
  unfold phaseRank
  split
  · exact Int.le_refl _
  · split
    · omega
    · split <;> simp

@[simp] theorem phaseRank_none : phaseRank none = -1 := rfl

end Dockge.PanelUpdate
