import Dockge.DockerRun.Compose
import Dockge.DockerRun.Rebuild

namespace Dockge.DockerRun

/-! Every flag of a command is in its report. -/

variable {verdicts : Verdicts} {report : ConversionReport} {flags : List ParsedFlag}

def ConversionReport.get (report : ConversionReport) : FlagOutcome → List FlagReportItem
  | .carried => report.carried
  | .review => report.review
  | .dropped => report.dropped

/-- The lines of the flags, in the order of the command -/
def reportItems (verdicts : Verdicts) (index : Nat) : List ParsedFlag → List FlagReportItem
  | [] => []
  | parsed :: rest => reportItem verdicts index parsed :: reportItems verdicts (index + 1) rest

def FlagReportItem.parsed (item : FlagReportItem) : ParsedFlag := ⟨item.flag, item.value⟩

theorem reportItems_parsed (verdicts : Verdicts) (index : Nat) (flags : List ParsedFlag) :
    (reportItems verdicts index flags).map FlagReportItem.parsed = flags := by
  induction flags generalizing index with
  | nil => rfl
  | cons parsed rest ih =>
      rw [reportItems, List.map_cons, ih]
      rfl

theorem push_get (report : ConversionReport) (item : FlagReportItem) (outcome : FlagOutcome) :
    (report.push item).get outcome = report.get outcome ++ [item].filter (·.verdict.outcome = outcome) := by
  unfold ConversionReport.push
  cases own : item.verdict.outcome with
  | carried => cases outcome <;> simp [ConversionReport.get, own]
  | review => cases outcome <;> simp [ConversionReport.get, own]
  | dropped => cases outcome <;> simp [ConversionReport.get, own]

theorem reportFlags_get (verdicts : Verdicts) (report : ConversionReport) (index : Nat) (flags : List ParsedFlag)
    (outcome : FlagOutcome) :
    (reportFlags verdicts report index flags).get outcome =
      report.get outcome ++ (reportItems verdicts index flags).filter (·.verdict.outcome = outcome) := by
  induction flags generalizing report index with
  | nil => exact (List.append_nil _).symm
  | cons parsed rest ih =>
      rw [reportFlags, ih, push_get, reportItems, List.append_assoc, ← List.filter_append, List.singleton_append]

/-- The items of a report are the flags, each once and in order; for review there may be the image and the arguments. -/
def NamesEach (flags : List ParsedFlag) (report : ConversionReport) : Prop :=
  ∃ items extras : List FlagReportItem, items.map FlagReportItem.parsed = flags ∧
    report.carried = items.filter (·.verdict.outcome = .carried) ∧
    report.review = items.filter (·.verdict.outcome = .review) ++ extras ∧
    report.dropped = items.filter (·.verdict.outcome = .dropped) ∧
    ∀ extra ∈ extras, extra.flag = "image".toList ∨ extra.flag = "command".toList

/-- What came of each flag, the networks among them -/
def verdictsOf (flags : List ParsedFlag) (image : Text) : Verdicts :=
  let state := convertFlags { draft := { service := [("image", text image)], volumes := [] } } 0 flags
  (connectNetworks state.networkFlags state.verdicts).1

theorem convert_items (flags : List ParsedFlag) (image : Text) (args : List Text) :
    let items := reportItems (verdictsOf flags image) 0 flags
    (convert flags image args).report.carried = items.filter (·.verdict.outcome = .carried) ∧
      ∃ extras : List FlagReportItem,
        (convert flags image args).report.review = items.filter (·.verdict.outcome = .review) ++ extras ∧
        (convert flags image args).report.dropped = items.filter (·.verdict.outcome = .dropped) ∧
        ∀ extra ∈ extras, extra.flag = "image".toList ∨ extra.flag = "command".toList := by
  unfold verdictsOf convert
  dsimp only
  generalize (connectNetworks _ _).1 = verdicts
  have carried := reportFlags_get verdicts {} 0 flags .carried
  have review := reportFlags_get verdicts {} 0 flags .review
  have dropped := reportFlags_get verdicts {} 0 flags .dropped
  simp only [ConversionReport.get, List.nil_append] at carried review dropped
  generalize reportFlags verdicts {} 0 flags = report at carried review dropped ⊢
  refine ⟨?_, (if interpolates image then [⟨"image".toList, some image, .dollar⟩] else []) ++
      (if args.any interpolates then [⟨"command".toList, some (List.intercalate [' '] args), .dollar⟩] else []), ?_, ?_, ?_⟩
  · rw [← carried]
    split <;> split <;> rfl
  · rw [← review]
    split <;> split <;> simp [ConversionReport.push, Verdict.dollar]
  · rw [← dropped]
    split <;> split <;> rfl
  · intro extra member
    obtain found | found := List.mem_append.mp member
    · split at found
      next =>
        rw [List.mem_singleton.mp found]
        exact .inl rfl
      next => cases found
    · split at found
      next =>
        rw [List.mem_singleton.mp found]
        exact .inr rfl
      next => cases found

theorem convert_names (flags : List ParsedFlag) (image : Text) (args : List Text) :
    NamesEach flags (convert flags image args).report := by
  obtain ⟨carried, extras, review, dropped, others⟩ := convert_items flags image args
  exact ⟨reportItems (verdictsOf flags image) 0 flags, extras, reportItems_parsed _ 0 flags, carried, review, dropped, others⟩

/-- A token between `run` and the image is lost exactly where a lone dash stands in the place of a flag. -/
theorem nothing_vanishes (command : Text) :
    ((∃ last count, lastReading (tokeniseCommand command) [] ((tokeniseCommand command).length + 1) = some (last, count) ∧
        count ≤ (tokeniseCommand command).length + 1 ∧
        parseDockerRun command = (readTokens (tokeniseCommand command) last).parsed) ∧
      (∃ consumed, behindRun (tokeniseCommand command) = consumed ++ (parseDockerRun command).tail ∧
        Accounts (parseDockerRun command).flags consumed) ∧
      (∀ conversion, convertDockerRunCommand command = some conversion →
        NamesEach (parseDockerRun command).flags conversion.report)) ↔
      DashFree (tokeniseCommand command) := by
  rw [← parse_accounts]
  constructor
  · intro all
    exact all.2.1
  · intro accounted
    obtain ⟨count, ends, few, -⟩ := parse_ends (tokeniseCommand command)
    refine ⟨⟨_, count, ends, few, rfl⟩, accounted, ?_⟩
    intro conversion converted
    obtain ⟨image, -, rfl⟩ := Option.map_eq_some_iff.mp converted
    exact convert_names _ image _

/-- `docker run - nginx`: no flag is read, and nothing says that there was a dash. -/
theorem lone_dash_vanishes :
    (parseDockerRun "docker run - nginx".toList) = { flags := [], image := some "nginx".toList, args := [] } ∧
      behindRun (tokeniseCommand "docker run - nginx".toList) = ["-".toList, "nginx".toList] ∧
      ¬ ∃ consumed, behindRun (tokeniseCommand "docker run - nginx".toList) =
          consumed ++ (parseDockerRun "docker run - nginx".toList).tail ∧
        Accounts (parseDockerRun "docker run - nginx".toList).flags consumed := by
  refine ⟨by decide +kernel, by decide +kernel, ?_⟩
  rw [parse_accounts]
  decide +kernel

end Dockge.DockerRun
