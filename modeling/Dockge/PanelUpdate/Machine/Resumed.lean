import Dockge.Data.History
import Dockge.PanelUpdate.Machine.Stored

namespace Dockge.PanelUpdate

open Data

/-! A reload resumes the operation the page followed. -/

/-- The page with the storage of its tab. -/
structure PanelUpdatePage where
  state : PanelUpdateState
  stored : Option Json

def PanelUpdatePage.step (dateParse : String → Option Int) (page : PanelUpdatePage) (event : PanelUpdateEvent) :
    PanelUpdatePage :=
  let taken := reducePanelUpdate dateParse page.state event
  ⟨taken.state, keepAll page.stored taken.effects⟩

/-- The page after a history of events, from the state before `BOOT`. -/
def panelUpdatePage (dateParse : String → Option Int) (kept : Option Json) (history : List PanelUpdateEvent) :
    PanelUpdatePage :=
  replay (PanelUpdatePage.step dateParse) ⟨createPanelUpdateState, kept⟩ history

/-- The operation of its status has an id a request can have. -/
def PanelUpdateEvent.Named (event : PanelUpdateEvent) : Prop :=
  ∀ status op, event.status? = some status → status.operation = some op →
    panelUpdateRequestPattern op.requestId = true

/-- A `BOOT` carries what is read from storage. -/
def PanelUpdateEvent.ReadsBack (event : PanelUpdateEvent) (stored : Option Json) : Prop :=
  ∀ persisted now build, event = .boot persisted now build → persisted = readPanelUpdateRecord stored

/-- The record of this operation. -/
structure RecordOf (node : PanelUpdateRunningNode) (record : PanelUpdateRecord) : Prop where
  request : record.request = node.request
  fromVersion : record.fromVersion = node.fromVersion
  toVersion : record.toVersion = node.toVersion
  startedAt : record.startedAt = node.startedAt
  phase : record.phase = node.phase
  stage : record.stage = if node.seen then .running else .submitting

/-- Storage holds the operation the page follows, and none where it follows none. -/
def PanelUpdatePage.Resumable (page : PanelUpdatePage) : Prop :=
  match page.state.node with
  | .running node => ∃ record, readPanelUpdateRecord page.stored = some record ∧ RecordOf node record
  | .idle _ | .preview _ => readPanelUpdateRecord page.stored = none
  | .outcome _ => True

section
variable {dateParse : String → Option Int} {page : PanelUpdatePage} {node next : PanelUpdateRunningNode}

theorem PanelUpdatePage.Resumable.running (resumable : page.Resumable) (held : page.state.node = .running node) :
    ∃ record, readPanelUpdateRecord page.stored = some record ∧ RecordOf node record := by
  unfold PanelUpdatePage.Resumable at resumable
  rw [held] at resumable
  exact resumable

theorem PanelUpdatePage.Resumable.resting (resumable : page.Resumable) (held : page.state.node.Resting) :
    readPanelUpdateRecord page.stored = none := by
  unfold PanelUpdatePage.Resumable at resumable
  cases shown : page.state.node with
  | idle node => simpa only [shown] using resumable
  | preview node => simpa only [shown] using resumable
  | running node => simp [shown] at held
  | outcome node => simp [shown] at held

theorem resumable_of_parts
    (running : ∀ node, page.state.node = .running node →
      ∃ record, readPanelUpdateRecord page.stored = some record ∧ RecordOf node record)
    (resting : page.state.node.Resting → readPanelUpdateRecord page.stored = none) : page.Resumable := by
  unfold PanelUpdatePage.Resumable
  cases shown : page.state.node with
  | idle node => exact resting (by simp [shown])
  | preview node => exact resting (by simp [shown])
  | running node => exact running node shown
  | outcome node => trivial

theorem takes_status {state : PanelUpdateState} {event : PanelUpdateEvent} {status : PanelUpdateStatus}
    (taken : event.takes state = some status) : event.status? = some status := by
  have readable : ∀ given, PanelUpdateEvent.takes.readable given = some status → given = status := by
    intro given taken
    unfold PanelUpdateEvent.takes.readable at taken
    split at taken
    · cases taken
    · exact Option.some.inj taken
  cases event with
  | status given solicited askId now => exact congrArg some (readable given taken)
  | ack ack result now =>
      cases result with
      | ok given =>
          cases ack with
          | status askId => exact congrArg some (readable given taken)
          | request kind requestId =>
              dsimp only [PanelUpdateEvent.takes] at taken
              split at taken
              · exact congrArg some (readable given taken)
              · cases taken
      | error code msg => cases ack <;> cases taken
      | lost => cases ack <;> cases taken
  | boot | info | linkUp | linkDown | authLost | tick | check | confirm | submit | cancel | dismiss | close =>
      cases taken

theorem RecordOf.unmoved {record : PanelUpdateRecord} (same : Unmoved node next) (kept : RecordOf node record) :
    RecordOf next record := by
  obtain ⟨⟨request, fromVersion, toVersion, startedAt⟩, phase, seen⟩ := same
  obtain ⟨keptRequest, keptFrom, keptTo, keptStarted, keptPhase, keptStage⟩ := kept
  exact ⟨by rw [keptRequest, request], by rw [keptFrom, fromVersion], by rw [keptTo, toVersion],
    by rw [keptStarted, startedAt], by rw [keptPhase, phase], by rw [keptStage, seen]⟩

/-- What a running operation was stored as is read back. -/
theorem stored_running {stage : PanelUpdateStage} (named : panelUpdateRequestPattern next.request = true)
    (staged : stage = if next.seen then .running else .submitting) (stored : Option Json) :
    ∃ record, readPanelUpdateRecord ((runningRecord next stage).keep stored) = some record ∧ RecordOf next record := by
  refine ⟨_, readPanelUpdateRecord_json _ named, ?_⟩
  exact ⟨rfl, rfl, rfl, rfl, rfl, staged⟩

/-- A `BOOT` of what is read from storage follows that operation, whatever the page did before. -/
theorem boot_resumable {persisted : Option PanelUpdateRecord} {now : Int} {build : Option String}
    (reads : persisted = readPanelUpdateRecord page.stored) :
    (page.step dateParse (.boot persisted now build)).Resumable := by
  unfold PanelUpdatePage.step
  dsimp only [reducePanelUpdate]
  cases found : persisted with
  | none =>
      rw [found] at reads
      exact reads.symm
  | some record =>
      rw [found] at reads
      unfold boot
      dsimp only
      split
      · split
        · rfl
        · trivial
      · rename_i unfinished
        refine ⟨record, reads.symm, ⟨rfl, rfl, rfl, rfl, rfl, ?_⟩⟩
        cases stage : record.stage <;> simp_all

theorem PanelUpdatePage.Resumable.step (resumable : page.Resumable) {event : PanelUpdateEvent} (named : event.Named)
    (reads : event.ReadsBack page.stored) : (page.step dateParse event).Resumable := by
  by_cases booted : ∃ persisted now build, event = .boot persisted now build
  · obtain ⟨persisted, now, build, rfl⟩ := booted
    exact boot_resumable (reads persisted now build rfl)
  · refine resumable_of_parts ?_ ?_
    · intro next left
      have namedNext : ∀ status op, event.takes page.state = some status → status.Tells next.request op →
          panelUpdateRequestPattern next.request = true := by
        intro status op taken told
        rw [← told.2.2]
        exact named status op (takes_status taken) told.1
      dsimp only [PanelUpdatePage.step] at left ⊢
      cases reducePanelUpdate_running left with
      | kept node held same progress asks untold =>
          rw [keepAll_asks asks]
          obtain ⟨record, read, kept⟩ := resumable.running held
          exact ⟨record, read, kept.unmoved same⟩
      | cancelled node held asked offered same emitted =>
          rw [emitted]
          obtain ⟨record, read, kept⟩ := resumable.running held
          exact ⟨record, read, kept.unmoved same⟩
      | advanced node held status taken op told followed =>
          rw [← followed.same.request] at told
          rcases followed.stored with stored | ⟨silent, seen, phase⟩
          · rw [stored]
            exact stored_running (namedNext status op taken told) (by simp [followed.seen]) page.stored
          · rw [silent]
            obtain ⟨record, read, kept⟩ := resumable.running held
            exact ⟨record, read, kept.unmoved ⟨followed.same, phase, followed.seen.trans seen.symm⟩⟩
      | observed status taken op told other shown stored =>
          have staged : PanelUpdateStage.running = if next.seen then .running else .submitting := by
            simp [shown.seen]
          rcases stored with stored | stored
          · rw [stored]
            exact stored_running (namedNext status op taken told) staged page.stored
          · rw [stored]
            exact stored_running (namedNext status op taken told) staged none
      | submitted password now asked left named fresh stored =>
          obtain ⟨previewRequest, stored⟩ := stored
          rw [stored]
          exact stored_running named (by simp [fresh]) page.stored
      | booted record now build asked => exact absurd ⟨_, _, _, asked⟩ booted
    · intro resting
      have settled : Cleared page.state.node (reducePanelUpdate dateParse page.state event).effects :=
        reducePanelUpdate_settles (fun now build asked => booted ⟨_, _, _, asked⟩) resting
      dsimp only [PanelUpdatePage.step] at resting ⊢
      rcases keepAll_unwritten settled.unwritten page.stored with cleared | ⟨uncleared, kept⟩
      · rw [cleared]
        rfl
      · rw [kept]
        rcases settled.left with rested | clears
        · exact resumable.resting rested
        · exact absurd clears uncleared

end

/-- Every run of the page that begins with a `BOOT` of what storage holds. -/
theorem panelUpdatePage_resumable {dateParse : String → Option Int} {kept : Option Json} {now : Int}
    {build : Option String} {rest : List PanelUpdateEvent} (named : ∀ event ∈ rest, event.Named)
    (reads : Along (PanelUpdatePage.step dateParse) (fun page event => event.ReadsBack page.stored)
      (panelUpdatePage dateParse kept [.boot (readPanelUpdateRecord kept) now build]) rest) :
    (panelUpdatePage dateParse kept (.boot (readPanelUpdateRecord kept) now build :: rest)).Resumable := by
  have booted : (panelUpdatePage dateParse kept [.boot (readPanelUpdateRecord kept) now build]).Resumable :=
    @boot_resumable dateParse ⟨createPanelUpdateState, kept⟩ _ now build rfl
  have follows : ∀ (page : PanelUpdatePage) (events : List PanelUpdateEvent), page.Resumable →
      (∀ event ∈ events, event.Named) →
      Along (PanelUpdatePage.step dateParse) (fun page event => event.ReadsBack page.stored) page events →
      (replay (PanelUpdatePage.step dateParse) page events).Resumable := by
    intro page events
    induction events generalizing page with
    | nil =>
        intro resumable _ _
        exact resumable
    | cons event later ih =>
        intro resumable named reads
        exact ih _ (resumable.step (named event (by simp)) reads.1) (fun other held => named other (by simp [held]))
          reads.2
  exact follows _ rest booted named reads

/-- A reload resumes the same operation: over every run, storage holds the operation the page
follows, so that a `BOOT` of it follows it on, and none where the page follows and shows none. -/
theorem reload_resumes (dateParse : String → Option Int) (kept : Option Json) (now : Int) (build : Option String)
    (rest : List PanelUpdateEvent) (named : ∀ event ∈ rest, event.Named)
    (reads : Along (PanelUpdatePage.step dateParse) (fun page event => event.ReadsBack page.stored)
      (panelUpdatePage dateParse kept [.boot (readPanelUpdateRecord kept) now build]) rest) :
    let page := panelUpdatePage dateParse kept (.boot (readPanelUpdateRecord kept) now build :: rest)
    (∀ node, page.state.node = .running node →
      (∃ record, readPanelUpdateRecord page.stored = some record ∧ RecordOf node record) ∧
      ∀ fresh later newer, ∃ resumed,
        (reducePanelUpdate dateParse fresh
          (.boot (readPanelUpdateRecord page.stored) later newer)).state.node = .running resumed ∧
        Unmoved node resumed) ∧
    (page.state.node.Resting → readPanelUpdateRecord page.stored = none) := by
  have resumable := panelUpdatePage_resumable named reads
  refine ⟨?_, resumable.resting⟩
  intro node held
  obtain ⟨record, read, same⟩ := resumable.running held
  refine ⟨⟨record, read, same⟩, ?_⟩
  intro fresh later newer
  rw [read]
  have unfinished : record.stage ≠ .finished := by
    rw [same.stage]
    split <;> simp
  have followed : ∃ resumed, (boot fresh (some record) later newer).state.node = .running resumed := by
    simp [boot, unfinished]
  obtain ⟨resumed, left⟩ := followed
  refine ⟨resumed, left, ?_⟩
  simp only [boot, unfinished, if_false, stay_state] at left
  cases left
  refine ⟨⟨same.request, same.fromVersion, same.toVersion, same.startedAt⟩, same.phase, ?_⟩
  dsimp only
  rw [same.stage]
  cases node.seen <;> rfl

/-- A record of an operation the page began to follow. -/
def sampleRecord : PanelUpdateRecord :=
  ⟨"0a1b2c3d-0000-4000-8000-000000000000", "1.0.0", "1.1.0", some "prepared", 5, .running, none⟩

/-- A page that finds an operation under way and hears that the panel cannot be reached. -/
theorem reload_resumes_sample :
    let page := panelUpdatePage (fun _ => none) (some sampleRecord.json)
      [.boot (readPanelUpdateRecord (some sampleRecord.json)) 7 none, .linkDown 9]
    (∀ node, page.state.node = .running node →
      (∃ record, readPanelUpdateRecord page.stored = some record ∧ RecordOf node record) ∧
      ∀ fresh later newer, ∃ resumed,
        (reducePanelUpdate (fun _ => none) fresh
          (.boot (readPanelUpdateRecord page.stored) later newer)).state.node = .running resumed ∧
        Unmoved node resumed) ∧
    (page.state.node.Resting → readPanelUpdateRecord page.stored = none) :=
  reload_resumes (fun _ => none) (some sampleRecord.json) 7 none [.linkDown 9]
    (by intro event held status op told; simp at held; subst held; cases told)
    ⟨(by intro persisted now build asked; cases asked), trivial⟩

/-- A later `BOOT` that carries nothing leaves the operation and its record behind: the page
dispatches it once, with what it reads. -/
theorem blank_boot_leaves_record :
    ∃ kept now build rest, (∀ event ∈ rest, PanelUpdateEvent.Named event) ∧
      ∃ idle, (panelUpdatePage (fun _ => none) kept
          (.boot (readPanelUpdateRecord kept) now build :: rest)).state.node = .idle idle ∧
        readPanelUpdateRecord (panelUpdatePage (fun _ => none) kept
          (.boot (readPanelUpdateRecord kept) now build :: rest)).stored ≠ none := by
  have read : readPanelUpdateRecord (some sampleRecord.json) = some sampleRecord :=
    readPanelUpdateRecord_json sampleRecord (by decide)
  refine ⟨some sampleRecord.json, 7, none, [.boot none 9 none], ?_, { sub := .loading }, ?_, ?_⟩
  · intro event held status op told
    simp at held
    subst held
    cases told
  · rw [read]
    rfl
  · have kept : (panelUpdatePage (fun _ => none) (some sampleRecord.json)
        [.boot (readPanelUpdateRecord (some sampleRecord.json)) 7 none, .boot none 9 none]).stored =
          some sampleRecord.json := by
      rw [read]
      rfl
    rw [kept, read]
    simp

end Dockge.PanelUpdate
