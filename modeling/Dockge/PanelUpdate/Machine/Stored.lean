import Dockge.Data.Json
import Dockge.PanelUpdate.Machine.Running

namespace Dockge.PanelUpdate

open Data

/-! The operation as the tab keeps it across a reload.

Storage is what `JSON.parse` gives of the stored text: nothing where there is no text, or none
that parses.  Times are whole milliseconds, as the page writes them.
-/

def PanelUpdateStage.text : PanelUpdateStage → String
  | .submitting => "submitting"
  | .running => "running"
  | .finished => "finished"

/-- A record as `JSON.stringify` writes it. -/
def PanelUpdateRecord.json (record : PanelUpdateRecord) : Json := .obj (fields record)
where
  fields (record : PanelUpdateRecord) : Fields :=
    [("v", .num 1), ("request", .str record.request), ("from", .str record.fromVersion), ("to", .str record.toVersion),
      ("phase", optional record.phase), ("startedAt", .num record.startedAt), ("stage", .str record.stage.text),
      ("outcome", optional record.outcome)]
  optional : Option String → Json
    | some text => .str text
    | none => .null

/-- The record `sessionStorage` kept, if it is one this build wrote. -/
def readPanelUpdateRecord (stored : Option Json) : Option PanelUpdateRecord := do
  let fields ← isRecord stored
  let version ← number (fields.get "v")
  let request ← string (fields.get "request")
  if version = 1 ∧ panelUpdateRequestPattern request then
    let fromVersion ← string (fields.get "from")
    let toVersion ← string (fields.get "to")
    let startedAt ← number (fields.get "startedAt")
    let stage ← (string (fields.get "stage")).bind stageOf
    let phase ← nullable (fields.get "phase")
    let outcome ← nullable (fields.get "outcome")
    some { request, fromVersion, toVersion, phase, startedAt, stage, outcome }
  else none
where
  isRecord : Option Json → Option Fields
    | some (.obj fields) => some fields
    | _ => none
  number : Option Json → Option Int
    | some (.num value) => if value.den = 1 then some value.num else none
    | _ => none
  string : Option Json → Option String
    | some (.str text) => some text
    | _ => none
  nullable : Option Json → Option (Option String)
    | some .null => some none
    | some (.str text) => some (some text)
    | _ => none
  stageOf (text : String) : Option PanelUpdateStage :=
    if text = "submitting" then some .submitting
    else if text = "running" then some .running
    else if text = "finished" then some .finished
    else none

namespace readPanelUpdateRecord

@[simp] theorem number_whole (value : Int) : number (some (.num value)) = some value := by
  simp [number]

@[simp] theorem string_str (text : String) : string (some (.str text)) = some text := rfl

@[simp] theorem nullable_optional (text : Option String) :
    nullable (some (PanelUpdateRecord.json.optional text)) = some text := by
  cases text <;> rfl

@[simp] theorem stageOf_text (stage : PanelUpdateStage) : stageOf stage.text = some stage := by
  cases stage <;> rfl

end readPanelUpdateRecord

/-- A record is read back as it was written. -/
theorem readPanelUpdateRecord_json (record : PanelUpdateRecord)
    (named : panelUpdateRequestPattern record.request = true) :
    readPanelUpdateRecord (some record.json) = some record := by
  let fields := PanelUpdateRecord.json.fields record
  have version : readPanelUpdateRecord.number (fields.get "v") = some 1 := readPanelUpdateRecord.number_whole 1
  have request : fields.get "request" = some (.str record.request) := rfl
  have fromVersion : fields.get "from" = some (.str record.fromVersion) := rfl
  have toVersion : fields.get "to" = some (.str record.toVersion) := rfl
  have startedAt : fields.get "startedAt" = some (.num record.startedAt) := rfl
  have stage : fields.get "stage" = some (.str record.stage.text) := rfl
  have phase : fields.get "phase" = some (PanelUpdateRecord.json.optional record.phase) := rfl
  have outcome : fields.get "outcome" = some (PanelUpdateRecord.json.optional record.outcome) := rfl
  unfold readPanelUpdateRecord
  simp only [PanelUpdateRecord.json, readPanelUpdateRecord.isRecord, Option.bind_eq_bind, Option.bind_some]
  rw [version, request, fromVersion, toVersion, startedAt, stage, phase, outcome]
  simp only [readPanelUpdateRecord.string_str, readPanelUpdateRecord.number_whole, Option.bind_some,
    readPanelUpdateRecord.stageOf_text, readPanelUpdateRecord.nullable_optional, named, and_self, if_true]

/-- Storage after an effect of the page. -/
def PanelUpdateEffect.keep (stored : Option Json) : PanelUpdateEffect → Option Json
  | .persist record => some record.json
  | .clearPersist => none
  | _ => stored

/-- Storage after the effects of a step, in order. -/
def keepAll (stored : Option Json) (effects : List PanelUpdateEffect) : Option Json :=
  effects.foldl PanelUpdateEffect.keep stored

@[simp] theorem keepAll_nil (stored : Option Json) : keepAll stored [] = stored := rfl

@[simp] theorem keepAll_cons (stored : Option Json) (effect : PanelUpdateEffect) (rest : List PanelUpdateEffect) :
    keepAll stored (effect :: rest) = keepAll (effect.keep stored) rest := rfl

theorem keepAll_asks {effects : List PanelUpdateEffect} (asks : Asks effects) (stored : Option Json) :
    keepAll stored effects = stored := by
  induction effects generalizing stored with
  | nil => rfl
  | cons effect rest ih =>
      obtain ⟨number, rfl⟩ := asks effect (by simp)
      exact ih (fun other held => asks other (by simp [held])) stored

/-- Effects that write no record leave what was stored, or nothing. -/
theorem keepAll_unwritten {effects : List PanelUpdateEffect} (unwritten : ∀ record, .persist record ∉ effects)
    (stored : Option Json) :
    keepAll stored effects = none ∨ .clearPersist ∉ effects ∧ keepAll stored effects = stored := by
  induction effects generalizing stored with
  | nil => exact .inr ⟨by simp, rfl⟩
  | cons effect rest ih =>
      have later := ih (fun record held => unwritten record (by simp [held]))
      rw [keepAll_cons]
      cases effect with
      | persist record => exact absurd (by simp) (unwritten record)
      | clearPersist =>
          rcases later none with cleared | ⟨_, kept⟩
          · exact .inl cleared
          · exact .inl kept
      | emitPreview | emitApply | emitCancel | emitDismiss | requestStatus | reload =>
          rcases later stored with cleared | ⟨uncleared, kept⟩
          · exact .inl cleared
          · exact .inr ⟨by simpa using uncleared, kept⟩

/-- No operation is followed, and none is shown. -/
def PanelUpdateNode.Resting : PanelUpdateNode → Prop
  | .idle _ | .preview _ => True
  | .running _ | .outcome _ => False

@[simp] theorem PanelUpdateNode.resting_idle (node : PanelUpdateIdleNode) : Resting (.idle node) := trivial

@[simp] theorem PanelUpdateNode.resting_preview (node : PanelUpdatePreviewNode) : Resting (.preview node) := trivial

@[simp] theorem PanelUpdateNode.not_resting_running (node : PanelUpdateRunningNode) : ¬ Resting (.running node) := id

@[simp] theorem PanelUpdateNode.not_resting_outcome (node : PanelUpdateOutcomeNode) : ¬ Resting (.outcome node) := id

/-- Where a step leaves no operation it stored none, and it cleared the record of one it left. -/
structure Cleared (before : PanelUpdateNode) (effects : List PanelUpdateEffect) : Prop where
  unwritten : ∀ record, .persist record ∉ effects
  left : before.Resting ∨ .clearPersist ∈ effects

section
variable {dateParse : String → Option Int} {state : PanelUpdateState} {status : PanelUpdateStatus}
  {probe : Bool} {now : Int}

/-- A step that comes to rest clears what it leaves. -/
def Settles (before : PanelUpdateNode) (step : PanelUpdateStep) : Prop :=
  step.state.node.Resting → Cleared before step.effects

theorem settles_stay {before : PanelUpdateNode} (kept : state.node.Resting → before.Resting) :
    Settles before (stay state) := by
  intro resting
  exact ⟨by simp, .inl (kept resting)⟩

theorem settles_withNode {before node : PanelUpdateNode} {effects : List PanelUpdateEffect}
    (cleared : node.Resting → Cleared before effects) : Settles before (withNode state node effects) := cleared

theorem settles_ask {before : PanelUpdateNode} (kept : state.node.Resting → before.Resting) :
    Settles before (ask state probe) := by
  intro resting
  rw [ask_node] at resting
  refine ⟨?_, .inl (kept resting)⟩
  intro record stored
  obtain ⟨number, question⟩ := ask_asks state probe _ stored
  cases question

theorem cleared_alone (before : PanelUpdateNode) : Cleared before [.clearPersist] := ⟨by simp, .inr (by simp)⟩

theorem cleared_silent {before : PanelUpdateNode} (resting : before.Resting) : Cleared before [] :=
  ⟨by simp, .inl resting⟩

theorem observe_settles {before : PanelUpdateNode} {op : PanelUpdateOperation} :
    Settles before (observe dateParse state op now) := by
  intro resting
  simp [observe] at resting

theorem enterIdle_settles {before : PanelUpdateNode} {notice : Option PanelUpdateIdleNotice}
    (rested : before.Resting) : Settles before (enterIdle dateParse state now notice) := by
  unfold enterIdle
  split
  · split
    · exact observe_settles
    · dsimp only
      split <;> exact settles_withNode (by simp)
  · exact settles_withNode (fun _ => cleared_silent rested)

theorem notStarted_settles {before : PanelUpdateNode} {node : PanelUpdateRunningNode} :
    Settles before (notStarted dateParse state node now) := by
  have following : Settles before ⟨(enterIdle dateParse state now (some .notStarted)).state,
      .clearPersist :: (enterIdle dateParse state now (some .notStarted)).effects⟩ := by
    intro resting
    have idle : Cleared (.idle { sub := .loading }) (enterIdle dateParse state now (some .notStarted)).effects :=
      enterIdle_settles trivial resting
    exact ⟨by simpa using idle.unwritten, .inr (by simp)⟩
  unfold notStarted
  dsimp only
  split
  · split
    · exact settles_withNode (fun _ => cleared_alone _)
    · exact following
  · exact following

theorem runningStatus_settles {node : PanelUpdateRunningNode} (held : state.node = .running node) :
    Settles (.running node) (runningStatus dateParse state node status now probe) := by
  have unheard : Settles (.running node) (runningStatus.unheard dateParse state node now probe) := by
    unfold runningStatus.unheard
    split
    · exact settles_stay (by simp [held])
    · split
      · exact notStarted_settles
      · split
        · exact observe_settles
        · exact settles_withNode (by simp)
  unfold runningStatus
  split
  · split
    · split
      · intro resting
        unfold advance at resting
        dsimp only at resting
        split at resting <;> simp at resting
      · intro resting
        unfold finishRunning at resting
        dsimp only at resting
        split at resting <;> simp at resting
    · exact unheard
  · exact unheard

theorem previewStatus_settles {before : PanelUpdateNode} {node : PanelUpdatePreviewNode} (rested : before.Resting) :
    Settles before (previewStatus dateParse state node now probe) := by
  have gone : Settles before (previewStatus.gone state node probe) := by
    unfold previewStatus.gone refused
    split
    · exact settles_withNode (fun _ => cleared_silent rested)
    · exact settles_stay (fun _ => rested)
  unfold previewStatus
  split
  · split
    · exact observe_settles
    · split
      · exact settles_stay (fun _ => rested)
      · split
        · split
          · exact settles_withNode (fun _ => cleared_silent rested)
          · unfold previewFinished previewFinished.refusedResult refused
            split
            · split <;> exact settles_withNode (fun _ => cleared_silent rested)
            · exact settles_withNode (fun _ => cleared_silent rested)
        · exact gone
  · split
    · exact settles_stay (fun _ => rested)
    · exact gone

theorem outcomeStatus_settles {node : PanelUpdateOutcomeNode} (held : state.node = .outcome node) :
    Settles (.outcome node) (outcomeStatus dateParse state node status probe now) := by
  unfold outcomeStatus
  split
  · exact observe_settles
  · split
    · exact settles_stay (by simp [held])
    · unfold confirmOutcome confirmOutcome.dismissed contradiction
      split
      · split
        · split
          · exact settles_withNode (by simp)
          · dsimp only
            split <;> exact settles_withNode (by simp)
        · split
          · exact settles_stay (by simp [held])
          · split <;> exact settles_withNode (by simp)
      · split
        · exact settles_stay (by simp [held])
        · split <;> exact settles_withNode (by simp)

theorem onStatus_settles {solicited : Bool} {askId : Option Nat} :
    Settles state.node (onStatus dateParse state status solicited askId now) := by
  unfold onStatus
  cases held : state.node with
  | idle node => exact enterIdle_settles trivial
  | preview node => exact previewStatus_settles trivial
  | running node => exact runningStatus_settles ((takeStatus_node ..).trans held)
  | outcome node => exact outcomeStatus_settles ((takeStatus_node ..).trans held)

theorem Settles.before {before settledBefore : PanelUpdateNode} {step : PanelUpdateStep}
    (settles : Settles settledBefore step) (kept : settledBefore.Resting → before.Resting) : Settles before step := by
  intro resting
  exact ⟨(settles resting).unwritten, (settles resting).left.imp_left kept⟩

theorem boot_settles {persisted : Option PanelUpdateRecord} {build : Option String} (stored : persisted ≠ none) :
    Settles state.node (boot state persisted now build) := by
  unfold boot
  dsimp only
  split
  · exact absurd rfl stored
  · split
    · split
      · intro resting
        exact cleared_alone _
      · exact settles_stay (by simp)
    · exact settles_stay (by simp)

theorem linkUp_settles : Settles state.node (linkUp state now) := by
  unfold linkUp
  cases held : state.node with
  | idle node => exact settles_ask (fun _ => trivial)
  | preview node =>
      dsimp only
      split <;> exact settles_ask (fun _ => trivial)
  | running node => exact settles_ask (by simp)
  | outcome node =>
      dsimp only
      split
      · exact settles_ask (by simp)
      · exact settles_ask (by simp)

theorem tick_settles : Settles state.node (tick state now) := by
  unfold tick
  cases held : state.node with
  | idle node =>
      dsimp only
      split
      · exact settles_withNode (fun _ => cleared_silent trivial)
      · exact settles_stay (fun _ => trivial)
  | preview node =>
      dsimp only
      unfold tickPreview
      split
      · exact settles_stay (fun _ => trivial)
      · split
        · exact settles_stay (fun _ => trivial)
        · split
          · exact settles_withNode (fun _ => cleared_silent trivial)
          · exact settles_ask (fun _ => trivial)
  | running node =>
      dsimp only
      unfold tickRunning
      dsimp only
      split
      · split
        · exact settles_stay (by simp [held])
        · exact settles_stay (by simp [held])
      · split
        · exact settles_ask (by simp)
        · exact settles_stay (by simp [held])
      · exact settles_stay (by simp [held])
  | outcome node =>
      dsimp only
      split
      · exact settles_ask (by simp)
      · split
        · exact settles_withNode (by simp)
        · exact settles_stay (by simp [held])

theorem statusAck_settles {askId : Nat} {result : PanelUpdateAckResult} :
    Settles state.node (statusAck dateParse state askId result now) := by
  have unanswered : ∀ reason, Settles state.node (statusAck.unanswered state askId reason) := by
    intro reason
    have same : (if some askId = state.ctx.probe then
        { state with ctx := { state.ctx with probe := none } } else state).node = state.node := by
      split <;> rfl
    unfold statusAck.unanswered
    dsimp only
    generalize (if some askId = state.ctx.probe then
        { state with ctx := { state.ctx with probe := none } } else state) = heard at same ⊢
    rw [← same]
    split
    · rename_i idle
      split
      · exact settles_withNode (fun _ => cleared_silent (by simp [idle]))
      · exact settles_stay id
    · exact settles_stay id
  unfold statusAck
  split
  · exact onStatus_settles
  · exact unanswered _
  · exact unanswered _

theorem requestAck_settles {kind : PanelUpdateRequestKind} {requestId : String} {given : PanelUpdateAckResult} :
    Settles state.node (onAck dateParse state (.request kind requestId) given now) := by
  unfold onAck
  dsimp only
  generalize readableResult (.request kind requestId) given = result
  cases kind with
  | dismiss =>
      dsimp only
      unfold dismissAck
      split
      · exact settles_stay id
      · split
        · exact onStatus_settles
        · dsimp only
          cases held : state.node with
          | idle node =>
              dsimp only
              split
              · exact settles_stay (fun _ => trivial)
              · exact settles_ask (fun _ => trivial)
          | preview node => exact settles_stay (fun _ => trivial)
          | running node => exact settles_stay (by simp)
          | outcome node => exact settles_stay (by simp)
  | preview =>
      dsimp only
      cases held : state.node with
      | preview node =>
          dsimp only
          unfold previewAck
          split
          · exact settles_stay (fun _ => trivial)
          · dsimp only
            split
            · exact onStatus_settles.before (fun _ => trivial)
            · split <;> exact settles_withNode (fun _ => cleared_silent trivial)
            · exact settles_ask (fun _ => trivial)
      | idle node => exact settles_stay (fun _ => trivial)
      | running node => exact settles_stay (by simp [held])
      | outcome node => exact settles_stay (by simp [held])
  | apply =>
      dsimp only
      cases held : state.node with
      | running node =>
          dsimp only
          unfold applyAck
          split
          · exact settles_stay (by simp [held])
          · dsimp only
            split
            · exact onStatus_settles.before (by simp)
            · rename_i code msg
              split
              · obtain ⟨preview, refused⟩ := applyRefused_eq state node code msg now
                rw [refused]
                exact settles_withNode (fun _ => cleared_alone _)
              · exact settles_stay (by simp)
            · exact settles_withNode (by simp)
      | idle node => exact settles_stay (fun _ => trivial)
      | preview node => exact settles_stay (fun _ => trivial)
      | outcome node => exact settles_stay (by simp [held])
  | cancel =>
      dsimp only
      cases held : state.node with
      | running node =>
          dsimp only
          unfold cancelAck
          split
          · exact settles_stay (by simp [held])
          · split
            · exact onStatus_settles.before (by simp [held])
            · exact settles_stay (by simp [held])
            · split
              · exact settles_stay (by simp [held])
              · exact settles_withNode (by simp)
      | idle node => exact settles_stay (fun _ => trivial)
      | preview node => exact settles_stay (fun _ => trivial)
      | outcome node => exact settles_stay (by simp [held])

/-- Every event that leaves the page at rest clears what it leaves; only a `BOOT` that finds
nothing stored has nothing to clear. -/
theorem reducePanelUpdate_settles {event : PanelUpdateEvent} (booted : ∀ now build, event ≠ .boot none now build) :
    Settles state.node (reducePanelUpdate dateParse state event) := by
  cases event with
  | boot persisted now build =>
      refine boot_settles ?_
      rintro rfl
      exact booted now build rfl
  | info latestVersion updateAvailable =>
      simp only [reducePanelUpdate, info]
      split
      · rename_i held
        split
        · exact settles_stay (fun _ => by simp [held])
        · exact settles_stay id
      · exact settles_stay id
  | status status solicited askId now =>
      simp only [reducePanelUpdate]
      split
      · exact settles_stay id
      · exact onStatus_settles
  | linkUp now => exact linkUp_settles
  | linkDown now =>
      simp only [reducePanelUpdate, linkDown]
      split <;> exact settles_stay id
  | authLost => exact settles_stay id
  | ack ack given now =>
      cases ack with
      | status askId => exact statusAck_settles
      | request kind requestId => exact requestAck_settles
  | tick now => exact tick_settles
  | check owner requestId =>
      simp only [reducePanelUpdate, check]
      split
      · rename_i held _
        split
        · split
          · exact settles_withNode (fun _ => ⟨by simp, .inl (by simp [held])⟩)
          · exact settles_stay id
        · exact settles_stay id
      · exact settles_stay id
  | confirm owner =>
      simp only [reducePanelUpdate, confirm]
      split
      · rename_i held
        split
        · exact settles_stay id
        · exact settles_withNode (fun _ => cleared_silent (by simp [held]))
      · exact settles_stay id
  | submit owner password requestId now =>
      simp only [reducePanelUpdate, submit]
      split
      · split
        · exact settles_stay id
        · split
          · exact settles_stay id
          · split
            · exact settles_stay id
            · split
              · exact settles_stay id
              · exact settles_withNode (by simp)
      · exact settles_stay id
  | cancel owner =>
      simp only [reducePanelUpdate, cancel]
      split
      · split
        · exact settles_stay id
        · exact settles_withNode (by simp)
      · exact settles_stay id
  | dismiss owner now =>
      simp only [reducePanelUpdate, dismiss]
      split
      · split
        · exact settles_stay id
        · split
          · exact settles_withNode (fun _ => cleared_alone _)
          · exact settles_withNode (fun _ => ⟨by simp, .inr (by simp)⟩)
      · exact settles_stay id
  | close =>
      simp only [reducePanelUpdate, close]
      split
      · rename_i held
        split <;> exact settles_withNode (fun _ => cleared_silent (by simp [held]))
      · split
        · exact settles_stay id
        · exact settles_withNode (fun _ => cleared_alone _)
      · exact settles_stay id

end

end Dockge.PanelUpdate
