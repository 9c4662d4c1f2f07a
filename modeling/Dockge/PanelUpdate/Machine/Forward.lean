import Dockge.PanelUpdate.Machine.Following
import Dockge.PanelUpdate.Machine.Resumed

namespace Dockge.PanelUpdate

open Data

/-! Progress only moves forward, and the page asks the panel for something only when the owner does. -/

/-- The page asks the panel to do something. -/
def PanelUpdateEffect.emits : PanelUpdateEffect → Bool
  | .emitPreview _ _ | .emitApply _ _ _ _ | .emitCancel _ | .emitDismiss _ => true
  | .requestStatus _ | .persist _ | .clearPersist | .reload => false

@[simp] theorem runningRecord_emits (node : PanelUpdateRunningNode) (stage : PanelUpdateStage) :
    (runningRecord node stage).emits = false := rfl

@[simp] theorem outcomeRecord_emits (node : PanelUpdateOutcomeNode) (outcome : PanelUpdateOutcome) :
    (outcomeRecord node outcome).emits = false := rfl

def PanelUpdateStep.Quiet (step : PanelUpdateStep) : Prop := ∀ effect ∈ step.effects, effect.emits = false

section
variable {dateParse : String → Option Int} {state : PanelUpdateState} {status : PanelUpdateStatus}
  {probe : Bool} {now : Int}

@[simp] theorem quiet_stay : (stay state).Quiet := by simp [PanelUpdateStep.Quiet]

@[simp] theorem quiet_withNode {node : PanelUpdateNode} {effects : List PanelUpdateEffect} :
    (withNode state node effects).Quiet ↔ ∀ effect ∈ effects, effect.emits = false := Iff.rfl

@[simp] theorem quiet_ask : (ask state probe).Quiet := by
  unfold ask PanelUpdateStep.Quiet
  split <;> simp [PanelUpdateEffect.emits]

@[simp] theorem clearPersist_emits : PanelUpdateEffect.emits .clearPersist = false := rfl

@[simp] theorem reload_emits : PanelUpdateEffect.emits .reload = false := rfl

@[simp] theorem observe_quiet {op : PanelUpdateOperation} : (observe dateParse state op now).Quiet := by
  simp [observe]

theorem enterIdle_quiet {notice : Option PanelUpdateIdleNotice} : (enterIdle dateParse state now notice).Quiet := by
  unfold enterIdle
  dsimp only
  split
  · split
    · exact observe_quiet
    · split <;> simp
  · simp

theorem runningStatus_quiet {node : PanelUpdateRunningNode} :
    (runningStatus dateParse state node status now probe).Quiet := by
  have left : (PanelUpdateStep.mk (enterIdle dateParse state now (some .notStarted)).state
      (.clearPersist :: (enterIdle dateParse state now (some .notStarted)).effects)).Quiet := by
    intro effect held
    rcases List.mem_cons.mp held with rfl | held
    · rfl
    · exact enterIdle_quiet effect held
  have unheard : (runningStatus.unheard dateParse state node now probe).Quiet := by
    unfold runningStatus.unheard notStarted
    dsimp only
    split
    · simp
    · split
      · split
        · split
          · simp
          · exact left
        · exact left
      · split <;> simp
  unfold runningStatus advance finishRunning
  dsimp only
  split
  · split
    · split
      · split <;> simp only [quiet_withNode] <;> split <;> simp
      · split <;> simp
    · exact unheard
  · exact unheard

theorem previewStatus_quiet {node : PanelUpdatePreviewNode} : (previewStatus dateParse state node now probe).Quiet := by
  unfold previewStatus previewStatus.gone previewFinished previewFinished.refusedResult refused
  repeat' split
  all_goals simp

theorem outcomeStatus_quiet {node : PanelUpdateOutcomeNode} :
    (outcomeStatus dateParse state node status probe now).Quiet := by
  unfold outcomeStatus confirmOutcome confirmOutcome.dismissed contradiction
  dsimp only
  repeat' split
  all_goals simp

theorem onStatus_quiet {solicited : Bool} {askId : Option Nat} :
    (onStatus dateParse state status solicited askId now).Quiet := by
  unfold onStatus
  cases state.node with
  | idle node => exact enterIdle_quiet
  | preview node => exact previewStatus_quiet
  | running node => exact runningStatus_quiet
  | outcome node => exact outcomeStatus_quiet

theorem onAck_quiet {ack : PanelUpdateAck} {given : PanelUpdateAckResult} : (onAck dateParse state ack given now).Quiet := by
  unfold onAck
  dsimp only
  generalize readableResult ack given = result
  split
  · unfold statusAck statusAck.unanswered
    dsimp only
    split
    · exact onStatus_quiet
    · split
      · split <;> simp
      · simp
    · split
      · split <;> simp
      · simp
  · unfold dismissAck
    dsimp only
    split
    · simp
    · split
      · exact onStatus_quiet
      · split
        · split <;> simp
        · simp
  · split
    · unfold previewAck refused
      dsimp only
      split
      · simp
      · split
        · exact onStatus_quiet
        · split <;> simp
        · simp
    · simp
  · split
    · split
      · simp
      · unfold applyAck applyRefused
        dsimp only
        split
        · exact onStatus_quiet
        · split
          · split <;> simp
          · simp
        · simp
    · simp
  · split
    · split
      · simp
      · unfold cancelAck
        split
        · exact onStatus_quiet
        · simp
        · split <;> simp
    · simp

/-- Only what the owner does asks the panel for something. -/
theorem reducePanelUpdate_quiet {event : PanelUpdateEvent}
    (unasked : ∀ owner, event ≠ .cancel owner)
    (unchecked : ∀ owner requestId, event ≠ .check owner requestId)
    (unsubmitted : ∀ owner password requestId now, event ≠ .submit owner password requestId now)
    (undismissed : ∀ owner now, event ≠ .dismiss owner now) : (reducePanelUpdate dateParse state event).Quiet := by
  cases event with
  | boot persisted now build =>
      simp only [reducePanelUpdate, boot]
      split
      · simp
      · split
        · split
          · simp [PanelUpdateStep.Quiet]
          · simp
        · simp
  | info latestVersion updateAvailable =>
      simp only [reducePanelUpdate, info]
      split
      · split <;> simp
      · simp
  | status status solicited askId now =>
      simp only [reducePanelUpdate]
      split
      · simp
      · exact onStatus_quiet
  | linkUp now =>
      simp only [reducePanelUpdate, linkUp]
      split
      · simp
      · split <;> simp
      · simp
      · split <;> simp
  | linkDown now =>
      simp only [reducePanelUpdate, linkDown]
      split <;> simp
  | authLost => exact quiet_stay
  | ack ack given now => exact onAck_quiet
  | tick now =>
      simp only [reducePanelUpdate, tick, tickPreview, tickRunning]
      split
      · split <;> simp
      · split
        · simp
        · split
          · simp
          · split <;> simp
      · split
        · split <;> simp
        · split <;> simp
        · simp
      · split
        · simp
        · split <;> simp
  | check owner requestId => exact absurd rfl (unchecked owner requestId)
  | confirm owner =>
      simp only [reducePanelUpdate, confirm]
      split
      · split <;> simp
      · simp
  | submit owner password requestId now => exact absurd rfl (unsubmitted owner password requestId now)
  | cancel owner => exact absurd rfl (unasked owner)
  | dismiss owner now => exact absurd rfl (undismissed owner now)
  | close =>
      simp only [reducePanelUpdate, close]
      split
      · split <;> simp
      · split <;> simp
      · simp

theorem check_effects (state : PanelUpdateState) (owner : Bool) (requestId : String) :
    (check state owner requestId).effects = [] ∨
      ∃ version, (check state owner requestId).effects = [.emitPreview requestId version] := by
  unfold check
  split
  · split
    · split
      · exact .inr ⟨_, rfl⟩
      · exact .inl rfl
    · exact .inl rfl
  · exact .inl rfl

theorem dismiss_effects (state : PanelUpdateState) (owner : Bool) (now : Int) :
    (dismiss state owner now).effects = [] ∨ (dismiss state owner now).effects = [.clearPersist] ∨
      ∃ request, (dismiss state owner now).effects = [.emitDismiss request, .clearPersist] := by
  unfold dismiss
  split
  · split
    · exact .inl rfl
    · split
      · exact .inr (.inl rfl)
      · exact .inr (.inr ⟨_, rfl⟩)
  · exact .inl rfl

theorem cancel_effects (state : PanelUpdateState) (owner : Bool) :
    (cancel state owner).effects = [] ∨ owner = true ∧ panelUpdateCanCancel state = true ∧
      ∃ node, state.node = .running node ∧ (cancel state owner).effects = [.emitCancel node.request] := by
  unfold cancel
  split
  · rename_i node held
    split
    · exact .inl rfl
    · rename_i offered
      simp only [not_or, Bool.not_eq_false] at offered
      exact .inr ⟨offered.1, offered.2, node, held, rfl⟩
  · exact .inl rfl

theorem submit_effects (state : PanelUpdateState) (owner : Bool) (password requestId : String) (now : Int) :
    (submit state owner password requestId now).effects = [] ∨ owner = true ∧
      ∃ node previewRequest version, (submit state owner password requestId now).effects =
        [runningRecord node .submitting, .emitApply requestId previewRequest version password] := by
  unfold submit
  split
  · split
    · exact .inl rfl
    · rename_i asked
      simp only [not_or, Bool.not_eq_false] at asked
      split
      · exact .inl rfl
      · split
        · exact .inl rfl
        · split
          · exact .inl rfl
          · exact .inr ⟨asked.1, _, _, _, rfl⟩
  · exact .inl rfl

/-- A cancel goes out when the owner asks for it and it is offered. -/
theorem emitCancel_asked {event : PanelUpdateEvent} {request : String}
    (emitted : .emitCancel request ∈ (reducePanelUpdate dateParse state event).effects) :
    event = .cancel true ∧ panelUpdateCanCancel state = true ∧
      ∃ node, state.node = .running node ∧ node.request = request := by
  cases event with
  | cancel owner =>
      rcases cancel_effects state owner with silent | ⟨rfl, offered, node, held, effects⟩
      · simp [reducePanelUpdate, silent] at emitted
      · simp only [reducePanelUpdate, effects, List.mem_singleton, PanelUpdateEffect.emitCancel.injEq] at emitted
        exact ⟨rfl, offered, node, held, emitted.symm⟩
  | check owner requestId =>
      rcases check_effects state owner requestId with silent | ⟨version, effects⟩
      · simp [reducePanelUpdate, silent] at emitted
      · simp [reducePanelUpdate, effects] at emitted
  | submit owner password requestId now =>
      rcases submit_effects state owner password requestId now with silent | ⟨_, node, previewRequest, version, effects⟩
      · simp [reducePanelUpdate, silent] at emitted
      · simp [reducePanelUpdate, effects, runningRecord] at emitted
  | dismiss owner now =>
      rcases dismiss_effects state owner now with silent | cleared | ⟨closed, effects⟩
      · simp [reducePanelUpdate, silent] at emitted
      · simp [reducePanelUpdate, cleared] at emitted
      · simp [reducePanelUpdate, effects] at emitted
  | boot | info | status | linkUp | linkDown | authLost | ack | tick | confirm | close =>
      have quiet := reducePanelUpdate_quiet (by simp) (by simp) (by simp) (by simp) _ emitted
      cases quiet

/-- An apply goes out when the owner submits a password, with that password. -/
theorem emitApply_asked {event : PanelUpdateEvent} {request previewRequest version password : String}
    (emitted : .emitApply request previewRequest version password ∈ (reducePanelUpdate dateParse state event).effects) :
    ∃ now, event = .submit true password request now := by
  cases event with
  | submit owner given requestId now =>
      rcases submit_effects state owner given requestId now with silent | ⟨rfl, node, previewed, target, effects⟩
      · simp [reducePanelUpdate, silent] at emitted
      · simp only [reducePanelUpdate, effects, runningRecord, List.mem_cons, reduceCtorEq, false_or,
          PanelUpdateEffect.emitApply.injEq, List.not_mem_nil, or_false] at emitted
        obtain ⟨rfl, _, _, rfl⟩ := emitted
        exact ⟨now, rfl⟩
  | cancel owner =>
      rcases cancel_effects state owner with silent | ⟨_, _, node, _, effects⟩
      · simp [reducePanelUpdate, silent] at emitted
      · simp [reducePanelUpdate, effects] at emitted
  | check owner requestId =>
      rcases check_effects state owner requestId with silent | ⟨version, effects⟩
      · simp [reducePanelUpdate, silent] at emitted
      · simp [reducePanelUpdate, effects] at emitted
  | dismiss owner now =>
      rcases dismiss_effects state owner now with silent | cleared | ⟨closed, effects⟩
      · simp [reducePanelUpdate, silent] at emitted
      · simp [reducePanelUpdate, cleared] at emitted
      · simp [reducePanelUpdate, effects] at emitted
  | boot | info | status | linkUp | linkDown | authLost | ack | tick | confirm | close =>
      have quiet := reducePanelUpdate_quiet (by simp) (by simp) (by simp) (by simp) _ emitted
      cases quiet

/-- The password is an argument of the apply that goes out, and of nothing else. -/
def PanelUpdateEffect.withoutPassword : PanelUpdateEffect → PanelUpdateEffect
  | .emitApply requestId previewRequestId version _ => .emitApply requestId previewRequestId version ""
  | effect => effect

/-- The same event, up to the password that is submitted. -/
inductive SamePassword : PanelUpdateEvent → PanelUpdateEvent → Prop
  | same (event : PanelUpdateEvent) : SamePassword event event
  | submit (owner : Bool) (password other requestId : String) (now : Int) (given : password ≠ "")
      (otherGiven : other ≠ "") : SamePassword (.submit owner password requestId now) (.submit owner other requestId now)

theorem submit_samePassword {owner : Bool} {password other requestId : String} (given : password ≠ "")
    (otherGiven : other ≠ "") :
    (submit state owner password requestId now).state = (submit state owner other requestId now).state ∧
      (submit state owner password requestId now).effects.map PanelUpdateEffect.withoutPassword =
        (submit state owner other requestId now).effects.map PanelUpdateEffect.withoutPassword := by
  unfold submit
  simp only [given, otherGiven, false_or]
  split
  · split
    · exact ⟨rfl, rfl⟩
    · split
      · exact ⟨rfl, rfl⟩
      · split
        · exact ⟨rfl, rfl⟩
        · split
          · exact ⟨rfl, rfl⟩
          · exact ⟨rfl, rfl⟩
  · exact ⟨rfl, rfl⟩

theorem SamePassword.step {event other : PanelUpdateEvent} (same : SamePassword event other) :
    (reducePanelUpdate dateParse state event).state = (reducePanelUpdate dateParse state other).state ∧
      (reducePanelUpdate dateParse state event).effects.map PanelUpdateEffect.withoutPassword =
        (reducePanelUpdate dateParse state other).effects.map PanelUpdateEffect.withoutPassword := by
  cases same with
  | same => exact ⟨rfl, rfl⟩
  | submit owner password other requestId now given otherGiven => exact submit_samePassword given otherGiven

/-- What the page is asked to do over a history, in order. -/
def panelUpdateEffects (dateParse : String → Option Int) : PanelUpdateState → List PanelUpdateEvent → List PanelUpdateEffect
  | _, [] => []
  | state, event :: rest =>
      let taken := reducePanelUpdate dateParse state event
      taken.effects ++ panelUpdateEffects dateParse taken.state rest

theorem samePassword_run {history other : List PanelUpdateEvent} (same : List.Forall₂ SamePassword history other) :
    replay (fun state event => (reducePanelUpdate dateParse state event).state) state history =
        replay (fun state event => (reducePanelUpdate dateParse state event).state) state other ∧
      (panelUpdateEffects dateParse state history).map PanelUpdateEffect.withoutPassword =
        (panelUpdateEffects dateParse state other).map PanelUpdateEffect.withoutPassword := by
  induction same generalizing state with
  | nil => exact ⟨rfl, rfl⟩
  | cons event rest ih =>
      obtain ⟨sameState, sameEffects⟩ := @SamePassword.step dateParse state _ _ event
      obtain ⟨laterState, laterEffects⟩ := @ih (reducePanelUpdate dateParse state _).state
      simp only [replay_cons, panelUpdateEffects, List.map_append]
      rw [← sameState]
      exact ⟨laterState, by rw [sameEffects, laterEffects]⟩

def PanelUpdateEffect.applies : PanelUpdateEffect → Bool
  | .emitApply _ _ _ _ => true
  | _ => false

/-- At most one apply goes out at an event. -/
theorem emitApply_once (event : PanelUpdateEvent) :
    (reducePanelUpdate dateParse state event).effects.countP PanelUpdateEffect.applies ≤ 1 := by
  by_cases submitted : ∃ owner password requestId now, event = .submit owner password requestId now
  · obtain ⟨owner, password, requestId, now, rfl⟩ := submitted
    rcases submit_effects state owner password requestId now with silent | ⟨_, node, previewRequest, version, effects⟩
    · simp [reducePanelUpdate, silent]
    · simp [reducePanelUpdate, effects, PanelUpdateEffect.applies, runningRecord]
  · have none : (reducePanelUpdate dateParse state event).effects.countP PanelUpdateEffect.applies = 0 := by
      rw [List.countP_eq_zero]
      intro effect emitted applies
      cases effect with
      | emitApply request previewRequest version password =>
          obtain ⟨now, asked⟩ := emitApply_asked emitted
          exact submitted ⟨_, _, _, _, asked⟩
      | emitPreview | emitCancel | emitDismiss | requestStatus | persist | clearPersist | reload => cases applies
    omega

/-- The phase of this request that the page takes from an event, if it takes one. -/
def heardPhase (request : String) (taken : Option PanelUpdateStatus) : List (Option String) :=
  match taken.bind (·.operation) with
  | some op => if op.kind = .apply ∧ op.requestId = request then [op.phase] else []
  | none => []

theorem mem_heardPhase {request : String} {taken : Option PanelUpdateStatus} {phase : Option String} :
    phase ∈ heardPhase request taken ↔
      ∃ status op, taken = some status ∧ status.Tells request op ∧ phase = op.phase := by
  unfold heardPhase PanelUpdateStatus.Tells
  constructor
  · intro heard
    split at heard
    · rename_i op listed
      obtain ⟨status, taken, listed⟩ := Option.bind_eq_some_iff.mp listed
      split at heard
      · rename_i ours
        exact ⟨status, op, taken, ⟨listed, ours.1, ours.2⟩, List.mem_singleton.mp heard⟩
      · cases heard
    · cases heard
  · rintro ⟨status, op, rfl, ⟨listed, apply, ours⟩, rfl⟩
    simp [listed, apply, ours]

/-- The phases of this request the page takes over a stretch of events, in order. -/
def heardPhases (dateParse : String → Option Int) (request : String) :
    PanelUpdateState → List PanelUpdateEvent → List (Option String)
  | _, [] => []
  | state, event :: rest =>
      heardPhase request (event.takes state) ++
        heardPhases dateParse request (reducePanelUpdate dateParse state event).state rest

/-- The page follows this request. -/
def PanelUpdateState.Follows (state : PanelUpdateState) (request : String) : Prop :=
  ∃ node, state.node = .running node ∧ node.request = request

/-- The page follows this request in every state of the stretch, and is not loaded again in it. -/
def FollowsThrough (dateParse : String → Option Int) (request : String) :
    PanelUpdateState → List PanelUpdateEvent → Prop
  | state, [] => state.Follows request
  | state, event :: rest =>
      state.Follows request ∧ (∀ persisted now build, event ≠ .boot persisted now build) ∧
        FollowsThrough dateParse request (reducePanelUpdate dateParse state event).state rest

theorem FollowsThrough.first {request : String} {stretch : List PanelUpdateEvent}
    (follows : FollowsThrough dateParse request state stretch) : state.Follows request := by
  cases stretch with
  | nil => exact follows
  | cons event rest => exact follows.1

/-- One event of a request that is followed on. -/
theorem follows_step {event : PanelUpdateEvent} {node next : PanelUpdateRunningNode}
    (held : state.node = .running node)
    (left : (reducePanelUpdate dateParse state event).state.node = .running next)
    (same : next.request = node.request) (stays : ∀ persisted now build, event ≠ .boot persisted now build) :
    phaseRank node.phase ≤ phaseRank next.phase ∧
      ∀ phase ∈ heardPhase node.request (event.takes state), phaseRank phase ≤ phaseRank next.phase := by
  cases reducePanelUpdate_running left with
  | kept first running unmoved progress asks untold =>
      rw [held] at running
      cases running
      rw [unmoved.phase]
      refine ⟨Int.le_refl _, ?_⟩
      intro phase heard
      obtain ⟨status, op, taken, told, _⟩ := mem_heardPhase.mp heard
      exact absurd told (untold status op taken)
  | cancelled first running asked offered unmoved emitted =>
      rw [held] at running
      cases running
      rw [unmoved.phase]
      refine ⟨Int.le_refl _, ?_⟩
      intro phase heard
      rw [asked] at heard
      cases heard
  | advanced first running status taken op told followed =>
      rw [held] at running
      cases running
      have further : phaseRank node.phase ≤ phaseRank next.phase ∧ phaseRank op.phase ≤ phaseRank next.phase := by
        rcases followed.phase with ⟨kept, earlier⟩ | ⟨moved, later⟩
        · rw [kept]
          exact ⟨Int.le_refl _, earlier⟩
        · rw [moved]
          exact ⟨later, Int.le_refl _⟩
      refine ⟨further.1, ?_⟩
      intro phase heard
      obtain ⟨other, listed, takenOther, toldOther, rfl⟩ := mem_heardPhase.mp heard
      rw [taken] at takenOther
      cases takenOther
      have sameOperation := told.1.symm.trans toldOther.1
      cases sameOperation
      exact further.2
  | observed status taken op told other shown stored => exact absurd same.symm (other node held)
  | submitted password now asked running => exact absurd held (running node)
  | booted record now build asked => exact absurd asked (stays _ _ _)

/-- Over a stretch the phase only moves forward, past every phase heard in it. -/
theorem follows_forward {request : String} {stretch : List PanelUpdateEvent} {first last : PanelUpdateRunningNode}
    (follows : FollowsThrough dateParse request state stretch) (held : state.node = .running first)
    (left : (replay (fun state event => (reducePanelUpdate dateParse state event).state) state stretch).node =
      .running last) :
    phaseRank first.phase ≤ phaseRank last.phase ∧
      ∀ phase ∈ heardPhases dateParse request state stretch, phaseRank phase ≤ phaseRank last.phase := by
  induction stretch generalizing state first with
  | nil =>
      rw [replay_nil, held] at left
      cases left
      exact ⟨Int.le_refl _, by simp [heardPhases]⟩
  | cons event rest ih =>
      obtain ⟨⟨node, running, ours⟩, stays, later⟩ := follows
      rw [held] at running
      cases running
      obtain ⟨next, moved, nextOurs⟩ := later.first
      obtain ⟨forward, heardForward⟩ := follows_step held moved (nextOurs.trans ours.symm) stays
      obtain ⟨rest_forward, rest_heard⟩ := ih later moved left
      refine ⟨Int.le_trans forward rest_forward, ?_⟩
      intro phase heard
      rcases List.mem_append.mp heard with now | after
      · rw [← ours] at now
        exact Int.le_trans (heardForward phase now) rest_forward
      · exact rest_heard phase after

/-- The page shows cancelling only while the phase it knows still allows it. -/
def CancelsInTime (state : PanelUpdateState) : Prop :=
  ∀ node, state.node = .running node → node.progress = .cancelling → canCancelPanelUpdate node.phase = true

theorem CancelsInTime.step (before : CancelsInTime state) (event : PanelUpdateEvent) :
    CancelsInTime (reducePanelUpdate dateParse state event).state := by
  intro next left cancelling
  cases reducePanelUpdate_running left with
  | kept node held unmoved progress asks untold =>
      rw [unmoved.phase]
      rcases progress with kept | followed
      · exact before node held (kept.symm.trans cancelling)
      · exact absurd (followed.symm.trans cancelling) (progressOfPhase_ne_cancelling _)
  | cancelled node held asked offered unmoved emitted =>
      rw [unmoved.phase]
      simp only [panelUpdateCanCancel, held, decide_eq_true_eq] at offered
      exact offered.2.1
  | advanced node held status taken op told followed =>
      obtain ⟨cancels, same | early⟩ := followed.progress cancelling
      · rw [same]
        exact before node held cancels
      · exact early
  | observed status taken op told other shown stored =>
      exact absurd (shown.progress.symm.trans cancelling) (progressOfPhase_ne_cancelling _)
  | submitted password now asked running named fresh =>
      rw [fresh.2.1] at cancelling
      cases cancelling
  | booted record now build asked unfinished same progress => exact absurd cancelling progress

end

/-- The page took a status of this request, or was loaded with the record of one it took before. -/
def SeenBy (dateParse : String → Option Int) (history : List PanelUpdateEvent) (request : String) : Prop :=
  ∃ past event rest, history = past ++ event :: rest ∧
    ((∃ status op, event.takes (panelUpdateRun dateParse past) = some status ∧ status.Tells request op) ∨
      ∃ record now build, event = .boot (some record) now build ∧ record.request = request ∧ record.stage = .running)

theorem SeenBy.snoc {dateParse : String → Option Int} {history : List PanelUpdateEvent} {request : String}
    (seen : SeenBy dateParse history request) (event : PanelUpdateEvent) :
    SeenBy dateParse (history ++ [event]) request := by
  obtain ⟨past, first, rest, rfl, how⟩ := seen
  exact ⟨past, first, rest ++ [event], by simp, how⟩

theorem SeenBy.last {dateParse : String → Option Int} {past : List PanelUpdateEvent} {event : PanelUpdateEvent}
    {request : String}
    (how : (∃ status op, event.takes (panelUpdateRun dateParse past) = some status ∧ status.Tells request op) ∨
      ∃ record now build, event = .boot (some record) now build ∧ record.request = request ∧ record.stage = .running) :
    SeenBy dateParse (past ++ [event]) request := ⟨past, event, [], rfl, how⟩

/-- What the page calls seen was seen. -/
theorem panelUpdateRun_seen (dateParse : String → Option Int) (history : List PanelUpdateEvent) :
    ∀ node, (panelUpdateRun dateParse history).node = .running node → node.seen = true →
      SeenBy dateParse history node.request := by
  refine replay_induction (motive := fun history (state : PanelUpdateState) =>
    ∀ node, state.node = .running node → node.seen = true → SeenBy dateParse history node.request) ?_ ?_ history
  · intro node held
    cases held
  · intro past event before next left seen
    cases reducePanelUpdate_running left with
    | kept node held unmoved progress asks untold =>
        rw [unmoved.request]
        exact (before node held (unmoved.seen.symm.trans seen)).snoc event
    | cancelled node held asked offered unmoved emitted =>
        rw [unmoved.request]
        exact (before node held (unmoved.seen.symm.trans seen)).snoc event
    | advanced node held status taken op told followed =>
        rw [followed.same.request]
        exact SeenBy.last (.inl ⟨status, op, taken, told⟩)
    | observed status taken op told => exact SeenBy.last (.inl ⟨status, op, taken, told⟩)
    | submitted password now asked running named fresh =>
        rw [fresh.2.2] at seen
        cases seen
    | booted record now build asked unfinished same =>
        refine SeenBy.last (.inr ⟨record, now, build, asked, same.1.symm, ?_⟩)
        have staged := same.2.2.2.2.2
        rw [seen] at staged
        simpa using staged.symm

theorem panelUpdateRun_cancelsInTime (dateParse : String → Option Int) (history : List PanelUpdateEvent) :
    CancelsInTime (panelUpdateRun dateParse history) :=
  replay_invariant (motive := CancelsInTime) (by intro node held; cases held)
    (fun _ event before => before.step event) history

theorem panelUpdateRun_append (dateParse : String → Option Int) (past stretch : List PanelUpdateEvent) :
    panelUpdateRun dateParse (past ++ stretch) =
      replay (fun state event => (reducePanelUpdate dateParse state event).state) (panelUpdateRun dateParse past)
        stretch := by
  simp [panelUpdateRun]

/-- A cancel goes out for an owner the page can hear, once a status of the request was seen, and before
any phase of it that no longer allows it. -/
theorem emitCancel_inTime {dateParse : String → Option Int} {past stretch : List PanelUpdateEvent}
    {event : PanelUpdateEvent} {request : String} {first : PanelUpdateRunningNode}
    (held : (panelUpdateRun dateParse past).node = .running first)
    (follows : FollowsThrough dateParse request (panelUpdateRun dateParse past) stretch)
    (emitted : .emitCancel request ∈
      (reducePanelUpdate dateParse (panelUpdateRun dateParse (past ++ stretch)) event).effects) :
    event = .cancel true ∧ (panelUpdateRun dateParse (past ++ stretch)).ctx.link = .online ∧
      SeenBy dateParse (past ++ stretch) request ∧ phaseRank first.phase < phaseRank (some "downloaded") ∧
      ∀ phase ∈ heardPhases dateParse request (panelUpdateRun dateParse past) stretch,
        phaseRank phase < phaseRank (some "downloaded") := by
  obtain ⟨asked, offered, last, running, ours⟩ := emitCancel_asked emitted
  simp only [panelUpdateCanCancel, running, canCancelPanelUpdate, decide_eq_true_eq] at offered
  obtain ⟨waiting, early, online⟩ := offered
  have seen : last.seen = true := by
    have started := panelUpdateRun_runningStarted dateParse (past ++ stretch) last running
    cases unseen : last.seen with
    | true => rfl
    | false =>
        have submitting := started.mp unseen
        rw [submitting] at waiting
        rcases waiting with starting | downloading
        · cases starting
        · cases downloading
  have left := running
  rw [panelUpdateRun_append] at left
  obtain ⟨forward, heardForward⟩ := follows_forward follows held left
  refine ⟨asked, online, ?_, Int.lt_of_le_of_lt forward early, ?_⟩
  · rw [← ours]
    exact panelUpdateRun_seen dateParse (past ++ stretch) last running seen
  · intro phase heard
    exact Int.lt_of_le_of_lt (heardForward phase heard) early

/-- Progress only moves forward: over every stretch of every run the phase never goes back, cancelling
is shown and a cancel goes out in time, an apply goes out once for a submit, and the password is
nowhere but in that apply. -/
theorem progress_only_forward (dateParse : String → Option Int) :
    (∀ past stretch request first last, (panelUpdateRun dateParse past).node = .running first →
      FollowsThrough dateParse request (panelUpdateRun dateParse past) stretch →
      (panelUpdateRun dateParse (past ++ stretch)).node = .running last →
      phaseRank first.phase ≤ phaseRank last.phase) ∧
    (∀ history node, (panelUpdateRun dateParse history).node = .running node → node.progress = .cancelling →
      phaseRank node.phase < phaseRank (some "downloaded")) ∧
    (∀ past stretch event request first, (panelUpdateRun dateParse past).node = .running first →
      FollowsThrough dateParse request (panelUpdateRun dateParse past) stretch →
      .emitCancel request ∈ (reducePanelUpdate dateParse (panelUpdateRun dateParse (past ++ stretch)) event).effects →
      event = .cancel true ∧ (panelUpdateRun dateParse (past ++ stretch)).ctx.link = .online ∧
        SeenBy dateParse (past ++ stretch) request ∧ phaseRank first.phase < phaseRank (some "downloaded") ∧
        ∀ phase ∈ heardPhases dateParse request (panelUpdateRun dateParse past) stretch,
          phaseRank phase < phaseRank (some "downloaded")) ∧
    (∀ history event, (reducePanelUpdate dateParse (panelUpdateRun dateParse history) event).effects.countP
        PanelUpdateEffect.applies ≤ 1 ∧
      ∀ request previewRequest version password, .emitApply request previewRequest version password ∈
          (reducePanelUpdate dateParse (panelUpdateRun dateParse history) event).effects →
        ∃ now, event = .submit true password request now) ∧
    (∀ history other, List.Forall₂ SamePassword history other →
      panelUpdateRun dateParse history = panelUpdateRun dateParse other ∧
      (panelUpdateEffects dateParse createPanelUpdateState history).map PanelUpdateEffect.withoutPassword =
        (panelUpdateEffects dateParse createPanelUpdateState other).map PanelUpdateEffect.withoutPassword) := by
  refine ⟨?_, ?_, ?_, ?_, ?_⟩
  · intro past stretch request first last held follows left
    rw [panelUpdateRun_append] at left
    exact (follows_forward follows held left).1
  · intro history node held cancelling
    have early := panelUpdateRun_cancelsInTime dateParse history node held cancelling
    simpa only [canCancelPanelUpdate, decide_eq_true_eq] using early
  · intro past stretch event request first held follows emitted
    exact emitCancel_inTime held follows emitted
  · intro history event
    exact ⟨emitApply_once event, fun request previewRequest version password emitted => emitApply_asked emitted⟩
  · intro history other same
    exact samePassword_run same

/-- A second `BOOT` moves the same request back to an earlier phase: the page dispatches it once,
before anything else. -/
theorem second_boot_moves_back :
    ∃ past event first last, (panelUpdateRun (fun _ => none) past).node = .running first ∧
      (panelUpdateRun (fun _ => none) (past ++ [event])).node = .running last ∧
      first.request = last.request ∧ phaseRank last.phase < phaseRank first.phase := by
  refine ⟨[.boot (some { sampleRecord with phase := some "stopping" }) 0 none], .boot (some sampleRecord) 1 none,
    _, _, rfl, rfl, rfl, ?_⟩
  decide

end Dockge.PanelUpdate
