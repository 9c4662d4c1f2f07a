import Dockge.Data.History
import Dockge.PanelUpdate.Machine.Reduce

namespace Dockge.PanelUpdate

open Dockge.Data

/-! Every way the page comes to show a result, and what it heard before it shows success. -/

/-- The status an event delivers, if it delivers one. -/
def PanelUpdateEvent.status? : PanelUpdateEvent → Option PanelUpdateStatus
  | .status given _ _ _ => some given
  | .ack _ (.ok given) _ => some given
  | _ => none

/-- The status says that the apply of this request ended with success, and the panel that
sent it runs the target. -/
def PanelUpdateStatus.Confirms (status : PanelUpdateStatus) (request target : String) : Prop :=
  ∃ op result, status.operation = some op ∧ op.kind = .apply ∧ op.requestId = request ∧
    op.running = false ∧ op.result = some result ∧ result.outcome = .success ∧
    status.panel.version = target

/-- The status shows no apply operation while the panel that sent it runs the target. -/
def PanelUpdateStatus.Dismissed (status : PanelUpdateStatus) (target : String) : Prop :=
  (∀ op, status.operation = some op → op.kind ≠ .apply) ∧ status.panel.version = target

/-- The result after a step, by where it came from. -/
inductive StatusOutcome (before : PanelUpdateNode) (status : PanelUpdateStatus) (probe : Bool)
    (after : PanelUpdateOutcomeNode) : Prop
  | kept (held : before = .outcome after)
  | unconfirmed (sub : after.sub ≠ .updated) (shown : after.updated = none) (ended : after.pending = false)
  | confirmed (confirms : status.Confirms after.request after.toVersion)
      (ended : after.pending = false)
  | dismissed (node : PanelUpdateOutcomeNode) (held : before = .outcome node)
      (pending : node.pending = true) (same : after = { node with pending := false })
      (answered : probe = true) (gone : status.Dismissed after.toVersion)

theorem judge_cases (op : PanelUpdateOperation) (status : PanelUpdateStatus) (target : String) :
    (judge op status target).1 ≠ .updated ∨
      ((∃ result, op.result = some result ∧ result.outcome = .success) ∧ status.panel.version = target) := by
  unfold judge
  by_cases success : (pageResult op.result).outcome = .success
  · by_cases version : status.panel.version = target
    · refine .inr ⟨?_, version⟩
      cases given : op.result with
      | none => simp [given, pageResult] at success
      | some result => exact ⟨result, rfl, by simpa [given, pageResult] using success⟩
    · exact .inl (by simp [success, version])
  · refine .inl ?_
    simp only [if_neg success]
    cases (pageResult op.result).outcome <;> simp [outcomeKind]

theorem applyOperation_some {ctx : PanelUpdateContext} {op : PanelUpdateOperation}
    (shown : applyOperation ctx = some op) :
    ∃ status, ctx.status = some status ∧ status.operation = some op ∧ op.kind = .apply ∧
      some op.requestId ≠ ctx.closed := by
  unfold applyOperation at shown
  cases known : ctx.status with
  | none => simp [known] at shown
  | some status =>
      cases listed : status.operation with
      | none => simp [known, listed] at shown
      | some listedOp =>
          simp only [known, listed, Option.bind_some] at shown
          split at shown
          · rename_i open'
            cases shown
            exact ⟨status, rfl, listed, open'⟩
          · contradiction

theorem otherRunning_some {ctx : PanelUpdateContext} {request : String} {op : PanelUpdateOperation}
    (shown : otherRunning ctx request = some op) :
    applyOperation ctx = some op ∧ op.running = true ∧ op.requestId ≠ request := by
  unfold otherRunning at shown
  split at shown
  · rename_i listed found
    split at shown
    · rename_i other
      cases shown
      exact ⟨found, other⟩
    · contradiction
  · contradiction

section
variable {dateParse : String → Option Int} {state : PanelUpdateState} {status : PanelUpdateStatus}
  {probe : Bool} {after : PanelUpdateOutcomeNode} {now : Int}

theorem observe_not_outcome {op : PanelUpdateOperation}
    (left : (observe dateParse state op now).state.node = .outcome after) : False := by
  simp [observe] at left

theorem outcomeNode_ended {request fromVersion toVersion : String} {startedAt : Int}
    {phase : Option String} {sub : PanelUpdateOutcomeKind} {result : PanelUpdatePageResult}
    {watched : Bool} {before : PanelUpdateNode} (other : sub ≠ .updated) :
    StatusOutcome before status probe
      (outcomeNode request fromVersion toVersion startedAt phase sub result watched) :=
  .unconfirmed other (by simp [outcomeNode, other]) rfl

theorem enterIdle_outcome {before : PanelUpdateNode} {notice : Option PanelUpdateIdleNotice}
    (known : state.ctx.status = some status)
    (left : (enterIdle dateParse state now notice).state.node = .outcome after) :
    StatusOutcome before status probe after := by
  unfold enterIdle at left
  cases found : applyOperation state.ctx with
  | none => simp [found] at left
  | some op =>
      obtain ⟨listedStatus, same, listed, apply, _⟩ := applyOperation_some found
      rw [known] at same
      cases same
      simp only [found, known] at left
      split at left
      · exact (observe_not_outcome left).elim
      · rename_i stopped
        have ended : op.running = false := by simpa using stopped
        rcases judge_cases op status op.toVersion with other | ⟨⟨result, given, success⟩, version⟩
        · split at left
          · rename_i updated
            exact absurd updated.1 other
          · cases left
            exact outcomeNode_ended other
        · have confirms : status.Confirms op.requestId op.toVersion :=
            ⟨op, result, listed, apply, rfl, ended, given, success, version⟩
          split at left <;> cases left <;> exact .confirmed confirms rfl

theorem finishRunning_outcome {before : PanelUpdateNode} {node : PanelUpdateRunningNode}
    {op : PanelUpdateOperation} (listed : status.operation = some op) (apply : op.kind = .apply)
    (ours : op.requestId = node.request) (ended : op.running = false)
    (left : (finishRunning state node op status now).state.node = .outcome after) :
    StatusOutcome before status probe after := by
  unfold finishRunning at left
  rcases judge_cases op status node.toVersion with other | ⟨⟨result, given, success⟩, version⟩
  · simp only [if_neg other] at left
    cases left
    exact outcomeNode_ended other
  · have confirms : status.Confirms node.request node.toVersion :=
      ⟨op, result, listed, apply, ours, ended, given, success, version⟩
    simp only at left
    split at left <;> cases left <;> exact .confirmed confirms rfl

theorem notStarted_outcome {before : PanelUpdateNode} {node : PanelUpdateRunningNode}
    (known : state.ctx.status = some status)
    (left : (notStarted dateParse state node now).state.node = .outcome after) :
    StatusOutcome before status probe after := by
  unfold notStarted at left
  split at left
  · split at left
    · simp at left
    · exact enterIdle_outcome known left
  · exact enterIdle_outcome known left

theorem runningStatus_outcome {before : PanelUpdateNode} {node : PanelUpdateRunningNode}
    (known : state.ctx.status = some status) (running : state.node = .running node)
    (left : (runningStatus dateParse state node status now probe).state.node = .outcome after) :
    StatusOutcome before status probe after := by
  have unheard : (runningStatus.unheard dateParse state node now probe).state.node = .outcome after →
      StatusOutcome before status probe after := by
    intro left
    unfold runningStatus.unheard at left
    split at left
    · simp [running] at left
    · split at left
      · exact notStarted_outcome known left
      · split at left
        · exact (observe_not_outcome left).elim
        · cases left
          exact outcomeNode_ended (by simp)
  unfold runningStatus at left
  split at left
  · rename_i op listed
    split at left
    · rename_i ours
      split at left
      · unfold advance at left
        simp only at left
        split at left <;> simp at left
      · rename_i stopped
        exact finishRunning_outcome listed ours.1 ours.2 (by simpa using stopped) left
    · exact unheard left
  · exact unheard left

theorem contradiction_outcome {before : PanelUpdateNode} {node : PanelUpdateOutcomeNode}
    (left : (contradiction state node).state.node = .outcome after) :
    StatusOutcome before status probe after := by
  cases left
  exact outcomeNode_ended (by simp)

theorem confirmOutcome_outcome {node : PanelUpdateOutcomeNode} (pending : node.pending = true)
    (held : state.node = .outcome node)
    (left : (confirmOutcome state node status probe).state.node = .outcome after) :
    StatusOutcome (.outcome node) status probe after := by
  have stayed : state.node = .outcome after → StatusOutcome (.outcome node) status probe after := by
    intro same
    exact .kept (held.symm.trans same)
  have dismissed : (∀ op, status.operation = some op → op.kind ≠ .apply) → probe = true →
      (confirmOutcome.dismissed state node status).state.node = .outcome after →
      StatusOutcome (.outcome node) status probe after := by
    intro none answered left
    unfold confirmOutcome.dismissed at left
    split at left
    · rename_i version
      cases left
      exact .dismissed node rfl pending rfl answered ⟨none, version⟩
    · exact contradiction_outcome left
  unfold confirmOutcome at left
  split at left
  · rename_i op listed
    split at left
    · rename_i ours
      split at left
      · exact contradiction_outcome left
      · rename_i stopped
        have ended : op.running = false := by simpa using stopped
        rcases judge_cases op status node.toVersion with other | ⟨⟨result, given, success⟩, version⟩
        · simp only [if_neg other] at left
          cases left
          exact outcomeNode_ended other
        · have confirms : status.Confirms node.request node.toVersion :=
            ⟨op, result, listed, ours.1, ours.2, ended, given, success, version⟩
          simp only at left
          split at left <;> cases left <;> exact .confirmed confirms rfl
    · split at left
      · exact stayed left
      · rename_i asked
        obtain ⟨answered, other⟩ := not_or.mp asked
        refine dismissed ?_ (by simpa using answered) left
        intro found same
        rw [listed] at same
        cases same
        exact other
  · rename_i absent
    split at left
    · exact stayed left
    · rename_i answered
      exact dismissed (by simp [absent]) (by simpa using answered) left

theorem previewStatus_not_outcome {node : PanelUpdatePreviewNode} (shown : state.node = .preview node)
    (left : (previewStatus dateParse state node now probe).state.node = .outcome after) : False := by
  unfold previewStatus previewStatus.gone previewFinished previewFinished.refusedResult refused at left
  split at left
  · split at left
    · exact observe_not_outcome left
    · split at left
      · simp [shown] at left
      · split at left
        · split at left
          · simp at left
          · split at left
            · split at left <;> simp at left
            · simp at left
        · split at left <;> simp [shown] at left
  · split at left
    · simp [shown] at left
    · split at left <;> simp [shown] at left

theorem outcomeStatus_outcome {node : PanelUpdateOutcomeNode} (held : state.node = .outcome node)
    (left : (outcomeStatus dateParse state node status probe now).state.node = .outcome after) :
    StatusOutcome (.outcome node) status probe after := by
  unfold outcomeStatus at left
  generalize (if node.updated = some .reloading then none else otherRunning state.ctx node.request) =
    other at left
  cases other with
  | some other => exact (observe_not_outcome left).elim
  | none =>
      dsimp only at left
      split at left
      · exact .kept (held.symm.trans left)
      · rename_i waiting
        exact confirmOutcome_outcome (by simpa using waiting) held left

/-- What a status the page takes can make of the result on screen. -/
theorem onStatus_outcome {solicited : Bool} {askId : Option Nat}
    (left : (onStatus dateParse state status solicited askId now).state.node = .outcome after) :
    StatusOutcome state.node status (answersProbe state.ctx solicited askId) after := by
  unfold onStatus at left
  cases held : state.node with
  | idle node =>
      simp only [held] at left
      exact enterIdle_outcome (takeStatus_status ..) left
  | preview node =>
      simp only [held] at left
      exact (previewStatus_not_outcome ((takeStatus_node ..).trans held) left).elim
  | running node =>
      simp only [held] at left
      exact runningStatus_outcome (takeStatus_status ..) ((takeStatus_node ..).trans held) left
  | outcome node =>
      simp only [held] at left
      exact outcomeStatus_outcome ((takeStatus_node ..).trans held) left

end

/-- Whether an event answers the request that may say the helper is gone. -/
def PanelUpdateEvent.answersProbe (ctx : PanelUpdateContext) : PanelUpdateEvent → Bool
  | .status _ solicited askId _ => PanelUpdate.answersProbe ctx solicited askId
  | .ack (.status askId) _ _ => PanelUpdate.answersProbe ctx true (some askId)
  | _ => false

/-- The page takes this status from the event: it is delivered, and it can be read. -/
def PanelUpdateEvent.Delivers (event : PanelUpdateEvent) (status : PanelUpdateStatus) : Prop :=
  event.status? = some status ∧ panelUpdateStatusUnreadable status = false

/-- The record of an update that ended with success before the page was loaded again. -/
def PanelUpdateRecord.Succeeded (record : PanelUpdateRecord) : Prop :=
  record.stage = .finished ∧ record.outcome = some "success"

/-- Every way an event leaves a result on screen. -/
inductive OutcomeStep (before : PanelUpdateState) (event : PanelUpdateEvent)
    (after : PanelUpdateOutcomeNode) : Prop
  | kept (node : PanelUpdateOutcomeNode) (held : before.node = .outcome node)
      (same : after = { node with askedAt := after.askedAt, stalled := after.stalled })
  | unconfirmed (sub : after.sub ≠ .updated) (shown : after.updated = none) (ended : after.pending = false)
  | confirmed (status : PanelUpdateStatus) (delivers : event.Delivers status)
      (confirms : status.Confirms after.request after.toVersion) (ended : after.pending = false)
  | dismissed (node : PanelUpdateOutcomeNode) (held : before.node = .outcome node)
      (pending : node.pending = true) (same : after = { node with pending := false })
      (status : PanelUpdateStatus) (delivers : event.Delivers status)
      (answered : event.answersProbe before.ctx = true) (gone : status.Dismissed after.toVersion)
  | booted (record : PanelUpdateRecord) (now : Int) (build : Option String)
      (booting : event = .boot (some record) now build) (succeeded : record.Succeeded)
      (request : after.request = record.request) (target : after.toVersion = record.toVersion)
      (sub : after.sub = .updated) (shown : after.updated = some .shown) (pending : after.pending = true)

section
variable {dateParse : String → Option Int} {state : PanelUpdateState} {status : PanelUpdateStatus}
  {after : PanelUpdateOutcomeNode} {now : Int}

theorem StatusOutcome.step {event : PanelUpdateEvent} {probe : Bool}
    (taken : StatusOutcome state.node status probe after) (delivers : event.Delivers status)
    (answers : probe = true → event.answersProbe state.ctx = true) :
    OutcomeStep state event after := by
  cases taken with
  | kept held => exact .kept after held rfl
  | unconfirmed sub shown ended => exact .unconfirmed sub shown ended
  | confirmed confirms ended => exact .confirmed status delivers confirms ended
  | dismissed node held pending same answered gone =>
      exact .dismissed node held pending same status delivers (answers answered) gone

/-- The same, where the page takes the status in a state that showed no result. -/
theorem StatusOutcome.step_fresh {event : PanelUpdateEvent} {probe : Bool} {before : PanelUpdateNode}
    (taken : StatusOutcome before status probe after) (delivers : event.Delivers status)
    (fresh : ∀ node, before ≠ .outcome node) : OutcomeStep state event after := by
  cases taken with
  | kept held => exact (fresh _ held).elim
  | unconfirmed sub shown ended => exact .unconfirmed sub shown ended
  | confirmed confirms ended => exact .confirmed status delivers confirms ended
  | dismissed node held => exact (fresh node held).elim

@[simp] theorem ask_node (state : PanelUpdateState) (probe : Bool) :
    (ask state probe).state.node = state.node := by
  unfold ask
  split <;> rfl

theorem outcome_kept {event : PanelUpdateEvent} (held : state.node = .outcome after) :
    OutcomeStep state event after := .kept after held rfl

theorem boot_outcome {persisted : Option PanelUpdateRecord} {build : Option String}
    (left : (boot state persisted now build).state.node = .outcome after) :
    OutcomeStep state (.boot persisted now build) after := by
  unfold boot at left
  cases persisted with
  | none => simp at left
  | some record =>
      by_cases finished : record.stage = .finished
      · by_cases success : record.outcome = some "success"
        · simp only [finished, success, ne_eq, not_true_eq_false, if_true, if_false] at left
          cases left
          exact .booted record now build rfl ⟨finished, success⟩ rfl rfl rfl rfl rfl
        · simp [finished, success] at left
      · simp [finished] at left

theorem linkUp_outcome (left : (linkUp state now).state.node = .outcome after) :
    OutcomeStep state (.linkUp now) after := by
  unfold linkUp at left
  cases held : state.node with
  | idle node =>
      simp only [held, ask_node] at left
      split at left <;> simp at left
  | preview node =>
      simp only [held] at left
      split at left <;> simp at left
  | running node => simp [held] at left
  | outcome node =>
      simp only [held] at left
      split at left <;> simp only [ask_node, PanelUpdateNode.outcome.injEq] at left <;> subst left
      · exact .kept node held rfl
      · exact .kept node held rfl

theorem tick_outcome (left : (tick state now).state.node = .outcome after) :
    OutcomeStep state (.tick now) after := by
  unfold tick tickPreview tickRunning at left
  cases held : state.node with
  | idle node =>
      simp only [held] at left
      split at left <;> simp [held] at left
  | preview node =>
      simp only [held] at left
      split at left
      · simp [held] at left
      · split at left
        · simp [held] at left
        · split at left <;> simp at left
  | running node =>
      simp only [held] at left
      split at left
      · split at left <;> simp [held] at left
      · split at left <;> simp [held] at left
      · simp [held] at left
  | outcome node =>
      simp only [held] at left
      split at left
      · simp only [ask_node, PanelUpdateNode.outcome.injEq] at left
        subst left
        exact .kept node held rfl
      · split at left
        · simp only [withNode_node, PanelUpdateNode.outcome.injEq] at left
          subst left
          exact .kept node held rfl
        · exact outcome_kept left

theorem statusAck_outcome {askId : Nat} {given : PanelUpdateAckResult}
    (left : (statusAck dateParse state askId (readableResult (.status askId) given) now).state.node =
      .outcome after) :
    OutcomeStep state (.ack (.status askId) given now) after := by
  have unanswered : ∀ reason, (statusAck.unanswered state askId reason).state.node = .outcome after →
      OutcomeStep state (.ack (.status askId) given now) after := by
    intro reason left
    have same : (if some askId = state.ctx.probe then
        { state with ctx := { state.ctx with probe := none } } else state).node = state.node := by
      split <;> rfl
    unfold statusAck.unanswered at left
    simp only [same] at left
    split at left
    · split at left
      · simp at left
      · exact outcome_kept (same.symm.trans left)
    · exact outcome_kept (same.symm.trans left)
  cases given with
  | ok status =>
      unfold readableResult statusAck at left
      cases readable : panelUpdateStatusUnreadable status with
      | true =>
          simp only [readable, if_true] at left
          exact unanswered _ left
      | false =>
          simp only [readable, Bool.false_eq_true, if_false] at left
          exact (onStatus_outcome left).step ⟨rfl, readable⟩ id
  | error code msg => exact unanswered _ left
  | lost => exact unanswered _ left

/-- An answer the page takes as a status is one it can read. -/
theorem readableResult_ok {ack : PanelUpdateAck} {given : PanelUpdateAckResult}
    (answered : readableResult ack given = .ok status) :
    given = .ok status ∧ panelUpdateStatusUnreadable status = false := by
  cases given with
  | ok sent =>
      cases readable : panelUpdateStatusUnreadable sent with
      | true => cases ack <;> simp [readableResult, readable] at answered
      | false =>
          simp only [readableResult, readable, Bool.false_eq_true, if_false,
            PanelUpdateAckResult.ok.injEq] at answered
          subst answered
          exact ⟨rfl, readable⟩
  | error code msg => simp [readableResult] at answered
  | lost => simp [readableResult] at answered

theorem readableResult_delivers {ack : PanelUpdateAck} {given : PanelUpdateAckResult}
    (answered : readableResult ack given = .ok status) :
    (PanelUpdateEvent.ack ack given now).Delivers status := by
  obtain ⟨rfl, readable⟩ := readableResult_ok answered
  exact ⟨rfl, readable⟩

theorem applyRefused_eq (state : PanelUpdateState) (node : PanelUpdateRunningNode) (code : String) (msg : Option String) (now : Int) :
    ∃ preview, applyRefused state node code msg now =
      withNode state (.preview preview) [.clearPersist] := by
  unfold applyRefused
  dsimp only
  split <;> exact ⟨_, rfl⟩

theorem requestAck_outcome {kind : PanelUpdateRequestKind} {requestId : String}
    {given : PanelUpdateAckResult}
    (left : (onAck dateParse state (.request kind requestId) given now).state.node = .outcome after) :
    OutcomeStep state (.ack (.request kind requestId) given now) after := by
  unfold onAck at left
  generalize answer : readableResult (.request kind requestId) given = result at left
  cases kind with
  | dismiss =>
      simp only [dismissAck] at left
      split at left
      · exact outcome_kept left
      · split at left
        · exact (onStatus_outcome left).step (readableResult_delivers answer) (by simp [answersProbe])
        · cases held : state.node with
          | idle node =>
              simp only [held] at left
              split at left <;> simp at left
          | preview node => simp [held] at left
          | running node => simp [held] at left
          | outcome node =>
              simp only [held, stay_state] at left
              exact outcome_kept (held.trans left)
  | preview =>
      cases held : state.node with
      | preview node =>
          simp only [held, previewAck] at left
          split at left
          · simp [held] at left
          · split at left
            · exact (onStatus_outcome left).step_fresh (readableResult_delivers answer) (by simp)
            · split at left <;> simp [refused] at left
            · simp at left
      | idle node => simp [held] at left
      | running node => simp [held] at left
      | outcome node =>
          simp only [held, stay_state] at left
          exact outcome_kept (held.trans left)
  | apply =>
      cases held : state.node with
      | running node =>
          simp only [held, applyAck] at left
          split at left
          · simp [held] at left
          · split at left
            · exact (onStatus_outcome left).step_fresh (readableResult_delivers answer) (by simp)
            · rename_i code msg
              split at left
              · obtain ⟨preview, refused⟩ := applyRefused_eq state node code msg now
                simp [refused] at left
              · simp at left
            · simp at left
      | idle node => simp [held] at left
      | preview node => simp [held] at left
      | outcome node =>
          simp only [held, stay_state] at left
          exact outcome_kept (held.trans left)
  | cancel =>
      cases held : state.node with
      | running node =>
          simp only [held, cancelAck] at left
          split at left
          · simp [held] at left
          · split at left
            · exact (onStatus_outcome left).step_fresh (readableResult_delivers answer) (by simp [held])
            · simp [held] at left
            · split at left <;> simp [held] at left
      | idle node => simp [held] at left
      | preview node => simp [held] at left
      | outcome node =>
          simp only [held, stay_state] at left
          exact outcome_kept (held.trans left)

/-- Every way an event leaves a result on screen, over all events. -/
theorem reducePanelUpdate_outcome {event : PanelUpdateEvent}
    (left : (reducePanelUpdate dateParse state event).state.node = .outcome after) :
    OutcomeStep state event after := by
  cases event with
  | boot persisted now build => exact boot_outcome left
  | info latestVersion updateAvailable =>
      simp only [reducePanelUpdate, info] at left
      split at left
      · split at left
        · simp at left
        · exact outcome_kept left
      · exact outcome_kept left
  | status status solicited askId now =>
      simp only [reducePanelUpdate] at left
      split at left
      · exact outcome_kept left
      · rename_i readable
        exact (onStatus_outcome left).step ⟨rfl, by simpa using readable⟩ id
  | linkUp now => exact linkUp_outcome left
  | linkDown now =>
      simp only [reducePanelUpdate, linkDown] at left
      split at left <;> exact outcome_kept left
  | authLost => exact outcome_kept left
  | ack ack given now =>
      cases ack with
      | status askId => exact statusAck_outcome left
      | request kind requestId => exact requestAck_outcome left
  | tick now => exact tick_outcome left
  | check owner requestId =>
      simp only [reducePanelUpdate, check] at left
      split at left
      · split at left
        · split at left
          · simp at left
          · exact outcome_kept left
        · exact outcome_kept left
      · exact outcome_kept left
  | confirm owner =>
      simp only [reducePanelUpdate, confirm] at left
      split at left
      · split at left
        · exact outcome_kept left
        · simp at left
      · exact outcome_kept left
  | submit owner password requestId now =>
      simp only [reducePanelUpdate, submit] at left
      split at left
      · split at left
        · exact outcome_kept left
        · split at left
          · exact outcome_kept left
          · split at left
            · exact outcome_kept left
            · split at left
              · exact outcome_kept left
              · simp at left
      · exact outcome_kept left
  | cancel owner =>
      simp only [reducePanelUpdate, cancel] at left
      split at left
      · split at left
        · exact outcome_kept left
        · simp at left
      · exact outcome_kept left
  | dismiss owner now =>
      simp only [reducePanelUpdate, dismiss] at left
      split at left
      · split at left
        · exact outcome_kept left
        · split at left <;> simp at left
      · exact outcome_kept left
  | close =>
      simp only [reducePanelUpdate, close] at left
      split at left
      · split at left <;> simp at left
      · split at left
        · exact outcome_kept left
        · simp at left
      · exact outcome_kept left

/-- A result that waits for its confirmation is never the one the page reloads for. -/
def PendingShown (state : PanelUpdateState) : Prop :=
  ∀ node, state.node = .outcome node → node.pending = true → node.updated = some .shown

theorem PendingShown.step (shown : PendingShown state) (event : PanelUpdateEvent) :
    PendingShown (reducePanelUpdate dateParse state event).state := by
  intro after left pending
  cases reducePanelUpdate_outcome left with
  | kept node held same =>
      rw [same] at pending ⊢
      exact shown node held pending
  | unconfirmed sub updated ended => simp [ended] at pending
  | confirmed status delivers confirms ended => simp [ended] at pending
  | dismissed node held waiting same => simp [same] at pending
  | booted record now build booting succeeded request target sub updated => exact updated

end

/-- The state after a history of events, from the state before `BOOT`. -/
def panelUpdateRun (dateParse : String → Option Int) (history : List PanelUpdateEvent) :
    PanelUpdateState :=
  replay (fun state event => (reducePanelUpdate dateParse state event).state) createPanelUpdateState
    history

theorem panelUpdateRun_snoc (dateParse : String → Option Int) (past : List PanelUpdateEvent)
    (event : PanelUpdateEvent) :
    panelUpdateRun dateParse (past ++ [event]) =
      (reducePanelUpdate dateParse (panelUpdateRun dateParse past) event).state := by
  simp [panelUpdateRun]

theorem panelUpdateRun_pendingShown (dateParse : String → Option Int) (history : List PanelUpdateEvent) :
    PendingShown (panelUpdateRun dateParse history) :=
  replay_invariant (motive := PendingShown) (by intro node held; cases held)
    (fun _ event shown => shown.step event) history

end Dockge.PanelUpdate
