import Dockge.PanelUpdate.Machine.Outcome

namespace Dockge.PanelUpdate

/-! Every way a step leaves an operation running, with what it has the page do. -/

/-- The status the page takes from an event, if it takes one: an acknowledgement of a request it no
longer waits for is dropped with its status, and so is a status that could not be read. -/
def PanelUpdateEvent.takes (state : PanelUpdateState) : PanelUpdateEvent → Option PanelUpdateStatus
  | .status given _ _ _ => readable given
  | .ack (.status _) (.ok given) _ => readable given
  | .ack (.request kind requestId) (.ok given) _ => if waitsFor kind requestId then readable given else none
  | _ => none
where
  readable (given : PanelUpdateStatus) : Option PanelUpdateStatus :=
    if panelUpdateStatusUnreadable given then none else some given
  waitsFor (kind : PanelUpdateRequestKind) (requestId : String) : Bool :=
    match kind, state.node with
    | .dismiss, _ => state.ctx.closed = some requestId
    | .preview, .preview node => node.sub = .checking ∧ node.request = requestId
    | .apply, .running node | .cancel, .running node => node.request = requestId
    | _, _ => false

/-- The status tells of this request. -/
def PanelUpdateStatus.Tells (status : PanelUpdateStatus) (request : String) (op : PanelUpdateOperation) : Prop :=
  status.operation = some op ∧ op.kind = .apply ∧ op.requestId = request

/-- Nothing but a question to the panel. -/
def Asks (effects : List PanelUpdateEffect) : Prop := ∀ effect ∈ effects, ∃ number, effect = .requestStatus number

/-- The same operation. -/
structure Carried (node next : PanelUpdateRunningNode) : Prop where
  request : next.request = node.request
  fromVersion : next.fromVersion = node.fromVersion
  toVersion : next.toVersion = node.toVersion
  startedAt : next.startedAt = node.startedAt

/-- The same operation, as far as it was. -/
structure Unmoved (node next : PanelUpdateRunningNode) : Prop extends Carried node next where
  phase : next.phase = node.phase
  seen : next.seen = node.seen

/-- The node follows an operation from a status that shows it. -/
structure Observed (op : PanelUpdateOperation) (node : PanelUpdateRunningNode) : Prop where
  request : node.request = op.requestId
  phase : node.phase = op.phase
  progress : node.progress = progressOfPhase op.phase
  seen : node.seen = true

/-- The node after a status of its operation. -/
structure Advanced (op : PanelUpdateOperation) (node next : PanelUpdateRunningNode)
    (effects : List PanelUpdateEffect) : Prop where
  same : Carried node next
  seen : next.seen = true
  phase : next.phase = node.phase ∧ phaseRank op.phase ≤ phaseRank node.phase ∨
    next.phase = op.phase ∧ phaseRank node.phase ≤ phaseRank op.phase
  progress : next.progress = .cancelling →
    node.progress = .cancelling ∧ (next.phase = node.phase ∨ canCancelPanelUpdate next.phase = true)
  stored : effects = [runningRecord next .running] ∨ effects = [] ∧ node.seen = true ∧ next.phase = node.phase

/-- How a step came to leave an operation running. -/
inductive RunningStep (state : PanelUpdateState) (event : PanelUpdateEvent) (next : PanelUpdateRunningNode)
    (effects : List PanelUpdateEffect) : Prop
  | kept (node : PanelUpdateRunningNode) (held : state.node = .running node)
      (same : Unmoved node next)
      (progress : next.progress = node.progress ∨ next.progress = progressOfPhase node.phase)
      (asks : Asks effects)
      (untold : ∀ status op, event.takes state = some status → ¬ status.Tells node.request op)
  | cancelled (node : PanelUpdateRunningNode) (held : state.node = .running node) (asked : event = .cancel true)
      (offered : panelUpdateCanCancel state = true)
      (same : Unmoved node next) (emitted : effects = [.emitCancel node.request])
  | advanced (node : PanelUpdateRunningNode) (held : state.node = .running node) (status : PanelUpdateStatus)
      (taken : event.takes state = some status) (op : PanelUpdateOperation) (told : status.Tells node.request op)
      (followed : Advanced op node next effects)
  | observed (status : PanelUpdateStatus) (taken : event.takes state = some status) (op : PanelUpdateOperation)
      (told : status.Tells next.request op)
      (other : ∀ node, state.node = .running node → node.request ≠ next.request) (shown : Observed op next)
      (stored : effects = [runningRecord next .running] ∨ effects = [.clearPersist, runningRecord next .running])
  | submitted (password : String) (now : Int) (asked : event = .submit true password next.request now)
      (left : ∀ node, state.node ≠ .running node) (named : panelUpdateRequestPattern next.request = true)
      (fresh : next.phase = none ∧ next.progress = .submitting ∧ next.seen = false)
      (stored : ∃ previewRequest,
        effects = [runningRecord next .submitting, .emitApply next.request previewRequest next.toVersion password])
  | booted (record : PanelUpdateRecord) (now : Int) (build : Option String)
      (asked : event = .boot (some record) now build) (unfinished : record.stage ≠ .finished)
      (same : next.request = record.request ∧ next.fromVersion = record.fromVersion ∧
        next.toVersion = record.toVersion ∧ next.phase = record.phase ∧ next.startedAt = record.startedAt ∧
        next.seen = decide (record.stage = .running))
      (progress : next.progress ≠ .cancelling) (silent : effects = [])

section
variable {dateParse : String → Option Int} {state : PanelUpdateState} {status : PanelUpdateStatus}
  {probe : Bool} {next : PanelUpdateRunningNode} {now : Int}

/-- A phase stands for no cancelling. -/
theorem progressOfPhase_ne_cancelling (phase : Option String) : progressOfPhase phase ≠ .cancelling := by
  unfold progressOfPhase
  split
  · simp
  · split_ifs <;> simp

/-- How a status the page takes leaves an operation running. -/
inductive StatusRunning (before : PanelUpdateNode) (status : PanelUpdateStatus) (next : PanelUpdateRunningNode)
    (effects : List PanelUpdateEffect) : Prop
  | kept (held : before = .running next) (untold : ∀ op, ¬ status.Tells next.request op) (silent : effects = [])
  | advanced (node : PanelUpdateRunningNode) (held : before = .running node) (op : PanelUpdateOperation)
      (told : status.Tells node.request op) (followed : Advanced op node next effects)
  | observed (op : PanelUpdateOperation) (told : status.Tells next.request op)
      (other : ∀ node, before = .running node → node.request ≠ next.request) (shown : Observed op next)
      (stored : effects = [runningRecord next .running] ∨ effects = [.clearPersist, runningRecord next .running])

theorem observe_running {before : PanelUpdateNode} {op : PanelUpdateOperation} (listed : status.operation = some op)
    (apply : op.kind = .apply) (other : ∀ node, before = .running node → node.request ≠ op.requestId)
    (left : (observe dateParse state op now).state.node = .running next) :
    StatusRunning before status next (observe dateParse state op now).effects := by
  cases left
  exact .observed op ⟨listed, apply, rfl⟩ other ⟨rfl, rfl, rfl, rfl⟩ (.inl rfl)

theorem enterIdle_running {before : PanelUpdateNode} {notice : Option PanelUpdateIdleNotice}
    (known : state.ctx.status = some status)
    (other : ∀ node op, before = .running node → status.operation = some op → op.kind = .apply →
      node.request ≠ op.requestId)
    (left : (enterIdle dateParse state now notice).state.node = .running next) :
    StatusRunning before status next (enterIdle dateParse state now notice).effects ∧
      (enterIdle dateParse state now notice).effects = [runningRecord next .running] := by
  unfold enterIdle at left ⊢
  cases found : applyOperation state.ctx with
  | none => simp [found] at left
  | some op =>
      obtain ⟨listedStatus, same, listed, apply, _⟩ := applyOperation_some found
      rw [known] at same
      cases same
      simp only [found, known] at left ⊢
      split at left
      · rename_i running
        rw [if_pos running]
        exact ⟨observe_running listed apply (fun node held => other node op held listed apply) left, by
          cases left
          rfl⟩
      · split at left <;> cases left

theorem advance_running {node : PanelUpdateRunningNode} {op : PanelUpdateOperation}
    (left : (advance state node op now).state.node = .running next) :
    Advanced op node next (advance state node op now).effects := by
  unfold advance at left ⊢
  dsimp only at left ⊢
  split at left
  · rename_i forward
    cases left
    rw [if_pos forward]
    refine ⟨⟨rfl, rfl, rfl, rfl⟩, rfl, .inr ⟨rfl, ?_⟩, ?_, ?_⟩
    · rcases forward with further | ⟨equal, _⟩
      · omega
      · omega
    · intro cancelling
      unfold nextProgress at cancelling
      dsimp only at cancelling
      split at cancelling
      · exact absurd cancelling (progressOfPhase_ne_cancelling _)
      · rename_i before
        split at cancelling
        · rename_i early
          exact ⟨by simpa using before, .inr early⟩
        · exact absurd cancelling (progressOfPhase_ne_cancelling _)
    · dsimp only [withNode]
      split
      · exact .inl rfl
      · rename_i stays
        simp only [not_or, Decidable.not_not, Bool.not_eq_false] at stays
        exact .inr ⟨rfl, stays.2, stays.1⟩
  · rename_i stays
    cases left
    rw [if_neg stays]
    refine ⟨⟨rfl, rfl, rfl, rfl⟩, rfl, .inl ⟨rfl, ?_⟩, ?_, ?_⟩
    · omega
    · intro cancelling
      dsimp only at cancelling
      split at cancelling
      · exact absurd cancelling (progressOfPhase_ne_cancelling _)
      · exact ⟨cancelling, .inl rfl⟩
    · dsimp only [withNode]
      split
      · rename_i seen
        exact .inr ⟨rfl, seen, rfl⟩
      · exact .inl rfl

theorem notStarted_running {node : PanelUpdateRunningNode} (known : state.ctx.status = some status)
    (untold : ∀ op, ¬ status.Tells node.request op)
    (left : (notStarted dateParse state node now).state.node = .running next) :
    StatusRunning (.running node) status next (notStarted dateParse state node now).effects := by
  have other : ∀ held op, PanelUpdateNode.running node = .running held → status.operation = some op →
      op.kind = .apply → held.request ≠ op.requestId := by
    intro held op same listed apply equal
    cases same
    exact untold op ⟨listed, apply, equal.symm⟩
  have following : (enterIdle dateParse state now (some .notStarted)).state.node = .running next →
      StatusRunning (.running node) status next
        (.clearPersist :: (enterIdle dateParse state now (some .notStarted)).effects) := by
    intro left
    obtain ⟨running, effects⟩ := enterIdle_running known other left
    rw [effects] at running ⊢
    cases running with
    | kept held foreign silent => cases silent
    | advanced held same op told => cases same; exact absurd told (untold op)
    | observed op told different shown => exact .observed op told different shown (.inr rfl)
  unfold notStarted at left ⊢
  dsimp only at left ⊢
  split at left
  · split at left
    · simp at left
    · rename_i stays
      rw [if_neg stays]
      exact following left
  · exact following left

theorem runningStatus_running {node : PanelUpdateRunningNode} (known : state.ctx.status = some status)
    (held : state.node = .running node)
    (left : (runningStatus dateParse state node status now probe).state.node = .running next) :
    StatusRunning (.running node) status next (runningStatus dateParse state node status now probe).effects := by
  have unheard : (∀ op, ¬ status.Tells node.request op) →
      (runningStatus.unheard dateParse state node now probe).state.node = .running next →
      StatusRunning (.running node) status next (runningStatus.unheard dateParse state node now probe).effects := by
    intro untold left
    unfold runningStatus.unheard at left ⊢
    split at left
    · rename_i pushed
      rw [if_pos pushed]
      have same : PanelUpdateNode.running node = .running next := held.symm.trans left
      cases same
      exact .kept rfl untold rfl
    · rename_i asked
      rw [if_neg asked]
      split at left
      · rename_i unseen
        rw [if_pos unseen]
        exact notStarted_running known untold left
      · rename_i seen
        rw [if_neg seen]
        split at left
        · rename_i other found
          obtain ⟨shown, _, different⟩ := otherRunning_some found
          obtain ⟨listedStatus, same, listed, apply, _⟩ := applyOperation_some shown
          rw [known] at same
          cases same
          refine observe_running listed apply ?_ left
          rintro _ ⟨⟩
          exact Ne.symm different
        · simp at left
  unfold runningStatus at left ⊢
  split at left
  · rename_i op listed
    split at left
    · rename_i ours
      rw [if_pos ours]
      split at left
      · rename_i running
        rw [if_pos running]
        exact .advanced node rfl op ⟨listed, ours.1, ours.2⟩ (advance_running left)
      · exfalso
        unfold finishRunning at left
        dsimp only at left
        split at left <;> simp at left
    · rename_i foreign
      rw [if_neg foreign]
      refine unheard ?_ left
      intro other told
      obtain ⟨same, apply, ours⟩ := told
      rw [listed] at same
      cases same
      exact foreign ⟨apply, ours⟩
  · rename_i absent
    refine unheard ?_ left
    intro op told
    have listed := told.1
    rw [absent] at listed
    cases listed

theorem previewStatus_running {node : PanelUpdatePreviewNode} (known : state.ctx.status = some status)
    (held : state.node = .preview node)
    (left : (previewStatus dateParse state node now probe).state.node = .running next) :
    StatusRunning (.preview node) status next (previewStatus dateParse state node now probe).effects := by
  unfold previewStatus at left ⊢
  split at left
  · rename_i op listed
    rw [known] at listed
    split at left
    · rename_i running
      rw [if_pos running]
      exact observe_running listed running.1 (by simp) left
    · exfalso
      split at left
      · simp [held] at left
      · split at left
        · split at left
          · simp at left
          · unfold previewFinished previewFinished.refusedResult refused at left
            split at left
            · split at left <;> simp at left
            · simp at left
        · unfold previewStatus.gone refused at left
          split at left <;> simp [held] at left
  · exfalso
    split at left
    · simp [held] at left
    · unfold previewStatus.gone refused at left
      split at left <;> simp [held] at left

theorem outcomeStatus_running {node : PanelUpdateOutcomeNode} (known : state.ctx.status = some status)
    (held : state.node = .outcome node)
    (left : (outcomeStatus dateParse state node status probe now).state.node = .running next) :
    StatusRunning (.outcome node) status next (outcomeStatus dateParse state node status probe now).effects := by
  unfold outcomeStatus at left ⊢
  split at left
  · rename_i other found
    have shown : otherRunning state.ctx node.request = some other := by
      split at found
      · cases found
      · exact found
    obtain ⟨listed, _, _⟩ := otherRunning_some shown
    obtain ⟨listedStatus, same, listed, apply, _⟩ := applyOperation_some listed
    rw [known] at same
    cases same
    exact observe_running listed apply (by simp) left
  · exfalso
    split at left
    · simp [held] at left
    · unfold confirmOutcome confirmOutcome.dismissed contradiction at left
      split at left
      · split at left
        · split at left
          · simp at left
          · dsimp only at left
            split at left <;> simp at left
        · split at left
          · simp [held] at left
          · split at left <;> simp at left
      · split at left
        · simp [held] at left
        · split at left <;> simp at left

/-- Every way a status the page takes leaves an operation running. -/
theorem onStatus_running {solicited : Bool} {askId : Option Nat}
    (left : (onStatus dateParse state status solicited askId now).state.node = .running next) :
    StatusRunning state.node status next (onStatus dateParse state status solicited askId now).effects := by
  unfold onStatus at left ⊢
  cases held : state.node with
  | idle node =>
      simp only [held] at left ⊢
      exact (enterIdle_running (takeStatus_status ..) (by simp) left).1
  | preview node =>
      simp only [held] at left ⊢
      exact previewStatus_running (takeStatus_status ..) ((takeStatus_node ..).trans held) left
  | running node =>
      simp only [held] at left ⊢
      exact runningStatus_running (takeStatus_status ..) ((takeStatus_node ..).trans held) left
  | outcome node =>
      simp only [held] at left ⊢
      exact outcomeStatus_running (takeStatus_status ..) ((takeStatus_node ..).trans held) left

/-- The state a status is applied to: the one before the event, its acknowledgement taken. -/
def Alike : PanelUpdateNode → PanelUpdateNode → Prop
  | .running node, .running other => other = { node with ackPending := other.ackPending }
  | .running _, _ => False
  | _, .running _ => False
  | _, _ => True

theorem Alike.refl (node : PanelUpdateNode) : Alike node node := by
  cases node <;> simp [Alike]

theorem Alike.running {before : PanelUpdateNode} {node : PanelUpdateRunningNode} (alike : Alike before (.running node)) :
    ∃ held, before = .running held ∧ node = { held with ackPending := node.ackPending } := by
  cases before with
  | running held => exact ⟨held, rfl, alike⟩
  | idle held => exact alike.elim
  | preview held => exact alike.elim
  | outcome held => exact alike.elim

theorem Alike.of_running {after : PanelUpdateNode} {held : PanelUpdateRunningNode} (alike : Alike (.running held) after) :
    ∃ node, after = .running node ∧ node = { held with ackPending := node.ackPending } := by
  cases after with
  | running node => exact ⟨node, rfl, alike⟩
  | idle node => exact alike.elim
  | preview node => exact alike.elim
  | outcome node => exact alike.elim

/-- An event whose status the page takes leaves an operation running as that status does. -/
theorem StatusRunning.step {event : PanelUpdateEvent} {before : PanelUpdateNode} {effects : List PanelUpdateEffect}
    (taken : StatusRunning before status next effects) (takes : event.takes state = some status)
    (alike : Alike state.node before) : RunningStep state event next effects := by
  cases taken with
  | kept held untold silent =>
      rw [held] at alike
      obtain ⟨node, running, same⟩ := alike.running
      refine .kept node running ⟨⟨?_, ?_, ?_, ?_⟩, ?_, ?_⟩ (.inl ?_) (by simp [silent, Asks]) ?_
      all_goals try rw [same]
      intro other op told tells
      rw [takes] at told
      cases told
      rw [same] at untold
      exact untold op tells
  | advanced node held op told followed =>
      rw [held] at alike
      obtain ⟨first, running, same⟩ := alike.running
      rw [same] at told followed
      exact .advanced first running status takes op told
        ⟨⟨followed.same.request, followed.same.fromVersion, followed.same.toVersion, followed.same.startedAt⟩,
          followed.seen, followed.phase, followed.progress, followed.stored⟩
  | observed op told other shown stored =>
      refine .observed status takes op told ?_ shown stored
      intro node held
      rw [held] at alike
      obtain ⟨second, running, same⟩ := alike.of_running
      have differs := other second running
      rw [same] at differs
      exact differs

/-- An event that carries no status leaves the operation running as it was. -/
theorem running_kept {event : PanelUpdateEvent} {node : PanelUpdateRunningNode} {effects : List PanelUpdateEffect}
    (held : state.node = .running node) (same : Unmoved node next)
    (progress : next.progress = node.progress ∨ next.progress = progressOfPhase node.phase)
    (asks : Asks effects) (untold : event.takes state = none) : RunningStep state event next effects := by
  refine .kept node held same progress asks ?_
  intro status op told
  rw [untold] at told
  cases told

theorem Unmoved.refl (node : PanelUpdateRunningNode) : Unmoved node node := ⟨⟨rfl, rfl, rfl, rfl⟩, rfl, rfl⟩

theorem stay_running {event : PanelUpdateEvent} (held : state.node = .running next) (untold : event.takes state = none) :
    RunningStep state event next [] :=
  running_kept held (Unmoved.refl next) (.inl rfl) (by simp [Asks]) untold

theorem ask_asks (state : PanelUpdateState) (probe : Bool) : Asks (ask state probe).effects := by
  unfold ask Asks
  split <;> simp

/-- The status of an answer the page can read, where it still waits for it. -/
theorem takes_answer {kind : PanelUpdateRequestKind} {requestId : String} {given : PanelUpdateAckResult}
    (answer : readableResult (.request kind requestId) given = .ok status)
    (waits : PanelUpdateEvent.takes.waitsFor state kind requestId = true) :
    (PanelUpdateEvent.ack (.request kind requestId) given now).takes state = some status := by
  obtain ⟨rfl, readable⟩ := readableResult_ok answer
  simp [PanelUpdateEvent.takes, PanelUpdateEvent.takes.readable, waits, readable]

/-- Nothing is taken from an answer that holds no status the page can read. -/
theorem takes_no_answer {ack : PanelUpdateAck} {given : PanelUpdateAckResult}
    (answer : ∀ status, readableResult ack given ≠ .ok status) :
    (PanelUpdateEvent.ack ack given now).takes state = none := by
  cases given with
  | ok status =>
      cases readable : panelUpdateStatusUnreadable status with
      | true => cases ack <;> simp [PanelUpdateEvent.takes, PanelUpdateEvent.takes.readable, readable]
      | false => exact absurd (by simp [readableResult, readable]) (answer status)
  | error code msg => cases ack <;> rfl
  | lost => cases ack <;> rfl

theorem takes_unawaited {kind : PanelUpdateRequestKind} {requestId : String} {given : PanelUpdateAckResult}
    (waits : PanelUpdateEvent.takes.waitsFor state kind requestId = false) :
    (PanelUpdateEvent.ack (.request kind requestId) given now).takes state = none := by
  cases given <;> simp [PanelUpdateEvent.takes, waits]

theorem boot_running {persisted : Option PanelUpdateRecord} {build : Option String}
    (left : (boot state persisted now build).state.node = .running next) :
    RunningStep state (.boot persisted now build) next (boot state persisted now build).effects := by
  unfold boot at left ⊢
  cases persisted with
  | none => simp at left
  | some record =>
      by_cases finished : record.stage = .finished
      · by_cases success : record.outcome = some "success" <;> simp [finished, success] at left
      · simp only [finished, if_false, stay_state] at left ⊢
        cases left
        refine .booted record now build rfl finished ⟨rfl, rfl, rfl, rfl, rfl, rfl⟩ ?_ rfl
        dsimp only
        split
        · simp
        · exact progressOfPhase_ne_cancelling _

theorem linkUp_running (left : (linkUp state now).state.node = .running next) :
    RunningStep state (.linkUp now) next (linkUp state now).effects := by
  unfold linkUp at left ⊢
  cases held : state.node with
  | idle node =>
      simp only [held, ask_node] at left
      split at left
      · simp at left
      · simp at left
  | preview node =>
      simp only [held] at left
      split at left <;> simp at left
  | running node =>
      simp only [held, ask_node] at left ⊢
      cases left
      exact running_kept held ⟨⟨rfl, rfl, rfl, rfl⟩, rfl, rfl⟩ (.inl rfl) (ask_asks _ _) rfl
  | outcome node =>
      simp only [held] at left
      split at left <;> simp at left

theorem tick_running (left : (tick state now).state.node = .running next) :
    RunningStep state (.tick now) next (tick state now).effects := by
  unfold tick at left ⊢
  cases held : state.node with
  | idle node =>
      simp only [held] at left
      split at left <;> simp [held] at left
  | preview node =>
      simp only [held, tickPreview] at left
      split at left
      · simp [held] at left
      · split at left
        · simp [held] at left
        · split at left <;> simp at left
  | running node =>
      simp only [held, tickRunning] at left ⊢
      split at left
      · split at left
        · rename_i overdue
          rw [if_pos overdue]
          cases left
          exact stay_running held rfl
        · rename_i waiting
          rw [if_neg waiting]
          exact stay_running left rfl
      · split at left
        · rename_i quiet
          rw [if_pos quiet]
          rw [ask_node] at left
          cases left
          exact running_kept held ⟨⟨rfl, rfl, rfl, rfl⟩, rfl, rfl⟩ (.inl rfl) (ask_asks _ _) rfl
        · rename_i waiting
          rw [if_neg waiting]
          exact stay_running left rfl
      · exact stay_running left rfl
  | outcome node =>
      simp only [held] at left
      split at left
      · simp at left
      · split at left
        · simp at left
        · simp [held] at left

theorem statusAck_running {askId : Nat} {given : PanelUpdateAckResult}
    (left : (onAck dateParse state (.status askId) given now).state.node = .running next) :
    RunningStep state (.ack (.status askId) given now) next
      (onAck dateParse state (.status askId) given now).effects := by
  have unanswered : ∀ reason, (∀ status, readableResult (.status askId) given ≠ .ok status) →
      (statusAck.unanswered state askId reason).state.node = .running next →
      RunningStep state (.ack (.status askId) given now) next
        (statusAck.unanswered state askId reason).effects := by
    intro reason answer left
    have same : (if some askId = state.ctx.probe then
        { state with ctx := { state.ctx with probe := none } } else state).node = state.node := by
      split <;> rfl
    unfold statusAck.unanswered at left ⊢
    dsimp only at left ⊢
    generalize (if some askId = state.ctx.probe then
        { state with ctx := { state.ctx with probe := none } } else state) = heard at left same ⊢
    cases held : heard.node with
    | idle node =>
        simp only [held] at left
        split at left
        · simp at left
        · simp [held] at left
    | preview node => simp [held] at left
    | running node =>
        simp only [held, stay_state] at left ⊢
        exact stay_running (same.symm.trans (held.trans left)) (takes_no_answer answer)
    | outcome node => simp [held] at left
  unfold onAck at left ⊢
  dsimp only at left ⊢
  generalize answer : readableResult (.status askId) given = result at left ⊢
  cases result with
  | ok status =>
      obtain ⟨rfl, readable⟩ := readableResult_ok answer
      have takes : (PanelUpdateEvent.ack (.status askId) (.ok status) now).takes state = some status := by
        simp [PanelUpdateEvent.takes, PanelUpdateEvent.takes.readable, readable]
      exact (onStatus_running left).step takes (Alike.refl _)
  | error code msg => exact unanswered _ (by simp [answer]) left
  | lost => exact unanswered _ (by simp [answer]) left

theorem dismissAck_unanswered {requestId : String} {result : PanelUpdateAckResult}
    (unanswered : ∀ status, result ≠ .ok status)
    (left : (dismissAck dateParse state requestId result now).state.node = .running next) :
    state.node = .running next ∧ (dismissAck dateParse state requestId result now).effects = [] := by
  unfold dismissAck at left ⊢
  split at left
  · rename_i stale
    rw [if_pos stale]
    exact ⟨left, rfl⟩
  · rename_i closed
    rw [if_neg closed]
    cases result with
    | ok status => exact absurd rfl (unanswered status)
    | error code msg | lost =>
        dsimp only at left ⊢
        cases held : state.node with
        | idle node =>
            exfalso
            simp only [held] at left
            split at left
            · simp at left
            · simp at left
        | preview node => simp [held] at left
        | running node =>
            simp only [held, stay_state] at left ⊢
            exact ⟨left, rfl⟩
        | outcome node => simp [held] at left

theorem dismissAck_running {requestId : String} {given : PanelUpdateAckResult}
    (left : (onAck dateParse state (.request .dismiss requestId) given now).state.node = .running next) :
    RunningStep state (.ack (.request .dismiss requestId) given now) next
      (onAck dateParse state (.request .dismiss requestId) given now).effects := by
  unfold onAck at left ⊢
  dsimp only at left ⊢
  generalize answer : readableResult (.request .dismiss requestId) given = result at left ⊢
  cases result with
  | ok status =>
      unfold dismissAck at left ⊢
      split at left
      · rename_i stale
        rw [if_pos stale]
        exact stay_running left (takes_unawaited (by simpa [PanelUpdateEvent.takes.waitsFor] using stale))
      · rename_i closed
        rw [if_neg closed]
        simp only [ne_eq, Decidable.not_not] at closed
        have waits : PanelUpdateEvent.takes.waitsFor state .dismiss requestId = true := by
          simp [PanelUpdateEvent.takes.waitsFor, closed]
        exact (onStatus_running left).step (takes_answer answer waits) (Alike.refl _)
  | error code msg | lost =>
      obtain ⟨held, silent⟩ := dismissAck_unanswered (by simp) left
      rw [silent]
      exact stay_running held (takes_no_answer (by simp [answer]))

theorem previewAck_running {requestId : String} {given : PanelUpdateAckResult}
    (left : (onAck dateParse state (.request .preview requestId) given now).state.node = .running next) :
    RunningStep state (.ack (.request .preview requestId) given now) next
      (onAck dateParse state (.request .preview requestId) given now).effects := by
  unfold onAck at left ⊢
  dsimp only at left ⊢
  generalize answer : readableResult (.request .preview requestId) given = result at left ⊢
  cases held : state.node with
  | preview node =>
      simp only [held, previewAck] at left ⊢
      split at left
      · simp [held] at left
      · rename_i current
        rw [if_neg current]
        cases result with
        | ok status =>
            have waits : PanelUpdateEvent.takes.waitsFor state .preview requestId = true := by
              simp only [ne_eq, not_or, Decidable.not_not] at current
              simp [PanelUpdateEvent.takes.waitsFor, held, current]
            exact (onStatus_running left).step (takes_answer answer waits) (by simp [held, Alike])
        | error code msg =>
            dsimp only at left
            split at left <;> simp [refused] at left
        | lost => simp at left
  | idle node => simp [held] at left
  | running node =>
      simp only [held, stay_state] at left
      exact stay_running (held.trans left) (takes_unawaited (by simp [PanelUpdateEvent.takes.waitsFor, held]))
  | outcome node => simp [held] at left

theorem applyAck_running {requestId : String} {given : PanelUpdateAckResult}
    (left : (onAck dateParse state (.request .apply requestId) given now).state.node = .running next) :
    RunningStep state (.ack (.request .apply requestId) given now) next
      (onAck dateParse state (.request .apply requestId) given now).effects := by
  unfold onAck at left ⊢
  dsimp only at left ⊢
  generalize answer : readableResult (.request .apply requestId) given = result at left ⊢
  cases held : state.node with
  | running node =>
      simp only [held] at left ⊢
      split at left
      · rename_i foreign
        rw [if_pos foreign]
        exact stay_running left (takes_unawaited (by simpa [PanelUpdateEvent.takes.waitsFor, held] using foreign))
      · rename_i ours
        rw [if_neg ours]
        unfold applyAck at left ⊢
        cases result with
        | ok status =>
            have waits : PanelUpdateEvent.takes.waitsFor state .apply requestId = true := by
              simpa [PanelUpdateEvent.takes.waitsFor, held] using ours
            exact (onStatus_running left).step (takes_answer answer waits) (by simp [held, Alike])
        | error code msg =>
            have silent : (PanelUpdateEvent.ack (.request .apply requestId) given now).takes state = none :=
              takes_no_answer (by simp [answer])
            dsimp only at left ⊢
            split at left
            · obtain ⟨preview, refused⟩ := applyRefused_eq state node code msg now
              simp [refused] at left
            · rename_i started
              rw [if_neg started]
              cases left
              exact running_kept held ⟨⟨rfl, rfl, rfl, rfl⟩, rfl, rfl⟩ (.inl rfl) (by simp [Asks]) silent
        | lost =>
            cases left
            exact running_kept held ⟨⟨rfl, rfl, rfl, rfl⟩, rfl, rfl⟩ (.inl rfl) (by simp [Asks])
              (takes_no_answer (by simp [answer]))
  | idle node => simp [held] at left
  | preview node => simp [held] at left
  | outcome node => simp [held] at left

theorem cancelAck_running {requestId : String} {given : PanelUpdateAckResult}
    (left : (onAck dateParse state (.request .cancel requestId) given now).state.node = .running next) :
    RunningStep state (.ack (.request .cancel requestId) given now) next
      (onAck dateParse state (.request .cancel requestId) given now).effects := by
  unfold onAck at left ⊢
  dsimp only at left ⊢
  generalize answer : readableResult (.request .cancel requestId) given = result at left ⊢
  cases held : state.node with
  | running node =>
      simp only [held] at left ⊢
      split at left
      · rename_i foreign
        rw [if_pos foreign]
        exact stay_running left (takes_unawaited (by simpa [PanelUpdateEvent.takes.waitsFor, held] using foreign))
      · rename_i ours
        rw [if_neg ours]
        unfold cancelAck at left ⊢
        cases result with
        | ok status =>
            have waits : PanelUpdateEvent.takes.waitsFor state .cancel requestId = true := by
              simpa [PanelUpdateEvent.takes.waitsFor, held] using ours
            exact (onStatus_running left).step (takes_answer answer waits) (Alike.refl _)
        | lost => exact stay_running left (takes_no_answer (by simp [answer]))
        | error code msg =>
            have silent : (PanelUpdateEvent.ack (.request .cancel requestId) given now).takes state = none :=
              takes_no_answer (by simp [answer])
            dsimp only at left ⊢
            split at left
            · rename_i moved
              rw [if_pos moved]
              exact stay_running left silent
            · rename_i cancelling
              rw [if_neg cancelling]
              cases left
              exact running_kept held ⟨⟨rfl, rfl, rfl, rfl⟩, rfl, rfl⟩ (.inr rfl) (by simp [Asks]) silent
  | idle node => simp [held] at left
  | preview node => simp [held] at left
  | outcome node => simp [held] at left

/-- Every way an event leaves an operation running, over all events. -/
theorem reducePanelUpdate_running {event : PanelUpdateEvent}
    (left : (reducePanelUpdate dateParse state event).state.node = .running next) :
    RunningStep state event next (reducePanelUpdate dateParse state event).effects := by
  cases event with
  | boot persisted now build => exact boot_running left
  | info latestVersion updateAvailable =>
      simp only [reducePanelUpdate, info] at left ⊢
      cases held : state.node with
      | idle node =>
          simp only [held] at left
          split at left
          · simp at left
          · simp at left
      | preview node => simp [held] at left
      | running node =>
          simp only [held, stay_state] at left
          exact stay_running (held.trans left) rfl
      | outcome node => simp [held] at left
  | status status solicited askId now =>
      simp only [reducePanelUpdate] at left ⊢
      split at left
      · rename_i unreadable
        rw [if_pos unreadable]
        exact stay_running left (by simp [PanelUpdateEvent.takes, PanelUpdateEvent.takes.readable, unreadable])
      · rename_i readable
        rw [if_neg readable]
        exact (onStatus_running left).step
          (by simp [PanelUpdateEvent.takes, PanelUpdateEvent.takes.readable, readable]) (Alike.refl _)
  | linkUp now => exact linkUp_running left
  | linkDown now =>
      simp only [reducePanelUpdate, linkDown] at left ⊢
      split at left <;> exact stay_running left rfl
  | authLost => exact stay_running left rfl
  | ack ack given now =>
      cases ack with
      | status askId => exact statusAck_running left
      | request kind requestId =>
          cases kind with
          | preview => exact previewAck_running left
          | apply => exact applyAck_running left
          | cancel => exact cancelAck_running left
          | dismiss => exact dismissAck_running left
  | tick now => exact tick_running left
  | check owner requestId =>
      simp only [reducePanelUpdate, check] at left ⊢
      cases held : state.node with
      | running node =>
          simp only [held, stay_state] at left
          exact stay_running (held.trans left) rfl
      | idle node =>
          exfalso
          simp only [held] at left
          split at left
          · split at left
            · split at left
              · simp at left
              · simp [held] at left
            · simp [held] at left
          · simp [held] at left
      | preview node => simp [held] at left
      | outcome node => simp [held] at left
  | confirm owner =>
      simp only [reducePanelUpdate, confirm] at left ⊢
      cases held : state.node with
      | running node =>
          simp only [held, stay_state] at left
          exact stay_running (held.trans left) rfl
      | idle node => simp [held] at left
      | preview node =>
          exfalso
          simp only [held] at left
          split at left <;> simp [held] at left
      | outcome node => simp [held] at left
  | submit owner password requestId now =>
      simp only [reducePanelUpdate, submit] at left ⊢
      cases held : state.node with
      | running node =>
          simp only [held, stay_state] at left
          exact stay_running (held.trans left) rfl
      | idle node => simp [held] at left
      | preview node =>
          simp only [held] at left ⊢
          split at left
          · simp [held] at left
          · rename_i asked
            rw [if_neg asked]
            split at left
            · simp [held] at left
            · rename_i given
              rw [if_neg given]
              simp only [not_or, Bool.not_eq_false] at asked given
              cases expiry : node.expires with
              | none => simp [expiry, held] at left
              | some expires =>
                  simp only [expiry] at left ⊢
                  split at left
                  · simp [held] at left
                  · rename_i current
                    rw [if_neg current]
                    cases left
                    exact .submitted password now (by rw [asked.1]) (by simp [held]) given.2 ⟨rfl, rfl, rfl⟩
                      ⟨node.request, rfl⟩
      | outcome node => simp [held] at left
  | cancel owner =>
      simp only [reducePanelUpdate, cancel] at left ⊢
      cases held : state.node with
      | running node =>
          simp only [held] at left ⊢
          split at left
          · rename_i refused
            rw [if_pos refused]
            exact stay_running left rfl
          · rename_i offered
            rw [if_neg offered]
            simp only [not_or, Bool.not_eq_false] at offered
            cases left
            exact .cancelled node held (by rw [offered.1]) offered.2 ⟨⟨rfl, rfl, rfl, rfl⟩, rfl, rfl⟩ rfl
      | idle node => simp [held] at left
      | preview node => simp [held] at left
      | outcome node => simp [held] at left
  | dismiss owner now =>
      simp only [reducePanelUpdate, dismiss] at left ⊢
      cases held : state.node with
      | running node =>
          simp only [held, stay_state] at left
          exact stay_running (held.trans left) rfl
      | idle node => simp [held] at left
      | preview node => simp [held] at left
      | outcome node =>
          exfalso
          simp only [held] at left
          split at left
          · simp [held] at left
          · split at left <;> simp at left
  | close =>
      simp only [reducePanelUpdate, close] at left ⊢
      cases held : state.node with
      | running node =>
          simp only [held, stay_state] at left
          exact stay_running (held.trans left) rfl
      | idle node => simp [held] at left
      | preview node =>
          exfalso
          simp only [held] at left
          split at left <;> simp at left
      | outcome node =>
          exfalso
          simp only [held] at left
          split at left
          · simp [held] at left
          · simp at left

end

end Dockge.PanelUpdate
