import Dockge.PanelUpdate.Machine.Outcome

namespace Dockge.PanelUpdate

open Dockge.Data

/-! A running operation is followed until its result, or left with its record cleared. -/

/-- No status of the request arrived exactly while the request is being submitted. -/
def PanelUpdateRunningNode.Started (node : PanelUpdateRunningNode) : Prop :=
  node.seen = false ↔ node.progress = .submitting

/-- What becomes of a running request in one step that heard these statuses. -/
inductive Followed (Heard : PanelUpdateStatus → Prop) (request : String) (seen : Bool)
    (step : PanelUpdateStep) : Prop
  | running (next : PanelUpdateRunningNode) (left : step.state.node = .running next)
      (same : next.request = request) (started : next.Started)
  | outcome (next : PanelUpdateOutcomeNode) (left : step.state.node = .outcome next)
      (same : next.request = request)
  | observing (next : PanelUpdateRunningNode) (left : step.state.node = .running next)
      (other : next.request ≠ request) (started : next.Started) (observer : next.observer = true)
      (status : PanelUpdateStatus) (heard : Heard status)
      (op : PanelUpdateOperation) (listed : status.operation = some op) (apply : op.kind = .apply)
      (running : op.running = true) (shown : op.requestId = next.request)
  | abandoned (unseen : seen = false) (cleared : .clearPersist ∈ step.effects)
      (left : (∃ next, step.state.node = .idle next) ∨ (∃ next, step.state.node = .preview next) ∨
        ∃ next, step.state.node = .outcome next ∧ next.request ≠ request)

/-- A boot, if the event is one, finds the record of this request: unfinished, or a success. -/
def PanelUpdateEvent.Rejoins (event : PanelUpdateEvent) (request : String) : Prop :=
  ∀ persisted now build, event = .boot persisted now build →
    ∃ record, persisted = some record ∧ record.request = request ∧
      (record.stage = .finished → record.outcome = some "success")

/-- Every running node of the state is started exactly when it was seen. -/
def RunningStarted (state : PanelUpdateState) : Prop :=
  ∀ node, state.node = .running node → node.Started

section
variable {dateParse : String → Option Int} {state : PanelUpdateState} {status : PanelUpdateStatus}
  {node : PanelUpdateRunningNode} {probe : Bool} {now : Int} {request : String} {seen : Bool}
  {taken : PanelUpdateStep} {Heard : PanelUpdateStatus → Prop}

theorem Followed.started (followed : Followed Heard request seen taken) : RunningStarted taken.state := by
  intro next held
  cases followed with
  | running found left same started => cases held.symm.trans left; exact started
  | outcome found left => cases held.symm.trans left
  | observing found left other started => cases held.symm.trans left; exact started
  | abandoned unseen cleared left =>
      rcases left with ⟨_, left⟩ | ⟨_, left⟩ | ⟨_, left, _⟩ <;> cases held.symm.trans left

theorem Followed.kept (left : taken.state.node = .running node) (started : node.Started) :
    Followed Heard node.request seen taken :=
  .running node left rfl started

/-- A node that was seen, and whose step is not the submission, is started. -/
theorem started_of_seen {next : PanelUpdateRunningNode} (seen : next.seen = true)
    (moved : next.progress ≠ .submitting) : next.Started := by
  simp [PanelUpdateRunningNode.Started, seen, moved]

theorem observe_runningStarted (state : PanelUpdateState) (op : PanelUpdateOperation) :
    RunningStarted (observe dateParse state op now).state := by
  intro next held
  cases held
  exact started_of_seen rfl (progressOfPhase_ne_submitting _)

theorem observe_followed {op : PanelUpdateOperation} (heard : Heard status)
    (listed : status.operation = some op) (apply : op.kind = .apply) (running : op.running = true)
    (other : op.requestId ≠ request) :
    Followed Heard request seen (observe dateParse state op now) :=
  .observing _ rfl other (observe_runningStarted state op _ rfl) rfl status heard op listed
    apply running rfl

/-- Leaving for `Idle` in the step that clears the record of a request the status does not show. -/
theorem enterIdle_followed {notice : Option PanelUpdateIdleNotice} (heard : Heard status)
    (known : state.ctx.status = some status)
    (foreign : ∀ op, status.operation = some op → op.kind = .apply → op.requestId ≠ request) :
    Followed Heard request false
      ⟨(enterIdle dateParse state now notice).state,
        .clearPersist :: (enterIdle dateParse state now notice).effects⟩ := by
  unfold enterIdle
  cases found : applyOperation state.ctx with
  | none => exact .abandoned rfl (by simp) (.inl ⟨_, rfl⟩)
  | some op =>
      obtain ⟨listedStatus, same, listed, apply, _⟩ := applyOperation_some found
      rw [known] at same
      cases same
      have other := foreign op listed apply
      simp only [known]
      split
      · rename_i running
        exact .observing _ rfl other (observe_runningStarted state op _ rfl) rfl status heard
          op listed apply running rfl
      · split
        · exact .abandoned rfl (by simp) (.inr (.inr ⟨_, rfl, other⟩))
        · exact .abandoned rfl (by simp) (.inr (.inr ⟨_, rfl, other⟩))

theorem notStarted_followed (heard : Heard status) (known : state.ctx.status = some status)
    (foreign : ∀ op, status.operation = some op → op.kind = .apply → op.requestId ≠ node.request) :
    Followed Heard node.request false (notStarted dateParse state node now) := by
  unfold notStarted
  split
  · split
    · exact .abandoned rfl (by simp) (.inr (.inl ⟨_, rfl⟩))
    · exact enterIdle_followed heard known foreign
  · exact enterIdle_followed heard known foreign

theorem nextProgress_ne_submitting (phase : Option String) :
    (nextProgress node phase).1 ≠ .submitting := by
  unfold nextProgress
  split
  · exact progressOfPhase_ne_submitting phase
  · split
    · simp
    · exact progressOfPhase_ne_submitting phase

theorem advance_followed (op : PanelUpdateOperation) :
    Followed Heard node.request seen (advance state node op now) := by
  unfold advance
  dsimp only
  split
  · exact .running _ rfl rfl (started_of_seen rfl (nextProgress_ne_submitting _))
  · refine .running _ rfl rfl (started_of_seen rfl ?_)
    dsimp only
    split
    · exact progressOfPhase_ne_submitting _
    · assumption

theorem finishRunning_followed (op : PanelUpdateOperation) :
    Followed Heard node.request seen (finishRunning state node op status now) := by
  unfold finishRunning
  dsimp only
  split
  · exact .outcome _ rfl rfl
  · exact .outcome _ rfl rfl

theorem runningStatus_followed (heard : Heard status) (known : state.ctx.status = some status)
    (held : state.node = .running node) (started : node.Started) :
    Followed Heard node.request node.seen (runningStatus dateParse state node status now probe) := by
  have unheard (foreign : ∀ op, status.operation = some op → op.kind = .apply →
      op.requestId ≠ node.request) :
      Followed Heard node.request node.seen (runningStatus.unheard dateParse state node now probe) := by
    unfold runningStatus.unheard
    split
    · exact .kept held started
    · split
      · rename_i submitting
        rw [submitting.2]
        exact notStarted_followed heard known foreign
      · split
        · rename_i op found
          obtain ⟨shown, running, other⟩ := otherRunning_some found
          obtain ⟨listedStatus, same, listed, apply, _⟩ := applyOperation_some shown
          rw [known] at same
          cases same
          exact observe_followed heard listed apply running other
        · exact .outcome _ rfl rfl
  unfold runningStatus
  split
  · rename_i op listed
    split
    · split
      · exact advance_followed op
      · exact finishRunning_followed op
    · rename_i foreign
      refine unheard ?_
      intro found same apply ours
      rw [listed] at same
      cases same
      exact foreign ⟨apply, ours⟩
  · rename_i absent
    exact unheard (by simp [absent])

theorem onStatus_followed (Heard : PanelUpdateStatus → Prop) (node : PanelUpdateRunningNode)
    {solicited : Bool} {askId : Option Nat} (heard : Heard status)
    (held : state.node = .running node) (started : node.Started) :
    Followed Heard node.request node.seen (onStatus dateParse state status solicited askId now) := by
  simp only [onStatus, held]
  exact runningStatus_followed heard rfl held started

theorem statusAck_followed {askId : Nat} {result : PanelUpdateAckResult}
    (heard : ∀ status, result = .ok status → Heard status)
    (held : state.node = .running node) (started : node.Started) :
    Followed Heard node.request node.seen (statusAck dateParse state askId result now) := by
  have unanswered : ∀ reason, Followed Heard node.request node.seen
      (statusAck.unanswered state askId reason) := by
    intro reason
    refine .kept ?_ started
    unfold statusAck.unanswered
    split <;> simp [held]
  cases result with
  | ok status => exact onStatus_followed Heard node (heard status rfl) held started
  | error code msg => exact unanswered _
  | lost => exact unanswered _

theorem applyAck_followed {result : PanelUpdateAckResult}
    (heard : ∀ status, result = .ok status → Heard status) (started : node.Started) :
    Followed Heard node.request node.seen (applyAck dateParse state node result now) := by
  unfold applyAck
  cases result with
  | ok status => exact onStatus_followed Heard { node with ackPending := false } (heard status rfl) rfl started
  | error code msg =>
      dsimp only
      split
      · rename_i unsent
        obtain ⟨preview, refused⟩ := applyRefused_eq state node code msg now
        rw [refused]
        exact .abandoned unsent.2 (by simp) (.inr (.inl ⟨_, rfl⟩))
      · exact .running _ rfl rfl started
  | lost => exact .running _ rfl rfl started

theorem cancelAck_followed {result : PanelUpdateAckResult}
    (heard : ∀ status, result = .ok status → Heard status)
    (held : state.node = .running node) (started : node.Started) :
    Followed Heard node.request node.seen (cancelAck dateParse state node result now) := by
  unfold cancelAck
  cases result with
  | ok status => exact onStatus_followed Heard node (heard status rfl) held started
  | lost => exact .kept held started
  | error code msg =>
      dsimp only
      split
      · exact .kept held started
      · rename_i cancelling
        have sent : node.seen = true := by
          by_contra unseen
          have submitting := started.mp (by simpa using unseen)
          exact cancelling (by simp [submitting])
        exact .running _ rfl rfl (started_of_seen sent (progressOfPhase_ne_submitting _))

theorem dismissAck_followed {requestId : String} {result : PanelUpdateAckResult}
    (heard : ∀ status, result = .ok status → Heard status)
    (held : state.node = .running node) (started : node.Started) :
    Followed Heard node.request node.seen (dismissAck dateParse state requestId result now) := by
  unfold dismissAck
  split
  · exact .kept held started
  · cases result with
    | ok status => exact onStatus_followed Heard node (heard status rfl) held started
    | error code msg => exact .kept (by simp [held]) started
    | lost => exact .kept (by simp [held]) started

theorem onAck_followed {ack : PanelUpdateAck} {given : PanelUpdateAckResult}
    (held : state.node = .running node) (started : node.Started) :
    Followed (PanelUpdateEvent.ack ack given now).Delivers node.request node.seen
      (onAck dateParse state ack given now) := by
  have heard : ∀ status, readableResult ack given = .ok status →
      (PanelUpdateEvent.ack ack given now).Delivers status :=
    fun _ answered => readableResult_delivers answered
  unfold onAck
  cases ack with
  | status askId => exact statusAck_followed heard held started
  | request kind requestId =>
      cases kind with
      | dismiss => exact dismissAck_followed heard held started
      | preview => exact .kept (by simp [held]) started
      | apply =>
          simp only [held]
          split
          · exact .kept held started
          · exact applyAck_followed heard started
      | cancel =>
          simp only [held]
          split
          · exact .kept held started
          · exact cancelAck_followed heard held started

theorem boot_runningStarted (state : PanelUpdateState) (now : Int) (persisted : Option PanelUpdateRecord) (build : Option String) :
    RunningStarted (boot state persisted now build).state := by
  unfold boot
  split
  · intro next held
    cases held
  · rename_i record
    split
    · split <;> intro next held <;> cases held
    · rename_i unfinished
      intro next held
      cases held
      cases stage : record.stage with
      | submitting => simp [PanelUpdateRunningNode.Started]
      | running => exact started_of_seen (by simp) (by simp [progressOfPhase_ne_submitting])
      | finished => exact absurd stage unfinished

theorem boot_followed {record : PanelUpdateRecord} {build : Option String}
    (ended : record.stage = .finished → record.outcome = some "success") :
    Followed Heard record.request seen (boot state (some record) now build) := by
  have started := boot_runningStarted state now (some record) build
  unfold boot at started ⊢
  dsimp only at started ⊢
  split
  · rename_i finished
    rw [if_neg (not_not_intro (ended finished))]
    exact .outcome _ rfl rfl
  · rename_i unfinished
    rw [if_neg unfinished] at started
    exact .running _ rfl rfl (started _ rfl)

/-- What each event makes of a running request, unless a `BOOT` finds another record. -/
theorem reducePanelUpdate_followed (event : PanelUpdateEvent) (held : state.node = .running node)
    (started : node.Started) (rejoins : event.Rejoins node.request) :
    Followed event.Delivers node.request node.seen (reducePanelUpdate dateParse state event) := by
  cases event with
  | boot persisted now build =>
      obtain ⟨record, rfl, ours, ended⟩ := rejoins persisted now build rfl
      rw [← ours]
      exact boot_followed ended
  | info latestVersion updateAvailable => exact .kept (by simp [reducePanelUpdate, info, held]) started
  | status status solicited askId now =>
      simp only [reducePanelUpdate]
      split
      · exact .kept held started
      · rename_i readable
        exact onStatus_followed _ _ ⟨rfl, by simpa using readable⟩ held started
  | linkUp now =>
      refine .running { node with heardAt := now, quiet := false, ackPending := false } ?_ rfl started
      simp [reducePanelUpdate, linkUp, held]
  | linkDown now =>
      refine .kept ?_ started
      simp only [reducePanelUpdate, linkDown]
      split <;> exact held
  | authLost => exact .kept held started
  | ack ack given now => exact onAck_followed held started
  | tick now =>
      simp only [reducePanelUpdate, tick, held, tickRunning]
      split
      · split
        · exact .kept rfl started
        · exact .kept held started
      · split
        · exact .running { node with quiet := true, heardAt := now } (by simp) rfl started
        · exact .kept held started
      · exact .kept held started
  | check owner requestId => exact .kept (by simp [reducePanelUpdate, check, held]) started
  | confirm owner => exact .kept (by simp [reducePanelUpdate, confirm, held]) started
  | submit owner password requestId now => exact .kept (by simp [reducePanelUpdate, submit, held]) started
  | cancel owner =>
      simp only [reducePanelUpdate, cancel, held]
      split
      · exact .kept held started
      · rename_i offered
        obtain ⟨_, offered⟩ := not_or.mp offered
        simp only [panelUpdateCanCancel, held, decide_eq_false_iff_not, not_not] at offered
        have sent : node.seen = true := by
          by_contra unseen
          have submitting := started.mp (by simpa using unseen)
          simp [submitting] at offered
        exact .running _ rfl rfl (started_of_seen sent (by simp))
  | dismiss owner now => exact .kept (by simp [reducePanelUpdate, dismiss, held]) started
  | close => exact .kept (by simp [reducePanelUpdate, close, held]) started

/-! ### Where a running operation comes from -/

theorem runningStarted_of_ne (left : ∀ next, state.node ≠ .running next) : RunningStarted state :=
  fun next held => absurd held (left next)

theorem enterIdle_runningStarted {notice : Option PanelUpdateIdleNotice} :
    RunningStarted (enterIdle dateParse state now notice).state := by
  unfold enterIdle
  split
  · split
    · exact observe_runningStarted _ _
    · dsimp only
      split <;> exact runningStarted_of_ne (by simp)
  · exact runningStarted_of_ne (by simp)

theorem previewStatus_runningStarted {shown : PanelUpdatePreviewNode} (held : state.node = .preview shown) :
    RunningStarted (previewStatus dateParse state shown now probe).state := by
  have stayed : RunningStarted (stay state).state := runningStarted_of_ne (by simp [held])
  have gone : RunningStarted (previewStatus.gone state shown probe).state := by
    unfold previewStatus.gone
    split
    · exact runningStarted_of_ne (by simp [refused])
    · exact stayed
  unfold previewStatus
  split
  · split
    · exact observe_runningStarted _ _
    · split
      · exact stayed
      · split
        · split
          · exact runningStarted_of_ne (by simp)
          · refine runningStarted_of_ne ?_
            unfold previewFinished previewFinished.refusedResult refused
            split
            · split <;> simp
            · simp
        · exact gone
  · split
    · exact stayed
    · exact gone

theorem outcomeStatus_runningStarted {shown : PanelUpdateOutcomeNode} (held : state.node = .outcome shown) :
    RunningStarted (outcomeStatus dateParse state shown status probe now).state := by
  have stayed : RunningStarted (stay state).state := runningStarted_of_ne (by simp [held])
  have contradicted : RunningStarted (contradiction state shown).state :=
    runningStarted_of_ne (by simp [contradiction])
  have dismissed : RunningStarted (confirmOutcome.dismissed state shown status).state := by
    unfold confirmOutcome.dismissed
    split
    · exact runningStarted_of_ne (by simp)
    · exact contradicted
  unfold outcomeStatus
  generalize (if shown.updated = some .reloading then none else otherRunning state.ctx shown.request) = other
  cases other with
  | some op => exact observe_runningStarted _ op
  | none =>
      dsimp only
      split
      · exact stayed
      · unfold confirmOutcome
        split
        · split
          · split
            · exact contradicted
            · dsimp only
              split <;> exact runningStarted_of_ne (by simp)
          · split
            · exact stayed
            · exact dismissed
        · split
          · exact stayed
          · exact dismissed

theorem onStatus_runningStarted {solicited : Bool} {askId : Option Nat} (before : RunningStarted state) :
    RunningStarted (onStatus dateParse state status solicited askId now).state := by
  cases held : state.node with
  | idle shown =>
      simp only [onStatus, held]
      exact enterIdle_runningStarted
  | preview shown =>
      simp only [onStatus, held]
      exact previewStatus_runningStarted held
  | running node =>
      exact (onStatus_followed (fun _ => True) node trivial held (before node held)).started
  | outcome shown =>
      simp only [onStatus, held]
      exact outcomeStatus_runningStarted held

theorem ask_runningStarted (before : RunningStarted state) : RunningStarted (ask state probe).state := by
  intro next held
  exact before next (by simpa using held)

theorem onAck_runningStarted {ack : PanelUpdateAck} {given : PanelUpdateAckResult}
    (before : RunningStarted state) (idle : ∀ node, state.node ≠ .running node) :
    RunningStarted (onAck dateParse state ack given now).state := by
  unfold onAck
  generalize readableResult ack given = result
  cases ack with
  | status askId =>
      have unanswered : ∀ reason, RunningStarted (statusAck.unanswered state askId reason).state := by
        intro reason
        refine runningStarted_of_ne ?_
        have same : ∀ next, (if some askId = state.ctx.probe then
            { state with ctx := { state.ctx with probe := none } } else state).node ≠ .running next := by
          split <;> exact idle
        unfold statusAck.unanswered
        dsimp only
        split
        · split
          · simp
          · exact same
        · exact same
      cases result with
      | ok status => exact onStatus_runningStarted before
      | error code msg => exact unanswered _
      | lost => exact unanswered _
  | request kind requestId =>
      cases kind with
      | dismiss =>
          simp only [dismissAck]
          split
          · exact before
          · split
            · exact onStatus_runningStarted before
            · split
              · split
                · exact before
                · exact ask_runningStarted (runningStarted_of_ne (by simp))
              · exact before
      | preview =>
          dsimp only
          split
          · unfold previewAck
            split
            · exact before
            · dsimp only
              split
              · exact onStatus_runningStarted (runningStarted_of_ne (by simp))
              · split <;> exact runningStarted_of_ne (by simp [refused])
              · exact ask_runningStarted (runningStarted_of_ne (by simp))
          · exact before
      | apply =>
          dsimp only
          split
          · rename_i node held
            exact absurd held (idle node)
          · exact before
      | cancel =>
          dsimp only
          split
          · rename_i node held
            exact absurd held (idle node)
          · exact before

theorem RunningStarted.step (before : RunningStarted state) (event : PanelUpdateEvent) :
    RunningStarted (reducePanelUpdate dateParse state event).state := by
  by_cases booted : ∃ persisted now build, event = .boot persisted now build
  · obtain ⟨persisted, now, build, rfl⟩ := booted
    exact boot_runningStarted _ _ persisted build
  · simp only [not_exists] at booted
    by_cases running : ∃ node, state.node = .running node
    · obtain ⟨node, held⟩ := running
      refine (reducePanelUpdate_followed event held (before node held) ?_).started
      intro persisted now build same
      exact absurd same (booted persisted now build)
    · simp only [not_exists] at running
      cases event with
      | boot persisted now build => exact boot_runningStarted _ _ persisted build
      | info latestVersion updateAvailable =>
          refine runningStarted_of_ne ?_
          simp only [reducePanelUpdate, info]
          split
          · split <;> simp [running]
          · simpa using running
      | status status solicited askId now =>
          simp only [reducePanelUpdate]
          split
          · exact before
          · exact onStatus_runningStarted before
      | linkUp now =>
          refine runningStarted_of_ne ?_
          simp only [reducePanelUpdate, linkUp]
          split
          · split <;> simp [running]
          · split <;> simp [running]
          · rename_i node held
            exact absurd held (running node)
          · split <;> simp [running]
      | linkDown now =>
          refine runningStarted_of_ne ?_
          simp only [reducePanelUpdate, linkDown]
          split <;> simpa using running
      | authLost => exact before
      | ack ack given now => exact onAck_runningStarted before running
      | tick now =>
          refine runningStarted_of_ne ?_
          simp only [reducePanelUpdate, tick, tickPreview]
          split
          · split <;> simp [running]
          · split
            · simpa using running
            · split
              · simpa using running
              · split <;> simp
          · rename_i node held
            exact absurd held (running node)
          · split
            · simp
            · split <;> simp [running]
      | check owner requestId =>
          refine runningStarted_of_ne ?_
          simp only [reducePanelUpdate, check]
          split
          · split
            · split <;> simp [running]
            · simpa using running
          · simpa using running
      | confirm owner =>
          refine runningStarted_of_ne ?_
          simp only [reducePanelUpdate, confirm]
          split
          · split <;> simp [running]
          · simpa using running
      | submit owner password requestId now =>
          simp only [reducePanelUpdate, submit]
          split
          · split
            · exact before
            · split
              · exact before
              · split
                · exact before
                · split
                  · exact before
                  · intro next held
                    cases held
                    simp [PanelUpdateRunningNode.Started]
          · exact before
      | cancel owner =>
          simp only [reducePanelUpdate, cancel]
          exact before
      | dismiss owner now =>
          simp only [reducePanelUpdate, dismiss]
          split
          · split
            · exact before
            · split <;> exact runningStarted_of_ne (by simp)
          · exact before
      | close =>
          simp only [reducePanelUpdate, close]
          split
          · split <;> exact runningStarted_of_ne (by simp)
          · split
            · exact before
            · exact runningStarted_of_ne (by simp)
          · exact before

end

theorem panelUpdateRun_runningStarted (dateParse : String → Option Int) (history : List PanelUpdateEvent) :
    RunningStarted (panelUpdateRun dateParse history) :=
  replay_invariant (motive := RunningStarted) (by intro node held; cases held)
    (fun _ event before => before.step event) history

/-- A running operation is never dropped silently: over every history, each event follows it,
shows its result, follows the other apply its status shows, or, before any status of it was
seen, leaves it and clears its record; a `BOOT` does where the record it finds is this one. -/
theorem running_never_dropped (dateParse : String → Option Int) (history : List PanelUpdateEvent) :
    (∀ node, (panelUpdateRun dateParse history).node = .running node →
      (node.seen = false ↔ node.progress = .submitting)) ∧
    (∀ node event, (panelUpdateRun dateParse history).node = .running node →
      event.Rejoins node.request →
      Followed event.Delivers node.request node.seen
        (reducePanelUpdate dateParse (panelUpdateRun dateParse history) event)) := by
  have started := panelUpdateRun_runningStarted dateParse history
  refine ⟨started, ?_⟩
  intro node event held rejoins
  exact reducePanelUpdate_followed event held (started node held) rejoins

/-- A second `BOOT` with nothing stored leaves a running operation, seen or not, without an
effect: the page dispatches it once, before anything else. -/
theorem boot_drops_running :
    ∃ history node event, (panelUpdateRun (fun _ => none) history).node = .running node ∧
      node.seen = true ∧
      ¬ Followed event.Delivers node.request node.seen
        (reducePanelUpdate (fun _ => none) (panelUpdateRun (fun _ => none) history) event) := by
  refine ⟨[.boot (some ⟨"r", "1", "2", none, 0, .running, none⟩) 0 none], _, .boot none 1 none, rfl, rfl, ?_⟩
  intro followed
  cases followed with
  | running next left => cases left
  | outcome next left => cases left
  | observing next left => cases left
  | abandoned unseen => cases unseen

end Dockge.PanelUpdate
