import Dockge.PanelUpdate.Machine.Outcome

namespace Dockge.PanelUpdate

open Dockge.Data

/-! The page shows "Updated" only for a success it was told of. -/

/-- Some event of the history delivered a status that confirms the update. -/
def ConfirmedBy (history : List PanelUpdateEvent) (request target : String) : Prop :=
  ∃ event ∈ history, ∃ status, event.Delivers status ∧ status.Confirms request target

/-- A boot of the history showed the stored success of this request. -/
def BootedWith (past : List PanelUpdateEvent) (request target : String) : Prop :=
  ∃ before record now build middle, past = before ++ .boot (some record) now build :: middle ∧
    record.Succeeded ∧ record.request = request ∧ record.toVersion = target

/-- A boot showed the stored success, and a later event confirmed it: with such a status, or
with the answer to the page's own probe that shows no apply and the target version. -/
def ConfirmedAfterBoot (dateParse : String → Option Int) (history : List PanelUpdateEvent)
    (request target : String) : Prop :=
  ∃ past event rest status, history = past ++ event :: rest ∧ BootedWith past request target ∧
    event.Delivers status ∧
    (status.Confirms request target ∨
      (event.answersProbe (panelUpdateRun dateParse past).ctx = true ∧ status.Dismissed target))

section
variable {dateParse : String → Option Int} {past : List PanelUpdateEvent} {request target : String}

theorem ConfirmedBy.snoc (confirmed : ConfirmedBy past request target) (event : PanelUpdateEvent) :
    ConfirmedBy (past ++ [event]) request target := by
  obtain ⟨source, member, status, delivers, confirms⟩ := confirmed
  exact ⟨source, List.mem_append_left _ member, status, delivers, confirms⟩

theorem BootedWith.snoc (booted : BootedWith past request target) (event : PanelUpdateEvent) :
    BootedWith (past ++ [event]) request target := by
  obtain ⟨before, record, now, build, middle, rfl, stored⟩ := booted
  exact ⟨before, record, now, build, middle ++ [event], by simp, stored⟩

theorem ConfirmedAfterBoot.snoc (confirmed : ConfirmedAfterBoot dateParse past request target)
    (event : PanelUpdateEvent) : ConfirmedAfterBoot dateParse (past ++ [event]) request target := by
  obtain ⟨before, source, rest, status, rfl, stored⟩ := confirmed
  exact ⟨before, source, rest ++ [event], status, by simp, stored⟩

/-- What the history holds of a result that claims success. -/
def Grounded (dateParse : String → Option Int) (history : List PanelUpdateEvent)
    (state : PanelUpdateState) : Prop :=
  ∀ node, state.node = .outcome node → node.sub = .updated →
    if node.pending then BootedWith history node.request node.toVersion
    else ConfirmedBy history node.request node.toVersion ∨
      ConfirmedAfterBoot dateParse history node.request node.toVersion

theorem Grounded.step (grounded : Grounded dateParse past (panelUpdateRun dateParse past))
    (event : PanelUpdateEvent) :
    Grounded dateParse (past ++ [event])
      (reducePanelUpdate dateParse (panelUpdateRun dateParse past) event).state := by
  intro after left updated
  cases reducePanelUpdate_outcome left with
  | kept node held same =>
      rw [same] at updated ⊢
      have before := grounded node held updated
      cases pending : node.pending with
      | true =>
          simp only [pending, if_true] at before ⊢
          exact before.snoc event
      | false =>
          simp only [pending, Bool.false_eq_true, if_false] at before ⊢
          exact before.imp (·.snoc event) (·.snoc event)
  | unconfirmed sub => exact absurd updated sub
  | confirmed status delivers confirms ended =>
      simp only [ended, Bool.false_eq_true, if_false]
      exact .inl ⟨event, by simp, status, delivers, confirms⟩
  | dismissed node held pending same status delivers answered gone =>
      rw [same] at updated gone ⊢
      have booted := grounded node held updated
      simp only [pending, if_true] at booted
      simp only [Bool.false_eq_true, if_false]
      exact .inr ⟨past, event, [], status, rfl, booted, delivers, .inr ⟨answered, gone⟩⟩
  | booted record now build booting succeeded request target sub shown pending =>
      simp only [pending, if_true]
      exact ⟨past, record, now, build, [], by rw [booting], succeeded, request.symm, target.symm⟩

theorem panelUpdateRun_grounded (dateParse : String → Option Int) (history : List PanelUpdateEvent) :
    Grounded dateParse history (panelUpdateRun dateParse history) :=
  replay_induction (motive := Grounded dateParse) (by intro node held; cases held)
    (fun _ event grounded => grounded.step event) history

end

/-! ### The reload -/

/-- A step that asks for the reload enters a success from a state that showed no result. -/
def ReloadsEntering (before : PanelUpdateNode) (step : PanelUpdateStep) : Prop :=
  .reload ∈ step.effects →
    (∀ node, before ≠ .outcome node) ∧
      ∃ node, step.state.node = .outcome node ∧ node.sub = .updated ∧ node.pending = false ∧
        node.updated = some .reloading

section
variable {dateParse : String → Option Int} {state : PanelUpdateState} {status : PanelUpdateStatus}
  {now : Int}

theorem reloadsEntering_of_not_mem {before : PanelUpdateNode} {step : PanelUpdateStep}
    (absent : .reload ∉ step.effects) : ReloadsEntering before step :=
  fun reload => absurd reload absent

@[simp] theorem ask_not_reload (probe : Bool) : .reload ∉ (ask state probe).effects := by
  unfold ask
  split <;> simp

@[simp] theorem observe_not_reload (op : PanelUpdateOperation) :
    .reload ∉ (observe dateParse state op now).effects := by
  simp [observe, runningRecord]

theorem enterIdle_reload {before : PanelUpdateNode} {notice : Option PanelUpdateIdleNotice}
    (fresh : ∀ node, before ≠ .outcome node) :
    ReloadsEntering before (enterIdle dateParse state now notice) := by
  intro reload
  refine ⟨fresh, ?_⟩
  unfold enterIdle at reload ⊢
  cases found : applyOperation state.ctx with
  | none => simp [found] at reload
  | some op =>
      cases known : state.ctx.status with
      | none => simp [found, known] at reload
      | some given =>
          simp only [found, known] at reload ⊢
          by_cases running : op.running = true
          · simp [running] at reload
          · by_cases entering : (settled dateParse op given now false).sub = .updated ∧
                state.ctx.build.isSome = true ∧
                state.ctx.build ≠ some (settled dateParse op given now false).toVersion
            · rw [if_neg running, if_pos entering]
              exact ⟨_, rfl, entering.1, rfl, rfl⟩
            · rw [if_neg running, if_neg entering] at reload
              simp at reload

theorem finishRunning_reload {before : PanelUpdateNode} {node : PanelUpdateRunningNode}
    {op : PanelUpdateOperation} (fresh : ∀ node, before ≠ .outcome node) :
    ReloadsEntering before (finishRunning state node op status now) := by
  intro reload
  refine ⟨fresh, ?_⟩
  unfold finishRunning at reload ⊢
  dsimp only at reload ⊢
  split
  · rename_i updated
    exact ⟨_, rfl, updated, rfl, rfl⟩
  · rename_i other
    simp [other, outcomeRecord] at reload

theorem notStarted_reload {before : PanelUpdateNode} {node : PanelUpdateRunningNode}
    (fresh : ∀ node, before ≠ .outcome node) :
    ReloadsEntering before (notStarted dateParse state node now) := by
  have left : ReloadsEntering before ⟨(enterIdle dateParse state now (some .notStarted)).state,
      .clearPersist :: (enterIdle dateParse state now (some .notStarted)).effects⟩ := by
    intro reload
    exact enterIdle_reload fresh (by simpa using reload)
  unfold notStarted
  split
  · split
    · exact reloadsEntering_of_not_mem (by simp)
    · exact left
  · exact left

theorem runningStatus_reload {before : PanelUpdateNode} {node : PanelUpdateRunningNode} {probe : Bool}
    (fresh : ∀ node, before ≠ .outcome node) :
    ReloadsEntering before (runningStatus dateParse state node status now probe) := by
  have unheard : ReloadsEntering before (runningStatus.unheard dateParse state node now probe) := by
    unfold runningStatus.unheard
    split
    · exact reloadsEntering_of_not_mem (by simp)
    · split
      · exact notStarted_reload fresh
      · split
        · exact reloadsEntering_of_not_mem (by simp)
        · exact reloadsEntering_of_not_mem (by simp [outcomeRecord])
  unfold runningStatus
  split
  · split
    · split
      · refine reloadsEntering_of_not_mem ?_
        unfold advance
        dsimp only
        split
        · split <;> simp [runningRecord]
        · split <;> simp [runningRecord]
      · exact finishRunning_reload fresh
    · exact unheard
  · exact unheard

theorem previewStatus_reload {node : PanelUpdatePreviewNode} {probe : Bool} :
    .reload ∉ (previewStatus dateParse state node now probe).effects := by
  unfold previewStatus previewStatus.gone previewFinished previewFinished.refusedResult refused
  split
  · split
    · simp
    · split
      · simp
      · split
        · split
          · simp
          · split
            · split <;> simp
            · simp
        · split <;> simp
  · split
    · simp
    · split <;> simp

theorem outcomeStatus_reload {node : PanelUpdateOutcomeNode} {probe : Bool} :
    .reload ∉ (outcomeStatus dateParse state node status probe now).effects := by
  have contradicted : .reload ∉ (contradiction state node).effects := by
    simp [contradiction, outcomeRecord]
  have dismissed : .reload ∉ (confirmOutcome.dismissed state node status).effects := by
    unfold confirmOutcome.dismissed
    split
    · simp
    · exact contradicted
  unfold outcomeStatus
  generalize (if node.updated = some .reloading then none else otherRunning state.ctx node.request) = other
  cases other with
  | some other => simp
  | none =>
      dsimp only
      split
      · simp
      · unfold confirmOutcome
        split
        · split
          · split
            · exact contradicted
            · dsimp only
              split <;> simp [outcomeRecord]
          · split
            · simp
            · exact dismissed
        · split
          · simp
          · exact dismissed

theorem onStatus_reload {solicited : Bool} {askId : Option Nat} :
    ReloadsEntering state.node (onStatus dateParse state status solicited askId now) := by
  unfold onStatus
  cases held : state.node with
  | idle node => exact enterIdle_reload (by simp)
  | preview node => exact reloadsEntering_of_not_mem previewStatus_reload
  | running node => exact runningStatus_reload (by simp)
  | outcome node => exact reloadsEntering_of_not_mem outcomeStatus_reload

theorem onAck_reload {ack : PanelUpdateAck} {given : PanelUpdateAckResult} :
    ReloadsEntering state.node (onAck dateParse state ack given now) := by
  unfold onAck
  generalize readableResult ack given = result
  cases ack with
  | status askId =>
      have unanswered : ∀ reason, .reload ∉ (statusAck.unanswered state askId reason).effects := by
        intro reason
        unfold statusAck.unanswered
        dsimp only
        split
        · split <;> simp
        · simp
      cases result with
      | ok status => exact onStatus_reload
      | error code msg => exact reloadsEntering_of_not_mem (unanswered _)
      | lost => exact reloadsEntering_of_not_mem (unanswered _)
  | request kind requestId =>
      cases kind with
      | dismiss =>
          simp only [dismissAck]
          split
          · exact reloadsEntering_of_not_mem (by simp)
          · split
            · exact onStatus_reload
            · refine reloadsEntering_of_not_mem ?_
              split
              · split <;> simp
              · simp
      | preview =>
          cases held : state.node with
          | preview node =>
              simp only [previewAck]
              split
              · exact reloadsEntering_of_not_mem (by simp)
              · split
                · intro reload
                  exact ⟨by simp, (onStatus_reload reload).2⟩
                · split <;> exact reloadsEntering_of_not_mem (by simp [refused])
                · exact reloadsEntering_of_not_mem (by simp)
          | idle node => exact reloadsEntering_of_not_mem (by simp)
          | running node => exact reloadsEntering_of_not_mem (by simp)
          | outcome node => exact reloadsEntering_of_not_mem (by simp)
      | apply =>
          cases held : state.node with
          | running node =>
              simp only [applyAck]
              split
              · exact reloadsEntering_of_not_mem (by simp)
              · split
                · intro reload
                  exact ⟨by simp, (onStatus_reload reload).2⟩
                · rename_i code msg
                  split
                  · obtain ⟨preview, refused⟩ := applyRefused_eq state node code msg now
                    exact reloadsEntering_of_not_mem (by simp [refused])
                  · exact reloadsEntering_of_not_mem (by simp)
                · exact reloadsEntering_of_not_mem (by simp)
          | idle node => exact reloadsEntering_of_not_mem (by simp)
          | preview node => exact reloadsEntering_of_not_mem (by simp)
          | outcome node => exact reloadsEntering_of_not_mem (by simp)
      | cancel =>
          cases held : state.node with
          | running node =>
              simp only [cancelAck]
              split
              · exact reloadsEntering_of_not_mem (by simp)
              · split
                · intro reload
                  exact ⟨by simp, (onStatus_reload reload).2⟩
                · exact reloadsEntering_of_not_mem (by simp)
                · split <;> exact reloadsEntering_of_not_mem (by simp)
          | idle node => exact reloadsEntering_of_not_mem (by simp)
          | preview node => exact reloadsEntering_of_not_mem (by simp)
          | outcome node => exact reloadsEntering_of_not_mem (by simp)

/-- The page reloads itself only as it enters a success. -/
theorem reducePanelUpdate_reload (event : PanelUpdateEvent) :
    ReloadsEntering state.node (reducePanelUpdate dateParse state event) := by
  cases event with
  | status status solicited askId now =>
      simp only [reducePanelUpdate]
      split
      · exact reloadsEntering_of_not_mem (by simp)
      · exact onStatus_reload
  | ack ack given now => exact onAck_reload
  | boot persisted now build =>
      refine reloadsEntering_of_not_mem ?_
      simp only [reducePanelUpdate, boot]
      split
      · simp
      · split
        · split <;> simp
        · simp
  | info latestVersion updateAvailable =>
      refine reloadsEntering_of_not_mem ?_
      simp only [reducePanelUpdate, info]
      split
      · split <;> simp
      · simp
  | linkUp now =>
      refine reloadsEntering_of_not_mem ?_
      simp only [reducePanelUpdate, linkUp]
      split
      · split <;> simp
      · split <;> simp
      · simp
      · split <;> simp
  | linkDown now =>
      refine reloadsEntering_of_not_mem ?_
      simp only [reducePanelUpdate, linkDown]
      split <;> simp
  | authLost => exact reloadsEntering_of_not_mem (by simp [reducePanelUpdate, authLost])
  | tick now =>
      refine reloadsEntering_of_not_mem ?_
      simp only [reducePanelUpdate, tick, tickPreview, tickRunning]
      split
      · split <;> simp
      · split
        · simp
        · split
          · simp
          · split <;> simp
      · split
        · split <;> simp
        · split <;> simp
        · simp
      · split
        · simp
        · split <;> simp
  | check owner requestId =>
      refine reloadsEntering_of_not_mem ?_
      simp only [reducePanelUpdate, check]
      split
      · split
        · split <;> simp
        · simp
      · simp
  | confirm owner =>
      refine reloadsEntering_of_not_mem ?_
      simp only [reducePanelUpdate, confirm]
      split
      · split <;> simp
      · simp
  | submit owner password requestId now =>
      refine reloadsEntering_of_not_mem ?_
      simp only [reducePanelUpdate, submit]
      split
      · split
        · simp
        · split
          · simp
          · split
            · simp
            · split <;> simp [runningRecord]
      · simp
  | cancel owner =>
      refine reloadsEntering_of_not_mem ?_
      simp only [reducePanelUpdate, cancel]
      split
      · split <;> simp
      · simp
  | dismiss owner now =>
      refine reloadsEntering_of_not_mem ?_
      simp only [reducePanelUpdate, dismiss]
      split
      · split
        · simp
        · split <;> simp
      · simp
  | close =>
      refine reloadsEntering_of_not_mem ?_
      simp only [reducePanelUpdate, close]
      split
      · split <;> simp
      · split <;> simp
      · simp

end

/-- No unconfirmed success, over every history: a settled "Updated" was confirmed by a
status of that request from the target version, or restored by a boot and then confirmed;
and the page reloads only as it enters such a state. -/
theorem no_unconfirmed_success (dateParse : String → Option Int) (history : List PanelUpdateEvent) :
    (∀ node, (panelUpdateRun dateParse history).node = .outcome node → node.sub = .updated →
      node.pending = false →
      ConfirmedBy history node.request node.toVersion ∨
        ConfirmedAfterBoot dateParse history node.request node.toVersion) ∧
    (∀ event, .reload ∈ (reducePanelUpdate dateParse (panelUpdateRun dateParse history) event).effects →
      (∀ node, (panelUpdateRun dateParse history).node ≠ .outcome node) ∧
        ∃ node, (panelUpdateRun dateParse (history ++ [event])).node = .outcome node ∧
          node.sub = .updated ∧ node.pending = false ∧
          (ConfirmedBy (history ++ [event]) node.request node.toVersion ∨
            ConfirmedAfterBoot dateParse (history ++ [event]) node.request node.toVersion)) := by
  have settled : ∀ events node, (panelUpdateRun dateParse events).node = .outcome node →
      node.sub = .updated → node.pending = false →
      ConfirmedBy events node.request node.toVersion ∨
        ConfirmedAfterBoot dateParse events node.request node.toVersion := by
    intro events node held updated ended
    simpa [ended] using panelUpdateRun_grounded dateParse events node held updated
  refine ⟨settled history, ?_⟩
  intro event reload
  obtain ⟨fresh, node, entered, updated, ended, _⟩ := reducePanelUpdate_reload event reload
  rw [← panelUpdateRun_snoc] at entered
  exact ⟨fresh, node, entered, updated, ended, settled _ node entered updated ended⟩

end Dockge.PanelUpdate
