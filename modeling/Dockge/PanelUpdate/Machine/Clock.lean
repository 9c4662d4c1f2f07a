import Dockge.PanelUpdate.Machine.Outcome

namespace Dockge.PanelUpdate

/-! The timer the page arms, against the transitions of the clock. -/

/-- A tick against the armed deadline: nothing moves before it, and once it has passed the
state moves on and waits for a later moment or for none. -/
structure TickAgrees (state : PanelUpdateState) (now : Int) : Prop where
  early : (∀ deadline, panelUpdateDeadline state = some deadline → now < deadline) →
    tick state now = stay state
  due : ∀ deadline, panelUpdateDeadline state = some deadline → deadline ≤ now →
    (tick state now).state ≠ state ∧
      ∀ later, panelUpdateDeadline (tick state now).state = some later → now < later

section
variable {ctx : PanelUpdateContext} {now : Int}

theorem waited_eq_false {since : Option Int} {wait : Int}
    (before : ∀ deadline, since.map (· + wait) = some deadline → now < deadline) :
    waited since wait now = false := by
  cases since with
  | none => rfl
  | some since =>
      have early := before (since + wait) rfl
      simp only [waited, ge_iff_le, decide_eq_false_iff_not]
      omega

theorem waited_eq_true {since : Option Int} {wait deadline : Int}
    (armed : since.map (· + wait) = some deadline) (due : deadline ≤ now) :
    waited since wait now = true := by
  cases since with
  | none => simp at armed
  | some since =>
      simp only [Option.map_some, Option.some.injEq] at armed
      simp only [waited, ge_iff_le, decide_eq_true_eq]
      omega

/-- An idle page that is told what to show waits for nothing. -/
@[simp] theorem classify_deadline {notice : Option PanelUpdateIdleNotice} :
    panelUpdateDeadline ⟨ctx, .idle (classify ctx notice)⟩ = none := by
  have unasked : (classify ctx notice).requestedAt = none := by
    unfold classify
    split
    · rfl
    · split
      · rfl
      · split
        · split <;> rfl
        · rfl
  simp [panelUpdateDeadline, unasked]

theorem idle_tick (node : PanelUpdateIdleNode) : TickAgrees ⟨ctx, .idle node⟩ now := by
  constructor
  · intro before
    simp only [panelUpdateDeadline] at before
    by_cases loading : node.sub = .loading
    · rw [if_pos loading] at before
      simp [tick, waited_eq_false before]
    · simp [tick, loading]
  · intro deadline armed passed
    simp only [panelUpdateDeadline] at armed
    split at armed
    · rename_i loading
      have late := waited_eq_true armed passed
      refine ⟨?_, ?_⟩
      · intro same
        have manual : ({ sub := .manual, reason := some .unsupported } : PanelUpdateIdleNode) = node := by
          simpa [tick, loading, late, withNode] using congrArg PanelUpdateState.node same
        rw [← manual] at loading
        cases loading
      · simp [tick, loading, late, panelUpdateDeadline]
    · contradiction

theorem preview_tick (node : PanelUpdatePreviewNode) : TickAgrees ⟨ctx, .preview node⟩ now := by
  constructor
  · intro before
    simp only [panelUpdateDeadline] at before
    simp only [tick, tickPreview]
    split
    · rfl
    · rename_i deadline armed
      rw [if_pos (before deadline armed)]
  · intro deadline armed passed
    simp only [panelUpdateDeadline] at armed
    have late : ¬ now < deadline := by omega
    simp only [tick, tickPreview, armed, if_neg late]
    by_cases ready : node.sub = .ready
    · simp [ready, withNode]
    · have checking : node.sub = .checking ∧ ctx.link = .online := by
        unfold previewDeadline at armed
        cases sub : node.sub with
        | ready => exact absurd sub ready
        | refused => simp [sub] at armed
        | checking =>
            refine ⟨rfl, ?_⟩
            simp only [sub] at armed
            split at armed
            · assumption
            · contradiction
      obtain ⟨checking, online⟩ := checking
      rw [if_neg ready]
      refine ⟨?_, ?_⟩
      · intro same
        have asked := congrArg (·.ctx.ask) same
        simp [ask, online] at asked
      · intro later rearmed
        simp only [ask, online, if_true, panelUpdateDeadline, previewDeadline, checking, Option.map_some,
          Option.some.injEq, panelUpdateCheckQuietMs] at rearmed
        omega

theorem running_tick (node : PanelUpdateRunningNode) : TickAgrees ⟨ctx, .running node⟩ now := by
  have positive := panelUpdateDeadlines_pos node.progress
  constructor
  · intro before
    simp only [panelUpdateDeadline] at before
    simp only [tick, tickRunning]
    cases link : ctx.link with
    | needAuth => rfl
    | offline since overdue =>
        cases overdue with
        | true => simp
        | false =>
            simp only [link, Bool.false_eq_true, if_false] at before
            have early := before _ rfl
            dsimp only
            rw [if_neg (by simp; omega)]
    | online =>
        cases acknowledged : node.ackPending with
        | true => simp
        | false =>
            simp only [link, acknowledged, Bool.false_eq_true, if_false] at before
            have early := before _ rfl
            dsimp only
            rw [if_neg (by simp; omega)]
  · intro deadline armed passed
    simp only [panelUpdateDeadline] at armed
    simp only [tick, tickRunning]
    cases link : ctx.link with
    | needAuth => simp [link] at armed
    | offline since overdue =>
        cases overdue with
        | true => simp [link] at armed
        | false =>
            simp only [link, Bool.false_eq_true, if_false, Option.some.injEq] at armed
            dsimp only
            rw [if_pos ⟨rfl, by omega⟩]
            refine ⟨?_, by simp [panelUpdateDeadline]⟩
            intro same
            have overdue := congrArg (·.ctx.link) same
            simp [link] at overdue
    | online =>
        cases acknowledged : node.ackPending with
        | true => simp [link, acknowledged] at armed
        | false =>
            simp only [link, acknowledged, Bool.false_eq_true, if_false, Option.some.injEq] at armed
            dsimp only
            rw [if_pos ⟨rfl, by omega⟩]
            refine ⟨?_, ?_⟩
            · intro same
              have asked := congrArg (·.ctx.ask) same
              simp [ask, link] at asked
            · intro later rearmed
              simp only [ask, link, if_true, panelUpdateDeadline, Bool.false_eq_true, if_false,
                Option.some.injEq] at rearmed
              omega

/-- Where a pending result is never the one the page reloads for, the two waits of a result
do not meet. -/
theorem outcome_tick (node : PanelUpdateOutcomeNode) (shown : PendingShown ⟨ctx, .outcome node⟩) :
    TickAgrees ⟨ctx, .outcome node⟩ now := by
  cases pending : node.pending with
  | true =>
      have settled : node.updated = some .shown := shown node rfl pending
      constructor
      · intro before
        simp only [panelUpdateDeadline, pending, if_true] at before
        by_cases online : ctx.link = .online
        · rw [if_pos online] at before
          simp [tick, settled, waited_eq_false before]
        · simp [tick, settled, online]
      · intro deadline armed passed
        simp only [panelUpdateDeadline, pending, if_true] at armed
        split at armed
        · rename_i online
          have late := waited_eq_true armed passed
          simp only [tick, pending, online, late, and_self, if_true]
          refine ⟨?_, ?_⟩
          · intro same
            have asked := congrArg (·.ctx.ask) same
            simp [ask, online] at asked
          · intro later rearmed
            simp only [ask, online, if_true, panelUpdateDeadline, Option.map_some,
              Option.some.injEq, panelUpdateLoadingMs] at rearmed
            omega
        · contradiction
  | false =>
      constructor
      · intro before
        simp only [panelUpdateDeadline, pending, Bool.false_eq_true, if_false] at before
        by_cases reloading : node.updated = some .reloading ∧ node.stalled = false
        · rw [if_pos reloading] at before
          simp [tick, pending, waited_eq_false before]
        · simp only [tick, pending, Bool.false_eq_true, false_and, if_false]
          rw [if_neg fun moving => reloading ⟨moving.1, moving.2.1⟩]
      · intro deadline armed passed
        simp only [panelUpdateDeadline, pending, Bool.false_eq_true, if_false] at armed
        split at armed
        · rename_i reloading
          have late := waited_eq_true armed passed
          simp only [tick, pending, Bool.false_eq_true, false_and, if_false, reloading, late, and_self,
            if_true]
          refine ⟨?_, by simp [withNode, panelUpdateDeadline]⟩
          intro same
          have stalled := congrArg PanelUpdateState.node same
          simp only [withNode, PanelUpdateNode.outcome.injEq] at stalled
          have unstalled := reloading.2
          rw [← stalled] at unstalled
          cases unstalled
        · contradiction

theorem tick_agrees (state : PanelUpdateState) (shown : PendingShown state) (now : Int) :
    TickAgrees state now := by
  obtain ⟨ctx, node⟩ := state
  cases node with
  | idle node => exact idle_tick node
  | preview node => exact preview_tick node
  | running node => exact running_tick node
  | outcome node => exact outcome_tick node shown

end

/-- The armed timer and the clock agree in every state the page reaches: a tick before the
deadline, or without one, does nothing; a tick at it or after moves the state on, to one that
waits for a later moment or for none. -/
theorem deadline_agrees_with_tick (dateParse : String → Option Int) (history : List PanelUpdateEvent)
    (now : Int) :
    let state := panelUpdateRun dateParse history
    let next := reducePanelUpdate dateParse state (.tick now)
    ((∀ deadline, panelUpdateDeadline state = some deadline → now < deadline) →
      next.state = state ∧ next.effects = []) ∧
    (∀ deadline, panelUpdateDeadline state = some deadline → deadline ≤ now →
      next.state ≠ state ∧ ∀ later, panelUpdateDeadline next.state = some later → now < later) := by
  intro state next
  have agrees := tick_agrees state (panelUpdateRun_pendingShown dateParse history) now
  refine ⟨?_, agrees.due⟩
  intro before
  have stayed : next = stay state := agrees.early before
  exact ⟨by rw [stayed]; rfl, by rw [stayed]; rfl⟩

end Dockge.PanelUpdate
