import Dockge.Shutdown.ResourceOwner

namespace Dockge.Shutdown

open Data

/-! Every resource is stopped once, and the waits stay within the budget. -/

variable {format : ℚ → String} {timeoutMs elapsed : ℚ} {turns : Nat → Turn} {entries : List Resource}

/-! ## Shares -/

theorem share_nonneg (left : ℚ) (remaining : Nat) : 0 ≤ share left remaining := le_max_left _ _

theorem share_le (left : ℚ) (remaining : Nat) : share left remaining ≤ max 0 left :=
  max_le_max_left 0 (min_le_left _ _)

theorem le_share {left : ℚ} {remaining : Nat} (enough : minResourceBudgetMs ≤ left) :
    minResourceBudgetMs ≤ share left remaining :=
  le_max_of_le_right (le_min enough (le_max_left _ _))

/-- A share leaves its minimum to everybody after it, where there was enough for all. -/
theorem share_leaves {left : ℚ} {remaining : Nat} (enough : minResourceBudgetMs * (remaining + 1 : Nat) ≤ left) :
    minResourceBudgetMs * remaining ≤ left - share left (remaining + 1) := by
  have count : (0 : ℚ) < (remaining + 1 : Nat) := Nat.cast_pos.mpr (Nat.succ_pos remaining)
  have part : minResourceBudgetMs ≤ left / (remaining + 1 : Nat) := (le_div_iff₀ count).mpr enough
  have least : max minResourceBudgetMs ⌊left / (remaining + 1 : Nat)⌋ ≤ left / (remaining + 1 : Nat) :=
    max_le part (Int.floor_le _)
  have nonneg : (0 : ℚ) ≤ left / (remaining + 1 : Nat) := le_trans (by unfold minResourceBudgetMs; norm_num) part
  have below : share left (remaining + 1) ≤ left / (remaining + 1 : Nat) :=
    max_le nonneg ((min_le_right _ _).trans least)
  have whole : left / (remaining + 1 : Nat) * (remaining + 1 : Nat) = left := div_mul_cancel₀ left count.ne'
  rw [Nat.cast_add, Nat.cast_one] at whole part below
  have rest : minResourceBudgetMs * remaining ≤ left / (remaining + 1) * remaining :=
    mul_le_mul_of_nonneg_right part (Nat.cast_nonneg remaining)
  linarith

/-! ## The loop -/

theorem visits_resource (format : ℚ → String) (timeoutMs elapsed : ℚ) (turns : Nat → Turn) (entries : List Resource) :
    (visits format timeoutMs turns entries elapsed).map Visit.resource = entries := by
  induction entries generalizing elapsed with
  | nil => rfl
  | cons entry rest ih => exact congrArg (List.cons entry) (ih _)

theorem stopOne_name (format : ℚ → String) (turn : Turn) (entry : Resource) (budgetMs : ℚ) :
    (stopOne format turn entry budgetMs).2.name = entry.name := by
  unfold stopOne race
  split
  · rfl
  · rfl
  · split <;> rfl
  · split <;> rfl
  · rfl

/-- Who runs out of time has failed. -/
theorem stopOne_timedOut {turn : Turn} {entry : Resource} {budgetMs : ℚ}
    (late : (stopOne format turn entry budgetMs).2.timedOut = true) :
    (stopOne format turn entry budgetMs).2.error.isSome = true := by
  unfold stopOne race at late ⊢
  split at late
  · cases late
  · cases late
  · split at late
    · cases late
    · rw [if_neg (by assumption)]
      rfl
  · split <;> rfl
  · rfl

theorem stopOne_waited {turn : Turn} {entry : Resource} {budgetMs : ℚ} (positive : 0 ≤ budgetMs)
    (onTime : turn.lateMs = 0) : (stopOne format turn entry budgetMs).1 ≤ budgetMs := by
  have race_ (name : String) (afterMs : ℚ) (outcome : ResourceStopOutcome) :
      (race format turn budgetMs name afterMs outcome).1 ≤ budgetMs := by
    unfold race
    rw [onTime, add_zero, add_zero]
    split
    next early => exact early.elim le_of_lt fun tie => tie.1.le
    next => exact le_rfl
  unfold stopOne
  split
  · exact onTime.trans_le positive
  · exact onTime.trans_le positive
  · exact race_ _ _ _
  · exact race_ _ _ _
  · rw [onTime, add_zero]

theorem visits_spec {visit : Visit} (member : visit ∈ visits format timeoutMs turns entries elapsed) :
    0 ≤ visit.share ∧
      (visit.waited, visit.outcome) = stopOne format (turns visit.resource.id) visit.resource visit.share := by
  induction entries generalizing elapsed with
  | nil => cases member
  | cons entry rest ih =>
      obtain rfl | later := List.mem_cons.mp member
      · exact ⟨share_nonneg _ _, rfl⟩
      · exact ih later

theorem visits_within (bounded : ∀ visit ∈ visits format timeoutMs turns entries elapsed, visit.waited ≤ visit.share) :
    ((visits format timeoutMs turns entries elapsed).map Visit.waited).sum ≤ max 0 (timeoutMs - elapsed) := by
  induction entries generalizing elapsed with
  | nil => exact le_max_left _ _
  | cons entry rest ih =>
      rw [visits, List.map_cons, List.sum_cons]
      rw [visits, List.forall_mem_cons] at bounded
      have here := bounded.1.trans (share_le (timeoutMs - elapsed) (rest.length + 1))
      have others := ih bounded.2
      dsimp only at here others ⊢
      generalize (stopOne format (turns entry.id) entry (share (timeoutMs - elapsed) (rest.length + 1))).1 = waited
        at here others ⊢
      obtain spent | left := max_choice 0 (timeoutMs - (elapsed + waited))
      · rw [spent] at others
        linarith
      · rw [left] at others
        exact le_max_of_le_right (by linarith)

theorem visits_share {before rest : List Visit} {visit : Visit}
    (enough : minResourceBudgetMs * entries.length ≤ timeoutMs - elapsed)
    (split : visits format timeoutMs turns entries elapsed = before ++ visit :: rest)
    (bounded : ∀ earlier ∈ before, earlier.waited ≤ earlier.share) : minResourceBudgetMs ≤ visit.share := by
  induction entries generalizing elapsed before with
  | nil => exact absurd split.symm (List.append_ne_nil_of_right_ne_nil _ (List.cons_ne_nil _ _))
  | cons entry others ih =>
      rw [List.length_cons] at enough
      cases before with
      | nil =>
          rw [List.nil_append, visits] at split
          rw [← (List.cons.inj split).1]
          apply le_share
          have one : minResourceBudgetMs * 1 ≤ minResourceBudgetMs * (others.length + 1 : Nat) := by
            apply mul_le_mul_of_nonneg_left
            · exact Nat.one_le_cast.mpr (Nat.succ_pos _)
            · unfold minResourceBudgetMs
              norm_num
          linarith
      | cons first before =>
          rw [List.cons_append, visits] at split
          obtain ⟨same, later⟩ := List.cons.inj split
          rw [List.forall_mem_cons, ← same] at bounded
          refine ih ?_ later bounded.2
          have leaves := share_leaves enough
          have waited := bounded.1
          dsimp only at waited ⊢
          linarith

/-! ## The report -/

theorem record_fold (visited : List Visit) (report : ResourceStopReport)
    (failed : ∀ visit ∈ visited, visit.outcome.timedOut = true → visit.outcome.error.isSome = true) :
    visited.foldl ResourceStopReport.record report =
      { stopped := report.stopped ++
          (visited.filter fun visit => visit.outcome.error.isNone).map fun visit => visit.resource.name
        failed := report.failed ++ (visited.filter fun visit => visit.outcome.error.isSome).map Visit.outcome
        timedOut := report.timedOut ++
          (visited.filter fun visit => visit.outcome.timedOut).map fun visit => visit.resource.name
        durationMs := report.durationMs + (visited.map Visit.waited).sum } := by
  induction visited generalizing report with
  | nil => simp
  | cons visit rest ih =>
      rw [List.forall_mem_cons] at failed
      rw [List.foldl_cons, ih _ failed.2, ResourceStopReport.record]
      cases late : visit.outcome.timedOut with
      | true =>
          have error := failed.1 late
          simp [late, error, ← Option.not_isSome, add_assoc]
      | false =>
          cases error : visit.outcome.error.isSome with
          | true => simp [late, error, ← Option.not_isSome, add_assoc]
          | false => simp [late, error, ← Option.not_isSome, add_assoc]

theorem reportOf_visits (format : ℚ → String) (timeoutMs : ℚ) (turns : Nat → Turn) (entries : List Resource) :
    reportOf (visits format timeoutMs turns entries 0) =
      { stopped := ((visits format timeoutMs turns entries 0).filter fun visit => visit.outcome.error.isNone).map
          fun visit => visit.resource.name
        failed := ((visits format timeoutMs turns entries 0).filter fun visit => visit.outcome.error.isSome).map
          Visit.outcome
        timedOut := ((visits format timeoutMs turns entries 0).filter fun visit => visit.outcome.timedOut).map
          fun visit => visit.resource.name
        durationMs := ((visits format timeoutMs turns entries 0).map Visit.waited).sum } := by
  have failed (visit) (member : visit ∈ visits format timeoutMs turns entries 0) (late : visit.outcome.timedOut = true) :
      visit.outcome.error.isSome = true := by
    have made : visit.outcome = _ := congrArg Prod.snd (visits_spec member).2
    rw [made] at late ⊢
    exact stopOne_timedOut late
  rw [reportOf, record_fold _ _ failed, List.nil_append, List.nil_append, List.nil_append, zero_add]

/-! ## Any history -/

structure Sound (owner : ResourceOwner) : Prop where
  distinct : (owner.resources.map Resource.id).Nodup
  known : ∀ entry ∈ owner.resources, entry.id < owner.nextId
  once : (owner.visited.map fun visit => visit.resource.id).Nodup
  unvisited : owner.stopPromise = none → owner.visited = []

theorem Sound.step {owner : ResourceOwner} (sound : Sound owner) (format : ℚ → String) (event : Event) :
    Sound (step format owner event) := by
  cases event with
  | add name stop =>
      constructor
      · change ((owner.resources ++ [_]).map Resource.id).Nodup
        rw [List.map_append, List.map_singleton, List.nodup_append]
        refine ⟨sound.distinct, List.nodup_singleton _, ?_⟩
        intro id member last same equal
        obtain ⟨entry, inside, rfl⟩ := List.mem_map.mp member
        rw [List.mem_singleton.mp same] at equal
        exact absurd equal (Nat.ne_of_lt (sound.known entry inside))
      · intro entry member
        obtain earlier | last := List.mem_append.mp member
        · exact Nat.lt_succ_of_lt (sound.known entry earlier)
        · rw [List.mem_singleton.mp last]
          exact Nat.lt_succ_self _
      · exact sound.once
      · exact sound.unvisited
  | unregister id =>
      have fewer : (owner.resources.eraseP fun entry => entry.id = id).Sublist owner.resources := List.eraseP_sublist
      constructor
      · exact sound.distinct.sublist (fewer.map Resource.id)
      · exact fun entry member => sound.known entry (fewer.subset member)
      · exact sound.once
      · exact sound.unvisited
  | stop timeoutMs turns =>
      rw [Shutdown.step, ResourceOwner.stop]
      cases stopped : owner.stopPromise with
      | some report => exact sound
      | none =>
          constructor
          · exact List.nodup_nil
          · intro entry member
            cases member
          · dsimp only
            have same : (visits format timeoutMs turns owner.resources.reverse 0).map (fun visit => visit.resource.id) =
                (owner.resources.map Resource.id).reverse := by
              rw [← List.map_reverse, ← visits_resource format timeoutMs 0 turns owner.resources.reverse, List.map_map,
                visits_resource]
              rfl
            rw [sound.unvisited stopped, List.nil_append, same, List.nodup_reverse]
            exact sound.distinct
          · intro none_
            cases none_

theorem replay_sound (format : ℚ → String) (history : List Event) : Sound (replay (step format) {} history) := by
  refine replay_invariant ?_ (fun owner event sound => sound.step format event) history
  exact ⟨List.nodup_nil, fun entry member => (by cases member), List.nodup_nil, fun _ => rfl⟩

theorem stop_again (format : ℚ → String) {owner : ResourceOwner} {report : ResourceStopReport}
    (stopped : owner.stopPromise = some report) (timeoutMs : ℚ) (turns : Nat → Turn) :
    owner.stop format timeoutMs turns = (report, owner) := by
  rw [ResourceOwner.stop, stopped]

/-- Once stopped, an owner keeps its report and visits nobody. -/
theorem replay_stopped (format : ℚ → String) {owner : ResourceOwner} {report : ResourceStopReport}
    (stopped : owner.stopPromise = some report) (later : List Event) :
    (replay (step format) owner later).stopPromise = some report ∧
      (replay (step format) owner later).visited = owner.visited := by
  refine replay_invariant (motive := fun (next : ResourceOwner) => next.stopPromise = some report ∧ next.visited = owner.visited)
    ⟨stopped, rfl⟩ ?_ later
  intro next event held
  cases event with
  | add name stop => exact held
  | unregister id => exact held
  | stop timeoutMs turns =>
      rw [step, stop_again format held.1]
      exact held

theorem stop_stopped (format : ℚ → String) (owner : ResourceOwner) (timeoutMs : ℚ) (turns : Nat → Turn) :
    (owner.stop format timeoutMs turns).2.stopPromise = some (owner.stop format timeoutMs turns).1 := by
  rw [ResourceOwner.stop]
  split
  next report stopped => exact stopped
  next => rfl

end Dockge.Shutdown
