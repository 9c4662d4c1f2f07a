import Dockge.Updater.Working

namespace Dockge.Updater

open Dockge.Data

/-! Every program of the updater, stopped anywhere, leaves a consistent host. -/

variable {Data : Type} [DecidableEq Data]

section
variable {site : Site} {clear : Prop} {start : Nat} {op : Operation} {host : Host Data}

/-- Every way out leaves the host as a run may leave it. -/
abbrev Leaves {α : Type} (site : Site) (clear : Prop) (start : Nat) (task : HostTask Data α)
    (host : Host Data) (returned : α → Host Data → Prop) : Prop :=
  Ensures Fate.Any task host returned (fun _ => Ended site clear start) (Ended site clear start)

theorem Ended.setJournal (ended : Ended site clear start host) (writable : Writable site op host)
    (fate : Fate) (excused : clear → op.Wedged →
      Excused (host.log.drop start ++ [⟨op, .journal op.phase, fate⟩])) :
    Ended site clear start ({ host with journal := some op }.note op (.journal op.phase) fate) where
  consistent := (ended.consistent.setJournal writable.recorded writable.continues writable.unfailed).note
    op _ fate (by simp)
  grown := grown_written ended.grown
  wedged := by
    rintro isClear found ⟨⟩ wedged
    rw [drop_written ended.grown]
    exact excused isClear wedged

/-- The journal is written, or what it said stays. -/
theorem writeJournal_leaves (ended : Ended site clear start host) (writable : Writable site op host)
    (excused : clear → op.Wedged → Excused (host.log.drop start)) :
    Leaves site clear start (writeJournal op) host fun _ => Ended site clear start := by
  have written (fate) := ended.setJournal writable fate fun isClear wedged => (excused isClear wedged).snoc _
  exact perform_ensures (written _) (fun _ => written _) (fun _ => ended.note _ _ _ (by simp))
    (ended.note _ _ _ (by simp))

/-- The record that the operator is needed. -/
theorem requireRecovery_leaves (ended : Ended site clear start host) (result : UpdateError)
    (writable : Writable site { op with phase := .recoveryRequired } host)
    (failed : Operation.Wedged { op with phase := .recoveryRequired } →
      ∃ entry ∈ host.log.drop start, FailedBeforeSnapshot entry) :
    Leaves site clear start (requireRecovery op result) host fun _ _ => False := by
  unfold requireRecovery
  have written {fate} (took : fate = Fate.ok ∨ fate = .late) := ended.setJournal writable fate
    fun _ wedged => by
      obtain ⟨entry, member, before⟩ := failed wedged
      exact ⟨entry, List.mem_append_left _ member, _, List.mem_append_right _ (List.mem_singleton.mpr rfl),
        .inl ⟨before, rfl, took⟩⟩
  refine Ensures.bind (fun _ => Ended site clear start) (Ensures.ignore ?_) ?_
  · exact perform_ensures (written (.inl rfl)) (fun _ => written (.inr rfl)) (fun _ => ended.note _ _ _ (by simp))
      (ended.note _ _ _ (by simp))
  · intro _ reached ended
    exact Ensures.fail ended

theorem Working.required (working : Working site start op host) (phase : op.phase ≠ .prepared) :
    Writable site { op with phase := .recoveryRequired } host where
  recorded := by
    have valid := working.validOperation phase fun same => by
      rcases working.cutover with ⟨_, other, _⟩ | starting
      · exact other same
      · rcases starting with other | other <;> simp [same] at other
    exact working.recorded_as (fun _ => rfl) (.inr (.inr valid)) (by simp) (by simp)
  continues := working.settled.continues
  unfailed := fun _ => working.unfailed

theorem Working.performs {command : Command} (working : Working site start op host)
    (inert : ∀ side, command ≠ .up side) :
    Ensures Fate.Any (perform op command) host (fun _ => Working site start op) (fun _ => Working site start op)
      (Ended site clear start) :=
  perform_ensures (working.note op command _ inert) (fun _ => working.note op command _ inert)
    (fun _ => working.note op command _ inert) (working.note op command _ inert).ended

/-- The journal of the operation, kept where it cannot be written. -/
theorem Working.writes (working : Working site start op host) :
    Ensures Fate.Any (writeJournal op) host
      (fun _ reached => Working site start op reached ∧ reached.journal = some op)
      (fun _ => Working site start op) (Ended site clear start) := by
  have written (fate) := working.setJournal.note op (.journal op.phase) fate (by simp)
  have kept (fate) := working.note op (.journal op.phase) fate (by simp)
  exact perform_ensures ⟨written _, rfl⟩ (fun _ => written _) (fun _ => kept _) (kept _).ended

end

/-! ### Recovery of a failed update -/

section
variable {site : Site} {clear : Prop} {start : Nat} {op : Operation} {previous : Installed}
  {host : Host Data}

theorem Restoring.not_wedged (restoring : Restoring site start op previous host) : ¬ op.Wedged := by
  rintro ⟨_, ⟨_, unrestored⟩ | ⟨phase, _⟩⟩
  · simp [restoring.restores] at unrestored
  · simp [restoring.rolling] at phase

theorem Restoring.ended (restoring : Restoring site start op previous host) :
    Ended site clear start host where
  consistent := restoring.consistent
  grown := restoring.grown
  wedged := by
    intro _ found held wedged
    rw [restoring.journal] at held
    cases held
    exact absurd wedged restoring.not_wedged

theorem Restoring.recorded (restoring : Restoring site start op previous host) : Recorded site host op :=
  restoring.consistent.journal op restoring.journal

theorem Restoring.validOperation (restoring : Restoring site start op previous host) :
    validateOperation op = none := by
  rcases restoring.recorded.valid with phase | phase | valid
  · simp [restoring.rolling] at phase
  · simp [restoring.rolling] at phase
  · exact valid

theorem Restoring.required (restoring : Restoring site start op previous host) :
    Writable site { op with phase := .recoveryRequired } host where
  recorded := restoring.recorded.rephase (fun _ => rfl) restoring.validOperation (fun _ => .inr (.inl rfl))
    (by simp) (by simp)
  continues := by
    intro id path unfinished
    obtain ⟨rfl, rfl, _⟩ := restoring.unfinished unfinished
    exact ⟨rfl, restoring.restores, .inr rfl, previous, restoring.previous, rfl⟩
  unfailed := by
    rintro ((phase | phase) | ⟨_, unrestored⟩)
    · cases phase
    · cases phase
    · simp [restoring.restores] at unrestored

theorem Restoring.verified (restoring : Restoring site start op previous host) : op.backupVerified = true :=
  restoring.recorded.restoresVerified restoring.restores

theorem Restoring.requires (restoring : Restoring site start op previous host)
    (result : UpdateError) : Leaves site clear start (requireRecovery op result) host fun _ _ => False := by
  refine requireRecovery_leaves restoring.ended result restoring.required ?_
  rintro ⟨_, ⟨phase, _⟩ | ⟨_, unverified⟩⟩
  · cases phase
  · simp [restoring.verified] at unverified

theorem Back.recovered (back : Back site start op previous host) :
    Writable site { op with phase := .recovered } host where
  recorded := back.restoring.recorded.rephase (fun _ => rfl) back.restoring.validOperation
    (fun _ => .inr (.inr rfl)) (by simp) (by simp)
  continues := (back.restoring.settled back.present).continues
  unfailed := by
    rintro ((phase | phase) | ⟨phase, _⟩) <;> cases phase

theorem not_wedged_recovered : ¬ Operation.Wedged { op with phase := .recovered } := by
  rintro ⟨_, ⟨phase, _⟩ | ⟨phase, _⟩⟩ <;> cases phase

/-- Starting the previous version on the restored data. -/
theorem Back.up_previous (back : Back site start op previous host)
    (completed : SinceTarget host.log op.id RestoreCompleted) (fate : Fate) :
    Back site start op previous (host.note op (.up .previous) fate) where
  restoring := { back.restoring with
    consistent := back.restoring.consistent.note_up_previous fate fun _ _ => ⟨back.placed, completed⟩
    grown := grown_note back.restoring.grown }
  present := back.present
  placed := back.placed.snoc (by simp)

theorem Back.setActive (back : Back site start op previous host) (active : Option Installed) :
    Back site start op previous { host with active } where
  restoring := { back.restoring with consistent := back.restoring.consistent.setActive active }
  present := back.present
  placed := back.placed

theorem checkRestore_keeps {dataDir : Path} {Holds : Host Data → Prop} (holds : Holds host)
    (stable : ∀ host fate, Holds host → Holds (host.note op .inspect fate)) :
    Ensures Fate.Any (checkRestore site op dataDir) host
      (fun _ reached => Holds reached ∧ op.backupVerified = true ∧ validateRestore site dataDir = none)
      (fun _ => Holds) Holds := by
  unfold checkRestore
  refine Ensures.bind (fun _ reached => host = reached ∧ op.backupVerified = true)
    (refuseIf_ensures (fun passed => ⟨rfl, by simpa using passed⟩) fun _ => holds) ?_
  rintro _ _ ⟨rfl, verified⟩
  refine Ensures.bind (fun _ reached => host = reached ∧ validateRestore site dataDir = none)
    (refuseIf_ensures (fun passed => ⟨rfl, passed⟩) fun _ => holds) ?_
  rintro _ _ ⟨rfl, allowed⟩
  refine Ensures.bind (fun value reached => host = value ∧ host = reached)
    (Ensures.look ⟨rfl, rfl⟩) ?_
  rintro _ _ ⟨rfl, rfl⟩
  refine Ensures.bind (fun _ reached => host = reached)
    (refuseIf_ensures (fun _ => rfl) fun _ => holds) ?_
  rintro _ _ rfl
  exact (perform_keeps fun fate => stable host fate holds).mono
    (fun _ _ kept => ⟨kept, verified, allowed⟩) (fun _ _ => id) (fun _ => id)

/-- From the restored data to the record of the recovery. -/
theorem Back.recovers (back : Back site start op previous host) :
    Leaves site clear start (writeJournal { op with phase := .recovered }) host
      fun _ => Ended site clear start :=
  writeJournal_leaves back.restoring.ended back.recovered
    fun _ wedged => absurd wedged not_wedged_recovered

theorem Back.performs {command : Command} (back : Back site start op previous host)
    (inert : ∀ side, command ≠ .up side) :
    Ensures Fate.Any (perform op command) host (fun _ => Back site start op previous)
      (fun _ => Restoring site start op previous) (Ended site clear start) :=
  perform_ensures (back.note command _ inert) (fun _ => (back.note command _ inert).restoring)
    (fun _ => (back.note command _ inert).restoring) (back.note command _ inert).restoring.ended

/-- An operation whose target may have started, once its snapshot can be restored. -/
theorem Working.restore (working : Working site start op host) (same : op.previous = some previous)
    (starting : op.Starting) (allowed : validateRestore site previous.dataDir = none) :
    Recorded site host { op with restoreData := true, phase := .rollingBack } where
  below := working.recorded.below
  started := fun _ => rfl
  hasPrevious := working.recorded.hasPrevious
  valid := by
    rcases starting with phase | phase <;>
      exact .inr (.inr (working.validOperation (by simp [phase]) (by simp [phase])))
  restoring := fun _ => .inl rfl
  restoresVerified := fun _ => working.recorded.verified starting
  restorable := by
    intro found held _
    have : found = previous := Option.some.inj (held.symm.trans same)
    rw [this]
    exact allowed
  snapshot := working.recorded.snapshot
  unverified := by simp
  verified := by
    rintro (phase | phase) <;> cases phase

theorem restoreAfterFailedStart_leaves (working : Working site start op host)
    (same : op.previous = some previous) (starting : op.Starting) (cause : UpdateError) :
    Leaves site clear start (restoreAfterFailedStart site op previous cause) host fun _ _ => False := by
  have prepared : op.phase ≠ .prepared := by
    rcases starting with phase | phase <;> simp [phase]
  unfold restoreAfterFailedStart
  dsimp only
  refine Ensures.bind (fun _ reached => Working site start op reached ∧
    validateRestore site previous.dataDir = none) ?_ ?_
  · refine Ensures.orElse (fun _ => Working site start op) ?_ ?_
    · exact (checkRestore_keeps working fun _ _ held => held.note op _ _ (by simp)).mono
        (fun _ _ checked => ⟨checked.1, checked.2.2⟩) (fun _ _ => id) (fun _ held => held.ended)
    · intro error host working
      refine (requireRecovery_leaves working.ended _ (working.required prepared) ?_).mono
        (fun _ _ => False.elim) (fun _ _ => id) (fun _ => id)
      rintro ⟨_, ⟨phase, _⟩ | ⟨_, unverified⟩⟩
      · cases phase
      · simp [working.recorded.verified starting] at unverified
  rintro _ host ⟨working, allowed⟩
  -- From the record of the rollback on, the restore has to be finished
  have recorded := working.restore same starting allowed
  have rolling : ∀ fate, Restoring site start { op with restoreData := true, phase := .rollingBack } previous
      (({ host with journal := some { op with restoreData := true, phase := .rollingBack } } : Host Data).note
        { op with restoreData := true, phase := .rollingBack } (.journal .rollingBack) fate) := by
    intro fate
    refine ⟨?_, grown_written working.grown, rfl, rfl, rfl, same⟩
    refine (working.consistent.setJournal recorded working.settled.continues ?_).note _ _ fate (by simp)
    rintro ((phase | phase) | ⟨phase, _⟩) <;> cases phase
  have requires {host : Host Data} {op : Operation} (restoring : Restoring site start op previous host)
      (result : UpdateError) :
      Leaves site clear start (requireRecovery op result) host fun _ => Back site start op previous :=
    (restoring.requires result).mono (fun _ _ => False.elim) (fun _ _ => id) (fun _ => id)
  refine Ensures.bind (fun _ =>
    Restoring site start { op with restoreData := true, phase := .rollingBack } previous) ?_ ?_
  · refine Ensures.orElse (fun _ reached =>
      Restoring site start { op with restoreData := true, phase := .rollingBack } previous reached ∨
        Working site start op reached) ?_ ?_
    · have kept (fate) := working.note { op with restoreData := true, phase := .rollingBack }
        (.journal .rollingBack) fate (by simp)
      exact perform_ensures (rolling _) (fun _ => .inl (rolling _)) (fun _ => .inr (kept _)) (kept _).ended
    · rintro error host (restoring | working)
      · exact (restoring.requires _).mono (fun _ _ => False.elim) (fun _ _ => id) (fun _ => id)
      · refine (requireRecovery_leaves working.ended _ ?_ ?_).mono
          (fun _ _ => False.elim) (fun _ _ => id) (fun _ => id)
        · refine ⟨(working.restore same starting allowed).rephase (fun _ => rfl)
            ((working.validOperation prepared ?_)) (fun _ => .inr (.inl rfl)) (by simp) (by simp),
            working.settled.continues, fun _ => working.unfailed⟩
          rcases starting with phase | phase <;> simp [phase]
        · rintro ⟨_, ⟨phase, _⟩ | ⟨_, unverified⟩⟩
          · cases phase
          · simp [working.recorded.verified starting] at unverified
  intro _ host restoring
  refine Ensures.bind (fun _ reached =>
    Back site start { op with restoreData := true, phase := .rollingBack } previous reached ∧
      SinceTarget reached.log op.id RestoreCompleted) ?_ ?_
  · refine Ensures.orElse (fun _ =>
      Restoring site start { op with restoreData := true, phase := .rollingBack } previous) ?_ ?_
    · exact (restoreSnapshot_ensures restoring).mono (fun _ _ => id) (fun _ _ => id)
        (fun _ restoring => restoring.ended)
    · intro error host restoring
      split
      · exact Ensures.fail restoring.ended
      · exact (restoring.requires _).mono (fun _ _ => False.elim) (fun _ _ => id) (fun _ => id)
  rintro _ host ⟨back, completed⟩
  refine Ensures.bind (fun _ =>
    Back site start { op with restoreData := true, phase := .rollingBack } previous) ?_ ?_
  · refine Ensures.orElse (fun _ =>
      Restoring site start { op with restoreData := true, phase := .rollingBack } previous) ?_
      (fun _ _ restoring => requires restoring _)
    have started (fate) := back.up_previous completed fate
    exact perform_ensures (started _) (fun _ => (started _).restoring) (fun _ => (started _).restoring)
      (started _).restoring.ended
  intro _ host back
  refine Ensures.bind (fun _ =>
    Back site start { op with restoreData := true, phase := .rollingBack } previous)
    (Ensures.orElse _ (back.performs (by simp)) fun _ _ restoring => requires restoring _) ?_
  intro _ host back
  refine Ensures.bind _ back.recovers ?_
  intro _ host ended
  exact Ensures.fail ended

/-- Only before its snapshot is verified does a recovery record a wedged operation. -/
theorem Working.requires (working : Working site start op host)
    (stopped : op.phase = .stopping ∨ op.phase = .backingUp ∨ op.Starting) (result : UpdateError)
    {returned : Unit → Host Data → Prop}
    (failed : op.schemaChanged = true → mayHaveStarted op.phase = false →
      ∃ entry ∈ host.log.drop start, FailedBeforeSnapshot entry) :
    Leaves site clear start (requireRecovery op result) host returned := by
  have prepared : op.phase ≠ .prepared := by
    rcases stopped with phase | phase | phase | phase <;> simp [phase]
  refine (requireRecovery_leaves working.ended result (working.required prepared) ?_).mono
    (fun _ _ => False.elim) (fun _ _ => id) (fun _ => id)
  rintro ⟨changed, ⟨phase, _⟩ | ⟨_, unverified⟩⟩
  · cases phase
  · cases begun : mayHaveStarted op.phase with
    | false => exact failed changed begun
    | true =>
        rcases working.cutover with ⟨early, _⟩ | starting
        · simp [begun] at early
        · simp [working.recorded.verified starting] at unverified

theorem restartPrevious_leaves (working : Working site start op host)
    (stopped : op.phase = .stopping ∨ op.phase = .backingUp ∨ op.Starting)
    (early : op.schemaChanged = true → mayHaveStarted op.phase = false) (cause : UpdateError) :
    Leaves site clear start (restartPrevious op cause) host fun _ _ => False := by
  -- A failure of the previous version is the excuse of the record it leads to
  have requires {host : Host Data} {command : Command} (working : Working site start op host)
      (fate : Fate) (bad : fate = .fail ∨ fate = .late)
      (starts : command = .up .previous ∨ command = .verifyRuntime .previous)
      (noted : Working site start op (host.note op command fate)) (result : UpdateError) :
      Leaves site clear start (requireRecovery op result) (host.note op command fate)
        fun _ => Working site start op := by
    refine noted.requires stopped result ?_
    intro changed begun
    rw [drop_note working.grown]
    refine ⟨_, List.mem_append_right _ (List.mem_singleton.mpr rfl), starts, bad, changed, ?_⟩
    rcases stopped with phase | phase | starting
    · exact .inl phase
    · exact .inr phase
    · simp [starting.mayHaveStarted] at begun
  unfold restartPrevious
  refine Ensures.bind (fun _ => Working site start op) ?_ ?_
  · refine Ensures.orElse (fun _ reached => ∃ fate, (fate = .fail ∨ fate = .late) ∧
      reached = host.note op (.up .previous) fate) ?_ ?_
    · exact perform_ensures (working.up_previous early) (fun _ => ⟨.late, .inr rfl, rfl⟩)
        (fun _ => ⟨.fail, .inl rfl, rfl⟩) (working.up_previous early).ended
    · rintro _ _ ⟨fate, bad, rfl⟩
      exact requires working fate bad (.inl rfl) (working.up_previous early) _
  intro _ host working
  refine Ensures.bind (fun _ => Working site start op) ?_ ?_
  · refine Ensures.orElse (fun _ reached => ∃ fate, (fate = .fail ∨ fate = .late) ∧
      reached = host.note op (.verifyRuntime .previous) fate) ?_ ?_
    · exact perform_ensures (working.note op _ _ (by simp)) (fun _ => ⟨.late, .inr rfl, rfl⟩)
        (fun _ => ⟨.fail, .inl rfl, rfl⟩) (working.note op _ _ (by simp)).ended
    · rintro _ _ ⟨fate, bad, rfl⟩
      exact requires working fate bad (.inr rfl) (working.note op _ _ (by simp)) _
  intro _ host working
  refine Ensures.bind (fun _ => Ended site clear start) ?_ ?_
  · refine writeJournal_leaves working.ended ⟨?_, working.settled.continues, fun _ => working.unfailed⟩
      fun _ wedged => absurd wedged not_wedged_recovered
    have valid : validateOperation op = none := by
      rcases stopped with phase | phase | phase | phase <;>
        exact working.validOperation (by simp [phase]) (by simp [phase])
    exact working.recorded_as (fun _ => rfl) (.inr (.inr valid)) (by simp) (by simp)
  · intro _ _ ended
    exact Ensures.fail ended

theorem recoverOperation_leaves (working : Working site start op host)
    (stopped : op.phase = .stopping ∨ op.phase = .backingUp ∨ op.Starting)
    (restoreOnFailedStart : Bool) (cause : UpdateError) :
    Leaves site clear start (recoverOperation site restoreOnFailedStart op cause) host fun _ _ => False := by
  unfold recoverOperation
  refine Ensures.bind (fun _ => Working site start op) ?_ ?_
  · refine Ensures.onlyIf ?_ (fun _ => working)
    intro incomplete
    simp only [Bool.and_eq_true, Bool.not_eq_true'] at incomplete
    have removed (content fate) := (working.setBackup incomplete.1
      (Function.update host.backup op.id content) host.recorded
      (fun other different => ⟨Function.update_of_ne different _ _, rfl⟩)).note
      op .removeBackup fate (by simp)
    exact Ensures.ignore (perform_ensures (removed _ _) (fun _ => removed _ _) (fun _ => removed _ _)
      (removed _ _).ended)
  intro _ host working
  refine Ensures.bind (fun _ => Working site start op) ?_ ?_
  · refine Ensures.onlyIf ?_ (fun _ => working)
    intro begun
    refine Ensures.orElse (fun _ => Working site start op) (working.performs (by simp)) ?_
    intro _ host working
    exact working.requires stopped _ fun _ early => by simp [begun] at early
  intro _ host working
  obtain ⟨previous, same⟩ := Option.isSome_iff_exists.mp working.recorded.hasPrevious
  simp only [same]
  split
  · rename_i restore
    simp only [Bool.and_eq_true] at restore
    have starting : op.Starting := by
      rcases working.cutover with ⟨early, _⟩ | starting
      · simp [restore.1.1] at early
      · exact starting
    exact restoreAfterFailedStart_leaves working same starting cause
  · split
    · rename_i changed
      simp only [Bool.and_eq_true] at changed
      exact working.requires stopped _ fun _ early => by simp [changed.1] at early
    · rename_i unchanged
      refine restartPrevious_leaves working stopped ?_ cause
      intro changed
      simpa [changed] using unchanged

theorem recoverFailure_leaves (working : Working site start op host)
    (stopped : op.phase = .stopping ∨ op.phase = .backingUp ∨ op.Starting)
    (restoreOnFailedStart : Bool) (cause : UpdateError) :
    Leaves site clear start (recoverFailure site restoreOnFailedStart op cause) host fun _ _ => False :=
  recoverOperation_leaves (working.annotate (some cause) op.backup) stopped restoreOnFailedStart cause

end

/-! ### Rollback -/

section
variable {site : Site} {clear : Prop} {start : Nat} {op : Operation} {previous : Installed}
  {host : Host Data}

/-- A recorded operation that a rollback looks at: the journal's, or a kept one while no
restore is unfinished. -/
structure Holding (site : Site) (clear : Prop) (start : Nat) (op : Operation) (host : Host Data) :
    Prop where
  ended : Ended site clear start host
  recorded : Recorded site host op
  known : host.journal = some op ∨ Settled host

theorem Holding.note (holding : Holding site clear start op host) (command : Command) (fate : Fate)
    (inert : ∀ side, command ≠ .up side) :
    Holding site clear start op (host.note op command fate) where
  ended := holding.ended.note op command fate inert
  recorded := holding.recorded.note op command fate (inert .target)
  known := holding.known

theorem Holding.inspects (holding : Holding site clear start op host) :
    Leaves site clear start (inspect op) host fun _ => Holding site clear start op :=
  (perform_keeps fun fate => holding.note _ fate (by simp)).mono (fun _ _ => id)
    (fun _ _ held => held.ended) (fun _ held => held.ended)

/-- A rollback without the data, once it is recorded: only a run that goes through leaves an
operation whose schemas differ. -/
structure RollingBack (site : Site) (start : Nat) (op : Operation) (host : Host Data) : Prop where
  consistent : Consistent site host
  grown : start ≤ host.log.length
  journal : host.journal = some op
  rolling : op.phase = .rollingBack
  plain : op.restoreData = false
  valid : validateOperation op = none
  rolled : op.schemaChanged = true → ∃ entry ∈ host.log.drop start, UnverifiedRollback entry
  unstarted : op.schemaChanged = true → ¬ TargetStarted host.log op.id

theorem RollingBack.note {command : Command} (rolling : RollingBack site start op host) (fate : Fate)
    (consistent : Consistent site (host.note op command fate)) (other : command ≠ .up .target) :
    RollingBack site start op (host.note op command fate) :=
  { rolling with
    consistent := consistent
    grown := grown_note rolling.grown
    rolled := by
      intro changed
      obtain ⟨entry, member, rolled⟩ := rolling.rolled changed
      rw [drop_note rolling.grown]
      exact ⟨entry, List.mem_append_left _ member, rolled⟩
    unstarted := by
      intro changed started
      rcases targetStarted_snoc.mp started with before | ⟨_, last⟩
      · exact rolling.unstarted changed before
      · exact other last }

/-- Whatever goes wrong in it excuses the journal it leaves. -/
theorem RollingBack.ended {command : Command} {fate : Fate} (rolling : RollingBack site start op host)
    (consistent : Consistent site (host.note op command fate)) (other : command ≠ .up .target)
    (missed : Missed ⟨op, command, fate⟩) : Ended site clear start (host.note op command fate) where
  consistent := consistent
  grown := grown_note rolling.grown
  wedged := by
    intro _ found held wedged
    have same : found = op := Option.some.inj (held.symm.trans rolling.journal)
    obtain ⟨entry, member, rolled⟩ := (rolling.note fate consistent other).rolled (same ▸ wedged.1)
    refine ⟨entry, member, ⟨op, command, fate⟩, ?_, .inr ⟨rolled, missed⟩⟩
    rw [drop_note rolling.grown]
    exact List.mem_append_right _ (List.mem_singleton.mpr rfl)

theorem RollingBack.performs {command : Command} {effect : Host Data → Host Data}
    (rolling : RollingBack site start op host) (other : command ≠ .up .target)
    (records : ∀ phase, command ≠ .journal phase)
    (kept : ∀ fate, Consistent site (host.note op command fate))
    (took : RollingBack site start op (effect host))
    (taken : ∀ fate, Consistent site ((effect host).note op command fate)) :
    Leaves site clear start (perform op command effect) host fun _ => RollingBack site start op := by
  have missed {fate : Fate} (bad : fate ≠ .ok) : Missed ⟨op, command, fate⟩ :=
    ⟨bad, fun late => records _ late.1⟩
  exact perform_ensures (took.note _ (taken _) other)
    (fun _ => took.ended (taken _) other (missed (by simp)))
    (fun _ => rolling.ended (kept _) other (missed (by simp)))
    (rolling.ended (kept _) other (missed (by simp)))

theorem RollingBack.asks {command : Command} (rolling : RollingBack site start op host)
    (inert : ∀ side, command ≠ .up side) (records : ∀ phase, command ≠ .journal phase) :
    Leaves site clear start (perform op command) host fun _ => RollingBack site start op :=
  rolling.performs (inert .target) records (fun fate => rolling.consistent.note op command fate inert) rolling
    (fun fate => rolling.consistent.note op command fate inert)

theorem RollingBack.up_previous (rolling : RollingBack site start op host) :
    Leaves site clear start (up op .previous) host fun _ => RollingBack site start op := by
  have started (fate) := rolling.consistent.note_up_previous fate
    fun changed begun => absurd begun (rolling.unstarted changed)
  exact rolling.performs (by simp) (by simp) started rolling started

theorem RollingBack.settled (rolling : RollingBack site start op host) : Settled host := by
  rintro id path ⟨found, _, held, _, restores, _⟩
  have same : found = op := Option.some.inj (held.symm.trans rolling.journal)
  rw [same, rolling.plain] at restores
  cases restores

theorem RollingBack.setActive (rolling : RollingBack site start op host) (active : Option Installed) :
    RollingBack site start op { host with active } :=
  { rolling with consistent := rolling.consistent.setActive active }

/-- The last step: the journal shows the recovery, or what it showed is excused. -/
theorem RollingBack.recovers (rolling : RollingBack site start op host) :
    Leaves site clear start (writeJournal { op with phase := .recovered }) host
      fun _ => Ended site clear start := by
  have recorded := rolling.consistent.journal op rolling.journal
  have writable : Writable site { op with phase := .recovered } host := by
    refine ⟨recorded.rephase (fun _ => rfl) rolling.valid (fun _ => .inr (.inr rfl)) (by simp) (by simp),
      rolling.settled.continues, ?_⟩
    rintro ((phase | phase) | ⟨phase, _⟩) <;> cases phase
  have written (fate) : Ended site clear start (({ host with
      journal := some { op with phase := .recovered } } : Host Data).note { op with phase := .recovered }
        (.journal .recovered) fate) := by
    refine ⟨(rolling.consistent.setJournal writable.recorded writable.continues
      writable.unfailed).note _ _ fate (by simp), grown_written rolling.grown, ?_⟩
    rintro _ found ⟨⟩ wedged
    exact absurd wedged not_wedged_recovered
  have kept {fate : Fate} (bad : fate = .fail ∨ fate = .kill) : Ended site clear start
      (host.note { op with phase := .recovered } (.journal .recovered) fate) := by
    refine ⟨rolling.consistent.note _ _ fate (by simp), grown_note rolling.grown, ?_⟩
    intro _ found held wedged
    have same : found = op := Option.some.inj (held.symm.trans rolling.journal)
    obtain ⟨entry, member, rolled⟩ := rolling.rolled (same ▸ wedged.1)
    rw [drop_note rolling.grown]
    refine ⟨entry, List.mem_append_left _ member, _, List.mem_append_right _ (List.mem_singleton.mpr rfl),
      .inr ⟨rolled, ?_⟩⟩
    rcases bad with rfl | rfl <;> exact ⟨by simp, by simp⟩
  exact perform_ensures (written _) (fun _ => written _) (fun _ => kept (.inl rfl)) (kept (.inr rfl))

theorem rollbackRecorded_leaves (holding : Holding site clear start op host)
    (same : op.previous = some previous) (valid : validateOperation op = none) (restoreData : Bool) :
    Leaves site clear start (rollbackRecorded site op previous restoreData) host
      fun _ => Ended site clear start := by
  unfold rollbackRecorded
  refine Ensures.bind _ holding.inspects ?_
  intro _ host holding
  refine Ensures.bind (fun _ reached => host = reached ∧
    (op.restoreData = true ∨ (mayHaveStarted op.phase = true ∧ op.schemaChanged = true) →
      restoreData = true)) ?_ ?_
  · refine refuseIf_ensures (fun passed => ⟨rfl, ?_⟩) fun _ => holding.ended
    intro must
    by_contra without
    rw [Bool.not_eq_true] at without
    rcases must with restores | ⟨begun, changed⟩
    · simp [restores, without] at passed
    · simp [begun, changed, without] at passed
  rintro _ _ ⟨rfl, mustRestore⟩
  refine Ensures.bind _ holding.inspects ?_
  intro _ host holding
  refine Ensures.bind (fun _ reached => Holding site clear start op reached ∧
    (restoreData = true → op.backupVerified = true ∧
      validateRestore site previous.dataDir = none)) ?_ ?_
  · refine Ensures.onlyIf ?_ ?_
    · intro _
      exact (checkRestore_keeps holding fun _ fate held => held.note _ fate (by simp)).mono
        (fun _ _ checked => ⟨checked.1, fun _ => checked.2⟩) (fun _ _ held => held.ended)
        (fun _ held => held.ended)
    · intro without
      exact ⟨holding, fun restores => by simp [without] at restores⟩
  rintro _ host ⟨holding, checked⟩
  refine Ensures.bind _ holding.inspects ?_
  intro _ host holding
  -- The rollback is recorded
  have writable : Writable site { op with restoreData, phase := .rollingBack } host := by
    refine ⟨⟨holding.recorded.below, fun _ => rfl, holding.recorded.hasPrevious, .inr (.inr valid),
      fun _ => .inl rfl, fun restores => (checked restores).1, ?_, holding.recorded.snapshot, by simp, ?_⟩,
      ?_, ?_⟩
    · intro found held restores
      have : found = previous := Option.some.inj (held.symm.trans same)
      rw [this]
      exact (checked restores).2
    · rintro (phase | phase) <;> cases phase
    · intro id path unfinished
      rcases holding.known with journal | settled
      · obtain ⟨found, recorded, held, rfl, restores, _, samePrevious, rfl, _⟩ := unfinished
        have sameOp : found = op := Option.some.inj (held.symm.trans journal)
        subst sameOp
        exact ⟨rfl, mustRestore (.inl restores), .inl rfl, recorded, samePrevious, rfl⟩
      · exact absurd unfinished (settled id path)
    · rintro ((phase | phase) | ⟨phase, _⟩) <;> cases phase
  have consistent (fate) := ((holding.ended.consistent.setJournal writable.recorded writable.continues
    writable.unfailed).note
      { op with restoreData, phase := .rollingBack } (.journal .rollingBack) fate (by simp))
  have grown (fate) : start ≤ (({ host with
      journal := some { op with restoreData, phase := .rollingBack } } : Host Data).note
        { op with restoreData, phase := .rollingBack } (.journal .rollingBack) fate).log.length :=
    grown_written holding.ended.grown
  cases restoreData with
  | true =>
      have rolling (fate) : Restoring site start { op with restoreData := true, phase := .rollingBack }
          previous _ := ⟨consistent fate, grown fate, rfl, rfl, rfl, same⟩
      refine Ensures.bind (fun _ =>
        Restoring site start { op with restoreData := true, phase := .rollingBack } previous) ?_ ?_
      · exact perform_ensures (rolling _) (fun _ => (rolling _).ended)
          (fun _ => holding.ended.note _ _ _ (by simp)) (holding.ended.note _ _ _ (by simp))
      intro _ host restoring
      refine Ensures.bind (fun _ =>
        Restoring site start { op with restoreData := true, phase := .rollingBack } previous) ?_ ?_
      · exact (perform_keeps fun fate => restoring.note _ fate (by simp)).mono (fun _ _ => id)
          (fun _ _ held => held.ended) (fun _ held => held.ended)
      intro _ host restoring
      refine Ensures.bind (fun _ reached =>
        Back site start { op with restoreData := true, phase := .rollingBack } previous reached ∧
          SinceTarget reached.log op.id RestoreCompleted) ?_ ?_
      · exact (restoreSnapshot_ensures restoring).mono (fun _ _ => id) (fun _ _ held => held.ended)
          (fun _ held => held.ended)
      rintro _ host ⟨back, completed⟩
      have leaves {command : Command} {effect : Host Data → Host Data} {host : Host Data}
          (kept : ∀ fate, Back site start { op with restoreData := true, phase := .rollingBack } previous
            (host.note { op with restoreData := true, phase := .rollingBack } command fate))
          (taken : ∀ fate, Back site start { op with restoreData := true, phase := .rollingBack } previous
            ((effect host).note { op with restoreData := true, phase := .rollingBack } command fate)) :
          Leaves site clear start
            (perform { op with restoreData := true, phase := .rollingBack } command effect) host
            fun _ => Back site start { op with restoreData := true, phase := .rollingBack } previous :=
        perform_ensures (taken _) (fun _ => (taken _).restoring.ended) (fun _ => (kept _).restoring.ended)
          (kept _).restoring.ended
      have started (fate) := back.up_previous completed fate
      refine Ensures.bind _ (leaves started started) ?_
      intro _ host back
      have checked (fate) := back.note (.verifyRuntime .previous) fate (by simp)
      refine Ensures.bind _ (leaves checked checked) ?_
      intro _ host back
      refine Ensures.bind _ (leaves (fun fate => back.note _ fate (by simp)) fun fate =>
        (back.setActive _).note _ fate (by simp)) ?_
      intro _ host back
      exact back.recovers
  | false =>
      have unrestored : ¬ (op.restoreData = true ∨
          (mayHaveStarted op.phase = true ∧ op.schemaChanged = true)) := fun must => by
        simpa using mustRestore must
      have unstarted : op.schemaChanged = true → ¬ TargetStarted host.log op.id := by
        intro changed started
        exact unrestored (.inr ⟨holding.recorded.started started, changed⟩)
      have recordedEntry (fate) (took : fate = Fate.ok ∨ fate = .late) (changed : op.schemaChanged = true) :
          UnverifiedRollback ⟨{ op with restoreData := false, phase := .rollingBack },
            .journal .rollingBack, fate⟩ := ⟨rfl, took, changed, rfl⟩
      refine Ensures.bind (fun _ =>
        RollingBack site start { op with restoreData := false, phase := .rollingBack }) ?_ ?_
      · refine perform_ensures ?_ ?_ (fun _ => holding.ended.note _ _ _ (by simp)) (holding.ended.note _ _ _ (by simp))
        · refine ⟨consistent _, grown _, rfl, rfl, rfl, valid, ?_, ?_⟩
          · intro changed
            rw [drop_written holding.ended.grown]
            exact ⟨_, List.mem_append_right _ (List.mem_singleton.mpr rfl),
              recordedEntry .ok (.inl rfl) changed⟩
          · intro changed started
            rcases targetStarted_snoc.mp started with before | ⟨_, last⟩
            · exact unstarted changed before
            · cases last
        · intro _
          refine ⟨consistent _, grown _, ?_⟩
          rintro _ found ⟨⟩ wedged
          rw [drop_written holding.ended.grown]
          have last : (⟨{ op with restoreData := false, phase := .rollingBack }, .journal .rollingBack,
              .late⟩ : Entry) ∈ host.log.drop start ++
                [⟨{ op with restoreData := false, phase := .rollingBack }, .journal .rollingBack, .late⟩] :=
            List.mem_append_right _ (List.mem_singleton.mpr rfl)
          exact ⟨_, last, _, last, .inr ⟨recordedEntry .late (.inr rfl) wedged.1, by simp, by simp⟩⟩
      intro _ host rolling
      refine Ensures.bind _ (rolling.asks (by simp) (by simp)) ?_
      intro _ host rolling
      refine Ensures.bind (fun _ =>
        RollingBack site start { op with restoreData := false, phase := .rollingBack })
        (Ensures.pure rolling) ?_
      intro _ host rolling
      refine Ensures.bind _ rolling.up_previous ?_
      intro _ host rolling
      refine Ensures.bind _ (rolling.asks (by simp) (by simp)) ?_
      intro _ host rolling
      refine Ensures.bind _ (rolling.performs (by simp) (by simp)
        (fun fate => rolling.consistent.note _ _ fate (by simp)) (rolling.setActive _)
        (fun fate => (rolling.setActive _).consistent.note _ _ fate (by simp))) ?_
      intro _ host rolling
      exact rolling.recovers

end

end Dockge.Updater
