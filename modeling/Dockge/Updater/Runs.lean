import Dockge.Data.History
import Dockge.Updater.Keeping

namespace Dockge.Updater

open Dockge.Data

/-! One run of the updater, and runs one after another. -/

variable {Data : Type} [DecidableEq Data]

section
variable {site : Site} {clear : Prop} {start : Nat} {op : Operation} {host : Host Data}

/-! ### Resume and update -/

theorem orElse_recover {task : HostTask Data Unit} {returned : Host Data → Prop}
    (stopped : op.phase = .stopping ∨ op.phase = .backingUp ∨ op.Starting) (restoreOnFailedStart : Bool)
    (each : Ensures Fate.Any task host (fun _ => returned) (fun _ => Working site start op) (Ended site clear start)) :
    Leaves site clear start (Program.orElse task (recoverFailure site restoreOnFailedStart op)) host
      fun _ => returned := by
  refine Ensures.orElse (fun _ => Working site start op) each ?_
  intro error host working
  exact (recoverFailure_leaves working stopped restoreOnFailedStart error).mono
    (fun _ _ => False.elim) (fun _ _ => id) (fun _ => id)

theorem Working.activates (working : Working site start op host) (active : Option Installed) :
    Ensures Fate.Any (activate op active) host (fun _ => Working site start op) (fun _ => Working site start op)
      (Ended site clear start) := by
  have taken (fate) := (working.setActive active).note op .activate fate (by simp)
  have kept (fate) := working.note op .activate fate (by simp)
  exact perform_ensures (taken _) (fun _ => taken _) (fun _ => kept _) (kept _).ended

theorem Working.keeps (working : Working site start op host) (starting : op.Starting) :
    Leaves site clear start (keepPrevious op) host fun _ => Working site start op := by
  have taken (fate) := (working.setPrevious starting).note op .keepPrevious fate (by simp)
  have kept (fate) := working.note op .keepPrevious fate (by simp)
  exact perform_ensures (taken _) (fun _ => (taken _).ended) (fun _ => (kept _).ended) (kept _).ended

theorem Working.concludes (working : Working site start op host) {phase : Phase}
    (admits : phase.admitsUpdate = true)
    (started : mayHaveStarted op.phase = true → mayHaveStarted phase = true)
    (valid : phase = .failedBeforeCutover ∨ validateOperation op = none) (error : Option UpdateError) :
    Leaves site clear start (writeJournal { op with phase, error }) host
      fun _ => Ended site clear start := by
  refine writeJournal_leaves working.ended ⟨?_, working.settled.continues, fun _ => working.unfailed⟩ ?_
  · refine (working.annotate error op.backup).recorded_as started (.inr valid) ?_ ?_
    · rintro (same | same) <;> simp [same, Phase.admitsUpdate] at admits
    · rintro (same | same) <;> simp [same, Phase.admitsUpdate] at admits
  · rintro _ ⟨_, ⟨same, _⟩ | ⟨same, _⟩⟩ <;> simp_all [Phase.admitsUpdate]

theorem Working.succeeds (working : Working site start op host) (starting : op.Starting) :
    Leaves site clear start (writeJournal { op with phase := .success }) host
      fun _ => Ended site clear start := by
  refine working.concludes rfl (fun _ => rfl) (.inr ?_) op.error
  rcases starting with phase | phase <;> exact working.validOperation (by simp [phase]) (by simp [phase])

theorem Working.ups (working : Working site start op host) (held : host.journal = some op)
    (starting : op.Starting) :
    Ensures Fate.Any (up op .target) host
      (fun _ reached => Working site start op reached ∧ reached.journal = some op)
      (fun _ => Working site start op) (Ended site clear start) := by
  have started (fate : Fate) : Working site start op (host.note op (.up .target) fate) :=
    working.up_target held starting
  exact perform_ensures ⟨started _, held⟩ (fun _ => started _) (fun _ => started _) (started _).ended

omit [DecidableEq Data] in
theorem resumeGuard_passed (passed : resumeGuard host op = none) (recorded : op.previous.isSome) :
    (op.phase = .downloaded ∨ op.phase = .startingTarget ∨ op.phase = .checkingTarget ∨
      op.phase = .recoveryRequired) ∧ op.restoreData = false ∧ host.failed op.id = none ∧
      op.backupVerified = true := by
  unfold resumeGuard at passed
  simp only [recorded, Bool.true_and] at passed
  split at passed
  · cases passed
  · rename_i phases
    split at passed
    · cases passed
    · split at passed
      · cases passed
      · rename_i unrestored
        split at passed
        · cases passed
        · rename_i verified
          simp only [Bool.or_eq_true, not_or, Bool.not_eq_true, Option.isSome_eq_false_iff,
            Option.isNone_iff_eq_none] at unrestored
          exact ⟨by grind, unrestored.1, unrestored.2, by simpa using verified⟩

/-- The operation a resume goes on with. -/
theorem resumed_working (consistent : Consistent site host) (grown : start ≤ host.log.length)
    (held : host.journal = some op) (passed : resumeGuard host op = none) :
    Working site start { op with phase := .startingTarget } host := by
  have recorded := consistent.journal op held
  obtain ⟨phase, plain, unfailed, verified⟩ := resumeGuard_passed passed recorded.hasPrevious
  have valid : validateOperation op = none := by
    rcases recorded.valid with other | other | valid
    · simp [other] at phase
    · simp [other] at phase
    · exact valid
  refine ⟨consistent, grown, ?_, ?_, ⟨op, held, rfl, ?_, fun same => same⟩, ?_, unfailed, plain,
    .inr (.inl rfl)⟩
  · exact recorded.rephase (fun _ => rfl) valid (by simp [plain]) (by simp) (fun _ => verified)
  · rintro id path ⟨found, _, foundHeld, _, restores, _⟩
    rw [held] at foundHeld
    cases foundHeld
    simp [plain] at restores
  · rintro ⟨_, ⟨rolling, _⟩ | ⟨_, unverified⟩⟩
    · simp [rolling] at phase
    · simp [verified] at unverified
  · intro unverified
    have unverified : op.backupVerified = false := unverified
    simp [verified] at unverified

theorem Working.asks {command : Command} {by' : Operation} (working : Working site start op host)
    (inert : ∀ side, command ≠ .up side) :
    Leaves site clear start (perform by' command) host fun _ => Working site start op :=
  (perform_keeps fun fate => working.note by' command fate inert).mono (fun _ _ => id)
    (fun _ _ held => held.ended) (fun _ held => held.ended)

theorem resumeOperation_leaves (ended : Ended site clear start host) :
    Leaves site clear start (resumeOperation site) host fun _ => Ended site clear start := by
  unfold resumeOperation
  refine Ensures.bind (fun value reached => host = value ∧ host = reached) (Ensures.look ⟨rfl, rfl⟩) ?_
  rintro _ _ ⟨rfl, rfl⟩
  cases held : host.journal with
  | none => exact Ensures.fail ended
  | some op =>
      refine Ensures.bind (fun _ reached => host = reached ∧ resumeGuard host op = none)
        (refuseIf_ensures (fun passed => ⟨rfl, passed⟩) fun _ => ended) ?_
      rintro _ _ ⟨rfl, passed⟩
      have starting : Operation.Starting { op with phase := .startingTarget } := .inl rfl
      have working := resumed_working ended.consistent ended.grown held passed
      refine Ensures.bind _ (working.asks (by simp)) ?_
      intro _ host working
      refine Ensures.bind (fun value reached => host = value ∧ host = reached)
        (Ensures.look ⟨rfl, rfl⟩) ?_
      rintro _ _ ⟨rfl, rfl⟩
      refine Ensures.bind (fun _ reached => host = reached)
        (refuseIf_ensures (fun _ => rfl) fun _ => working.ended) ?_
      rintro _ _ rfl
      refine Ensures.bind _ (working.asks (by simp)) ?_
      intro _ host working
      refine Ensures.bind _ (working.asks (by simp)) ?_
      intro _ host working
      refine Ensures.bind _ (working.writes.mono (fun _ _ => id) (fun _ _ held => held.ended)
        (fun _ => id)) ?_
      rintro _ host ⟨working, held⟩
      refine Ensures.bind _ (orElse_recover (.inr (.inr starting)) false (working.ups held starting)) ?_
      rintro _ host ⟨working, held⟩
      refine Ensures.bind _ (orElse_recover (.inr (.inr starting)) false (working.performs (by simp))) ?_
      intro _ host working
      refine Ensures.bind (fun _ => Working site start { op with phase := .startingTarget }) ?_ ?_
      · exact Ensures.onlyIf (fun _ => working.keeps starting) fun _ => working
      intro _ host working
      refine Ensures.bind _ ((working.activates _).mono (fun _ _ => id)
        (fun _ _ held => held.ended) (fun _ => id)) ?_
      intro _ host working
      exact working.succeeds starting

theorem copyBackup_ensures {dataDir : Path} (working : Working site start op host)
    (unverified : op.backupVerified = false) :
    Ensures Fate.Any (copyBackup op dataDir) host
      (fun _ reached => Working site start op reached ∧ (reached.backup op.id).isSome)
      (fun _ => Working site start op) (Ended site clear start) := by
  unfold copyBackup
  refine Ensures.bind (fun value reached => host = value ∧ host = reached) (Ensures.look ⟨rfl, rfl⟩) ?_
  rintro _ _ ⟨rfl, rfl⟩
  refine Ensures.bind (fun _ reached => host = reached ∧ (host.data dataDir).isSome) ?_ ?_
  · refine Ensures.onlyIf (fun _ => Ensures.fail working) ?_
    intro present
    exact ⟨rfl, by simpa using present⟩
  rintro _ _ ⟨rfl, present⟩
  have taken (content fate) := (working.setBackup unverified
    (Function.update host.backup op.id content) host.recorded
    (fun other different => ⟨Function.update_of_ne different _ _, rfl⟩)).note op .copyBackup fate (by simp)
  refine perform_ensures ⟨taken _ _, ?_⟩ (fun _ => taken _ _) (fun _ => taken _ _) (taken _ _).ended
  simpa [Host.note] using present

theorem recordSnapshot_ensures (working : Working site start op host)
    (unverified : op.backupVerified = false) (copied : (host.backup op.id).isSome) :
    Ensures Fate.Any (recordSnapshot op) host
      (fun _ reached => Working site start op reached ∧ verifySnapshot reached op.id = true)
      (fun _ => Working site start op) (Ended site clear start) := by
  have taken (fate) := (working.setBackup unverified host.backup
    (Function.update host.recorded op.id (host.backup op.id))
    (fun other different => ⟨rfl, Function.update_of_ne different _ _⟩)).note op .recordSnapshot fate (by simp)
  have kept (fate) := working.note op .recordSnapshot fate (by simp)
  refine perform_ensures ⟨taken _, ?_⟩ (fun _ => taken _) (fun _ => kept _) (kept _).ended
  obtain ⟨content, held⟩ := Option.isSome_iff_exists.mp copied
  simp [verifySnapshot, Host.note, held]

theorem cutover_leaves {dataDir : Path} (working : Working site start op host)
    (stopping : op.phase = .stopping) (restoreOnFailedStart : Bool) :
    Leaves site clear start (cutover site restoreOnFailedStart op dataDir) host
      fun _ => Ended site clear start := by
  have unverified : op.backupVerified = false := working.recorded.unverified (.inl stopping)
  have valid : validateOperation op = none :=
    working.validOperation (by simp [stopping]) (by simp [stopping])
  unfold cutover
  refine Ensures.bind _ (orElse_recover (.inl stopping) _ (working.performs (by simp))) ?_
  intro _ host working
  refine Ensures.bind _ (orElse_recover (.inl stopping) _ (working.performs (by simp))) ?_
  intro _ host working
  -- The data copy: the record says nothing of it yet
  have backing := working.rephase .backingUp
    (working.recorded_as (by simp [stopping, mayHaveStarted]) (.inr (.inr valid)) (fun _ => unverified)
      (by simp)) (.inl ⟨rfl, by simp, unverified⟩)
  refine Ensures.bind _ (orElse_recover (.inr (.inl rfl)) _ (backing.writes.mono
    (fun _ _ both => both.1) (fun _ _ => id) (fun _ => id))) ?_
  intro _ host backing
  have copying := backing.annotate op.error true
  refine Ensures.bind _ (orElse_recover (.inr (.inl rfl)) _ (copyBackup_ensures copying unverified)) ?_
  rintro _ host ⟨copying, copied⟩
  refine Ensures.bind (fun _ reached =>
    Working site start { op with phase := .backingUp, backup := true } reached ∧
      (reached.backup op.id).isSome) (orElse_recover (.inr (.inl rfl)) _ ?_) ?_
  · have asked (fate) := copying.note { op with phase := .backingUp, backup := true } .inspect fate (by simp)
    exact perform_ensures ⟨asked _, copied⟩ (fun _ => asked _) (fun _ => asked _) (asked _).ended
  rintro _ host ⟨copying, copied⟩
  refine Ensures.bind _ (orElse_recover (.inr (.inl rfl)) _ (recordSnapshot_ensures copying unverified copied)) ?_
  rintro _ host ⟨recorded, snapshot⟩
  -- The target
  have starting : Operation.Starting
      { op with phase := .startingTarget, backup := true, backupVerified := true } := .inl rfl
  have verified := recorded.verify snapshot valid
  refine Ensures.bind _ (orElse_recover (.inr (.inr starting)) _ verified.writes) ?_
  rintro _ host ⟨verified, held⟩
  refine Ensures.bind _ (orElse_recover (.inr (.inr starting)) _ (verified.ups held starting)) ?_
  rintro _ host ⟨started, _⟩
  have checks : Operation.Starting
      { op with phase := .checkingTarget, backup := true, backupVerified := true } := .inr rfl
  have checking := started.rephase .checkingTarget
    (started.recorded_as (fun _ => rfl) (.inr (.inr valid)) (by simp) (fun _ => rfl)) (.inr (.inr rfl))
  refine Ensures.bind _ (orElse_recover (.inr (.inr checks)) _ (checking.writes.mono
    (fun _ _ both => both.1) (fun _ _ => id) (fun _ => id))) ?_
  intro _ host checking
  refine Ensures.bind _ (orElse_recover (.inr (.inr checks)) _ (checking.performs (by simp))) ?_
  intro _ host checking
  refine Ensures.bind _ (checking.keeps checks) ?_
  intro _ host checking
  refine Ensures.bind _ ((checking.activates _).mono (fun _ _ => id) (fun _ _ held => held.ended)
    (fun _ => id)) ?_
  intro _ host checking
  exact checking.succeeds checks

/-- A new operation before its first record. -/
structure Opening (site : Site) (start : Nat) (op : Operation) (host : Host Data) : Prop where
  consistent : Consistent site host
  grown : start ≤ host.log.length
  unwedged : ∀ held, host.journal = some held → ¬ held.Wedged
  settled : Settled host
  unstarted : ¬ TargetStarted host.log op.id
  unkept : ∀ kept, host.previous = some kept → kept.id ≠ op.id
  unfailed : host.failed op.id = none

theorem Opening.note (opening : Opening site start op host) (command : Command) (fate : Fate)
    (inert : ∀ side, command ≠ .up side) : Opening site start op (host.note op command fate) :=
  { opening with
    consistent := opening.consistent.note op command fate inert
    grown := grown_note opening.grown
    unstarted := by
      intro started
      rcases targetStarted_snoc.mp started with before | ⟨_, last⟩
      · exact opening.unstarted before
      · exact inert .target last }

theorem Opening.ended (opening : Opening site start op host) : Ended site clear start host :=
  ⟨opening.consistent, opening.grown, fun _ held same wedged => absurd wedged (opening.unwedged held same)⟩

theorem Opening.tick (opening : Opening site start op host) :
    Opening site start op { host with clock := host.clock + 1 } :=
  { opening with consistent := opening.consistent.tick }

/-- The first record of an operation makes it the one the run works on. -/
theorem Opening.writes (opening : Opening site start op host) (below : op.id < host.clock)
    (prepared : op.phase = .prepared) (hasPrevious : op.previous.isSome)
    (plain : op.restoreData = false) (unverified : op.backupVerified = false) :
    Leaves site clear start (writeJournal op) host fun _ => Working site start op := by
  have recorded : Recorded site host op :=
    ⟨below, fun started => absurd started opening.unstarted, hasPrevious, .inl prepared,
      by simp [plain], by simp [plain], by simp [plain], by simp [unverified], fun _ => unverified, by
        rintro (phase | phase) <;> simp [prepared] at phase⟩
  have consistent := opening.consistent.setJournal recorded opening.settled.continues
    fun _ => opening.unfailed
  have written (fate) : Working site start op (({ host with journal := some op } : Host Data).note op
      (.journal op.phase) fate) := by
    refine ⟨consistent.note op _ fate (by simp), grown_written opening.grown,
      (recorded.note op _ fate (by simp)).frame (Nat.le_refl _) .inl (fun _ => id), ?_,
      ⟨op, rfl, rfl, ?_, fun same => same⟩, fun _ => opening.unkept, opening.unfailed, plain,
      .inl ⟨by simp [prepared, mayHaveStarted], by simp [prepared], unverified⟩⟩
    · rintro id path ⟨found, _, held, _, restores, _⟩
      cases held
      simp [plain] at restores
    · rintro ⟨_, ⟨phase, _⟩ | ⟨phase, _⟩⟩ <;> simp [prepared] at phase
  have kept (fate) := opening.note (.journal op.phase) fate (by simp)
  exact perform_ensures (written _) (fun _ => (written _).ended) (fun _ => (kept _).ended) (kept _).ended

theorem failBeforeCutover_leaves (working : Working site start op host)
    (early : mayHaveStarted op.phase = false) (cause : UpdateError) {returned : Unit → Host Data → Prop} :
    Leaves site clear start (failBeforeCutover op cause) host returned := by
  unfold failBeforeCutover
  refine Ensures.bind (fun _ => Ended site clear start) (Ensures.ignore ?_) ?_
  · exact working.concludes rfl (by simp [early]) (.inl rfl) (some cause)
  · intro _ _ ended
    exact Ensures.fail ended

theorem orElse_fail {task : HostTask Data Unit} {returned : Unit → Host Data → Prop}
    (early : mayHaveStarted op.phase = false)
    (each : Ensures Fate.Any task host returned (fun _ => Working site start op) (Ended site clear start)) :
    Leaves site clear start (Program.orElse task (failBeforeCutover op)) host returned := by
  refine Ensures.orElse (fun _ => Working site start op) each ?_
  intro error host working
  exact failBeforeCutover_leaves working early error

/-- The image of the target is known: the record names it. -/
theorem Working.retarget (working : Working site start op host) (target : Installed)
    (valid : op.previous.any (fun previous => (validateDeployments previous target).isNone) = true) :
    Working site start { op with target } host where
  consistent := working.consistent
  grown := working.grown
  recorded := ⟨working.recorded.below, working.recorded.started, working.recorded.hasPrevious, by
      refine .inr (.inr ?_)
      obtain ⟨previous, same⟩ := Option.isSome_iff_exists.mp working.recorded.hasPrevious
      simpa [validateOperation, same] using valid,
    working.recorded.restoring, working.recorded.restoresVerified, working.recorded.restorable,
    working.recorded.snapshot, working.recorded.unverified, working.recorded.verified⟩
  settled := working.settled
  journal := working.journal
  unkept := working.unkept
  unfailed := working.unfailed
  plain := working.plain
  cutover := working.cutover

theorem execute_leaves (plan : Plan) (restoreOnFailedStart : Bool) (ended : Ended site clear start host) :
    Leaves site clear start (execute site plan restoreOnFailedStart) host
      fun _ => Ended site clear start := by
  unfold execute
  refine Ensures.bind (fun value reached => host = value ∧ host = reached) (Ensures.look ⟨rfl, rfl⟩) ?_
  rintro _ _ ⟨rfl, rfl⟩
  refine Ensures.bind (fun _ reached => host = reached ∧ pendingGuard host.journal = none)
    (refuseIf_ensures (fun passed => ⟨rfl, passed⟩) fun _ => ended) ?_
  rintro _ _ ⟨rfl, pending⟩
  refine Ensures.bind (fun _ reached => host = reached)
    (refuseIf_ensures (fun _ => rfl) fun _ => ended) ?_
  rintro _ _ rfl
  have consistent := ended.consistent
  have admits : ∀ held, host.journal = some held → held.phase.admitsUpdate = true := by
    intro held same
    simp only [pendingGuard, same] at pending
    split at pending
    · assumption
    · cases pending
  have opening : Opening site start (plan.record host.clock) host := by
    refine ⟨consistent, ended.grown, ?_, ?_, ?_, ?_, ?_⟩
    · rintro held same ⟨_, ⟨phase, _⟩ | ⟨phase, _⟩⟩ <;>
        simpa [phase, Phase.admitsUpdate] using admits held same
    · rintro id path ⟨held, _, same, _, _, phase | phase, _⟩ <;>
        simpa [phase, Phase.admitsUpdate] using admits held same
    · intro started
      exact absurd (consistent.startedBelow _ started) (Nat.lt_irrefl _)
    · intro kept same
      exact Nat.ne_of_lt (consistent.previous kept same).1.below
    · change host.failed host.clock = none
      cases aside : host.failed host.clock with
      | none => rfl
      | some content => exact absurd (consistent.failedBelow host.clock (by simp [aside])) (Nat.lt_irrefl _)
  refine Ensures.bind (fun _ reached => Opening site start (plan.record host.clock) reached ∧ host.clock ≤ reached.clock) ?_ ?_
  · have asked (fate) := opening.note .inspect fate (by simp)
    exact perform_ensures ⟨asked _, Nat.le_refl _⟩ (fun _ => (asked _).ended) (fun _ => (asked _).ended)
      (asked _).ended
  rintro _ reached ⟨opening, clock⟩
  refine Ensures.bind (fun _ reached => Opening site start (plan.record host.clock) reached ∧ host.clock < reached.clock) ?_ ?_
  · have asked (fate) := opening.tick.note .reserve fate (by simp)
    exact perform_ensures ⟨asked _, Nat.lt_succ_of_le clock⟩ (fun _ => (asked _).ended)
      (fun _ => (asked _).ended) (asked _).ended
  rintro _ reached ⟨opening, clock⟩
  refine Ensures.bind _ (opening.writes clock rfl rfl rfl rfl) ?_
  intro _ host working
  refine Ensures.bind _ (orElse_fail rfl (working.performs (by simp))) ?_
  intro _ host working
  refine Ensures.bind _ (orElse_fail rfl (working.performs (by simp))) ?_
  intro _ host working
  refine Ensures.bind _ (orElse_fail rfl (working.performs (by simp))) ?_
  intro _ host working
  have named := working.retarget plan.target (by simp [Plan.record, plan.valid])
  split
  · -- Nothing changes: the deployment is recorded again
    refine Ensures.bind _ (orElse_fail rfl (named.performs (by simp))) ?_
    intro _ host named
    refine Ensures.bind _ (orElse_fail rfl (named.activates _)) ?_
    intro _ host named
    exact named.concludes rfl (fun _ => rfl) (.inr plan.valid) none
  · have downloaded := named.rephase .downloaded
      (named.recorded_as (by simp [Plan.record, mayHaveStarted]) (.inr (.inr plan.valid)) (by simp) (by simp))
      (.inl ⟨rfl, by simp, rfl⟩)
    refine Ensures.bind _ (downloaded.writes.mono (fun _ _ both => both.1) (fun _ _ held => held.ended)
      (fun _ => id)) ?_
    intro _ host downloaded
    refine Ensures.bind _ (orElse_fail rfl (downloaded.performs (by simp))) ?_
    intro _ host downloaded
    refine Ensures.bind _ (orElse_fail rfl (downloaded.performs (by simp))) ?_
    intro _ host downloaded
    have stopping := downloaded.rephase .stopping
      (downloaded.recorded_as (by simp [mayHaveStarted]) (.inr (.inr plan.valid)) (fun _ => rfl) (by simp))
      (.inl ⟨rfl, by simp, rfl⟩)
    refine Ensures.bind _ (stopping.writes.mono (fun _ _ both => both.1) (fun _ _ held => held.ended)
      (fun _ => id)) ?_
    intro _ host stopping
    exact cutover_leaves stopping rfl restoreOnFailedStart

/-! ### Rollback -/

theorem rollbackPreparation_leaves (holding : Holding site clear start op host)
    (phase : op.phase = .prepared ∨ op.phase = .downloaded) (held : host.journal = some op) :
    Leaves site clear start (rollbackPreparation op) host fun _ => Ended site clear start := by
  unfold rollbackPreparation
  refine Ensures.bind (fun _ reached => Holding site clear start op reached ∧ reached.journal = some op)
    ?_ ?_
  · have asked (fate) := holding.note .inspect fate (by simp)
    exact perform_ensures ⟨asked _, held⟩ (fun _ => (asked _).ended) (fun _ => (asked _).ended)
      (asked _).ended
  rintro _ host ⟨holding, held⟩
  have recorded := holding.recorded
  have unstarted : ¬ TargetStarted host.log op.id := by
    intro started
    have begun := recorded.started started
    rcases phase with phase | phase <;> simp [phase, mayHaveStarted] at begun
  have plain : op.restoreData = false := by
    cases restores : op.restoreData with
    | false => rfl
    | true => rcases recorded.restoring restores with other | other | other <;> simp [other] at phase
  refine writeJournal_leaves holding.ended ⟨?_, ?_, ?_⟩ ?_
  · exact ⟨recorded.below, fun started => absurd started unstarted, recorded.hasPrevious,
      .inr (.inl rfl), fun restores => absurd (plain.symm.trans restores) (by simp),
      recorded.restoresVerified, recorded.restorable, recorded.snapshot, by simp, by
        rintro (other | other) <;> cases other⟩
  · rintro id path ⟨found, _, foundHeld, _, restores, _⟩
    rw [held] at foundHeld
    cases foundHeld
    simp [plain] at restores
  · rintro ((other | other) | ⟨other, _⟩) <;> cases other
  · rintro _ ⟨_, ⟨other, _⟩ | ⟨other, _⟩⟩ <;> cases other

theorem rollback_leaves (restoreData : Bool) (ended : Ended site clear start host) :
    Leaves site clear start (rollback site restoreData) host fun _ => Ended site clear start := by
  unfold rollback
  refine Ensures.bind (fun value reached => host = value ∧ host = reached) (Ensures.look ⟨rfl, rfl⟩) ?_
  rintro _ _ ⟨rfl, rfl⟩
  have consistent := ended.consistent
  cases held : host.journal with
  | none => exact Ensures.fail ended
  | some journal =>
      -- The operation the rollback is about
      have about : ∀ op, (if journal.phase.admitsUpdate = true then host.previous else some journal) = some op →
          Holding site clear start op host ∧ (host.journal = some op ∨ op.Starting) := by
        intro op same
        split at same
        · rename_i admits
          obtain ⟨recorded, starting⟩ := consistent.previous op same
          refine ⟨⟨ended, recorded, .inr ?_⟩, .inr starting⟩
          rintro id path ⟨found, _, foundHeld, _, _, phase | phase, _⟩ <;> rw [held] at foundHeld <;>
            cases foundHeld <;> simp [phase, Phase.admitsUpdate] at admits
        · cases same
          exact ⟨⟨ended, consistent.journal _ held, .inl held⟩, .inl held⟩
      dsimp only
      split
      · exact Ensures.fail ended
      · rename_i op same
        obtain ⟨holding, which⟩ := about op same
        split
        · rename_i phase
          refine rollbackPreparation_leaves holding phase ?_
          rcases which with journal | starting | starting
          · exact journal
          · simp [starting] at phase
          · simp [starting] at phase
        · split
          · exact Ensures.fail ended
          · exact Ensures.fail ended
          · rename_i previous valid same
            exact rollbackRecorded_leaves holding same valid restoreData

theorem task_leaves (invocation : Invocation) (ended : Ended site clear start host) :
    Leaves site clear start (invocation.task site) host fun _ => Ended site clear start := by
  cases invocation with
  | update plan restoreOnFailedStart => exact execute_leaves plan restoreOnFailedStart ended
  | rollback restoreData => exact rollback_leaves restoreData ended
  | resume => exact resumeOperation_leaves ended

end

/-- One run, whatever happens in it: the host it leaves is consistent, and where the journal was
not wedged before, what happened in the run excuses a wedged one. -/
theorem runUpdater_ended {site : Site} {host : Host Data} (run : UpdaterRun)
    (consistent : Consistent site host) :
    Ended site (∀ op, host.journal = some op → ¬ op.Wedged) host.log.length
      (runUpdater site host run) := by
  have ended : Ended site (∀ op, host.journal = some op → ¬ op.Wedged) host.log.length host :=
    ⟨consistent, Nat.le_refl _, fun clear op held wedged => absurd wedged (clear op held)⟩
  exact (task_leaves run.invocation ended).state_of fun _ _ => trivial

/-- Every history of runs leaves a consistent host. -/
theorem history_consistent (site : Site) (data : Path → Data) (active : Option Installed)
    (history : List UpdaterRun) :
    Consistent site (replay (runUpdater site) (Host.initial data active) history) :=
  replay_invariant (Consistent.initial site data active)
    (fun _ run consistent => (runUpdater_ended run consistent).consistent) history

/-- The previous version never starts on data the target may have migrated: over every history
of runs, wherever each failed or was stopped, between the last start of the target of an
operation whose schemas differ and a start of its previous version lies a completed restore,
which put the copy of the snapshot in place. -/
theorem previous_never_on_migrated_data (site : Site) (data : Path → Data) (active : Option Installed)
    (history : List UpdaterRun) :
    Safe (replay (runUpdater site) (Host.initial data active) history).log :=
  (history_consistent site data active history).safe

end Dockge.Updater
