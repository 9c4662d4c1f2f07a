import Dockge.Updater.Restoring

namespace Dockge.Updater

open Dockge.Data

/-! What a run knows of the operation it works on, and what it leaves whenever it ends. -/

/-- No recovery command passes its guards any more. -/
def Operation.Wedged (op : Operation) : Prop :=
  op.schemaChanged = true ∧
    ((op.phase = .rollingBack ∧ op.restoreData = false) ∨
      (op.phase = .recoveryRequired ∧ op.backupVerified = false))

/-- The previous version did not start, or not stay healthy, in the recovery of an update
whose schemas differ and whose snapshot is not verified. -/
def FailedBeforeSnapshot (entry : Entry) : Prop :=
  (entry.command = .up .previous ∨ entry.command = .verifyRuntime .previous) ∧
    (entry.fate = .fail ∨ entry.fate = .late) ∧ entry.op.schemaChanged = true ∧
    (entry.op.phase = .stopping ∨ entry.op.phase = .backingUp)

/-- The journal says that the operator is needed. -/
def RecoveryRecorded (entry : Entry) : Prop :=
  entry.command = .journal .recoveryRequired ∧ (entry.fate = .ok ∨ entry.fate = .late)

/-- A rollback without the data was recorded for an operation whose schemas differ. -/
def UnverifiedRollback (entry : Entry) : Prop :=
  entry.command = .journal .rollingBack ∧ (entry.fate = .ok ∨ entry.fate = .late) ∧
    entry.op.schemaChanged = true ∧ entry.op.restoreData = false

/-- Something failed or was stopped.  The record of a finished recovery may come late. -/
def Missed (entry : Entry) : Prop :=
  entry.fate ≠ .ok ∧ ¬ (entry.command = .journal .recovered ∧ entry.fate = .late)

/-- What a run did that leaves a wedged journal. -/
def Excused (fresh : List Entry) : Prop :=
  ∃ entry ∈ fresh, ∃ other ∈ fresh,
    (FailedBeforeSnapshot entry ∧ RecoveryRecorded other) ∨ (UnverifiedRollback entry ∧ Missed other)

theorem Excused.snoc {fresh : List Entry} (excused : Excused fresh) (entry : Entry) :
    Excused (fresh ++ [entry]) := by
  obtain ⟨found, member, other, present, which⟩ := excused
  exact ⟨found, List.mem_append_left _ member, other, List.mem_append_left _ present, which⟩

variable {Data : Type} [DecidableEq Data]

/-- What a run leaves, wherever it ends: where the journal it found was not wedged, only what
happened in this run excuses a wedged one.  `start` is the length of the log before the run. -/
structure Ended (site : Site) (clear : Prop) (start : Nat) (host : Host Data) : Prop where
  consistent : Consistent site host
  grown : start ≤ host.log.length
  wedged : clear → ∀ op, host.journal = some op → op.Wedged → Excused (host.log.drop start)

/-- What it takes to record an operation. -/
structure Writable (site : Site) (op : Operation) (host : Host Data) : Prop where
  recorded : Recorded site host op
  continues : Continues host op
  unfailed : op.Resumable → host.failed op.id = none

/-- The operation of a run before a restore of it began. -/
structure Working (site : Site) (start : Nat) (op : Operation) (host : Host Data) : Prop where
  consistent : Consistent site host
  grown : start ≤ host.log.length
  recorded : Recorded site host op
  settled : Settled host
  journal : ∃ held, host.journal = some held ∧ held.id = op.id ∧ ¬ held.Wedged ∧
    (held.backupVerified = true → op.backupVerified = true)
  unkept : op.backupVerified = false → ∀ kept, host.previous = some kept → kept.id ≠ op.id
  unfailed : host.failed op.id = none
  plain : op.restoreData = false
  cutover : (mayHaveStarted op.phase = false ∧ op.phase ≠ .failedBeforeCutover ∧ op.backupVerified = false) ∨
    op.Starting

section
variable {site : Site} {clear : Prop} {start : Nat} {op : Operation} {host : Host Data}
  {command : Command} {fate : Fate}

theorem Ended.note (ended : Ended site clear start host) (op : Operation) (command : Command)
    (fate : Fate) (inert : ∀ side, command ≠ .up side) :
    Ended site clear start (host.note op command fate) where
  consistent := ended.consistent.note op command fate inert
  grown := grown_note ended.grown
  wedged := by
    intro isClear found held wedged
    rw [drop_note ended.grown]
    exact (ended.wedged isClear found held wedged).snoc _

theorem Working.not_wedged (working : Working site start op host) : ¬ op.Wedged := by
  rintro ⟨_, ⟨phase, _⟩ | ⟨phase, unverified⟩⟩
  · rcases working.cutover with ⟨early, _⟩ | starting
    · simp [phase, Updater.mayHaveStarted] at early
    · rcases starting with other | other <;> simp [phase] at other
  · rcases working.cutover with ⟨early, _⟩ | starting
    · simp [phase, Updater.mayHaveStarted] at early
    · simp [working.recorded.verified starting] at unverified

theorem Working.ended (working : Working site start op host) : Ended site clear start host where
  consistent := working.consistent
  grown := working.grown
  wedged := by
    intro _ found held wedged
    obtain ⟨journal, same, _, unwedged, _⟩ := working.journal
    rw [same] at held
    cases held
    exact absurd wedged unwedged

theorem Working.note (working : Working site start op host) (by' : Operation) (command : Command)
    (fate : Fate) (inert : ∀ side, command ≠ .up side) :
    Working site start op (host.note by' command fate) :=
  { working with
    consistent := working.consistent.note by' command fate inert
    grown := grown_note working.grown
    recorded := working.recorded.note by' command fate (inert .target) }

theorem Working.setJournal (working : Working site start op host) :
    Working site start op { host with journal := some op } where
  consistent := working.consistent.setJournal working.recorded working.settled.continues
    fun _ => working.unfailed
  grown := working.grown
  recorded := working.recorded.frame (Nat.le_refl _) .inl fun _ => id
  settled := by
    rintro id path ⟨found, previous, held, _, restores, _⟩
    cases held
    simp [working.plain] at restores
  journal := ⟨op, rfl, rfl, working.not_wedged, id⟩
  unkept := working.unkept
  unfailed := working.unfailed
  plain := working.plain
  cutover := working.cutover

theorem Working.setBackup (working : Working site start op host) (unverified : op.backupVerified = false)
    (backup recorded : Nat → Option (Content Data))
    (others : ∀ other, other ≠ op.id →
      backup other = host.backup other ∧ recorded other = host.recorded other) :
    Working site start op { host with backup, recorded } where
  consistent := by
    refine working.consistent.setBackup op.id backup recorded others ?_
    rintro found (held | kept) same
    · obtain ⟨journal, journalHeld, _, _, carried⟩ := working.journal
      rw [journalHeld] at held
      cases held
      cases verified : found.backupVerified with
      | false => rfl
      | true => simp [carried verified] at unverified
    · exact absurd same (working.unkept unverified found kept)
  grown := working.grown
  recorded := working.recorded.frame (Nat.le_refl _) .inl fun verified => by simp [unverified] at verified
  settled := working.settled
  journal := working.journal
  unkept := working.unkept
  unfailed := working.unfailed
  plain := working.plain
  cutover := working.cutover

theorem Working.setPrevious (working : Working site start op host) (starting : op.Starting) :
    Working site start op { host with previous := some op } :=
  { working with
    consistent := working.consistent.setPrevious working.recorded starting
    recorded := working.recorded.frame (Nat.le_refl _) .inl fun _ => id
    unkept := by
      intro unverified
      simp [working.recorded.verified starting] at unverified }

theorem Working.setActive (working : Working site start op host) (active : Option Installed) :
    Working site start op { host with active } :=
  { working with
    consistent := working.consistent.setActive active
    recorded := working.recorded.frame (Nat.le_refl _) .inl fun _ => id }

theorem Working.up_target (working : Working site start op host) (held : host.journal = some op)
    (starting : op.Starting) : Working site start op (host.note op (.up .target) fate) :=
  { working with
    consistent := working.consistent.note_up_target fate held starting
    grown := grown_note working.grown
    recorded := working.recorded.frame (Nat.le_refl _)
      (fun _ => .inr starting.mayHaveStarted) fun _ => id }

theorem Working.up_previous (working : Working site start op host)
    (early : op.schemaChanged = true → mayHaveStarted op.phase = false) :
    Working site start op (host.note op (.up .previous) fate) := by
  refine { working with
    consistent := working.consistent.note_up_previous fate ?_
    grown := grown_note working.grown
    recorded := working.recorded.note op _ fate (by simp) }
  intro changed started
  have begun := working.recorded.started started
  simp [early changed] at begun

/-- The record of a phase that no recovery starts from. -/
theorem Working.recorded_as (working : Working site start op host) {phase : Phase}
    (started : mayHaveStarted op.phase = true → mayHaveStarted phase = true)
    (valid : phase = .prepared ∨ phase = .failedBeforeCutover ∨ validateOperation op = none)
    (unverified : phase = .stopping ∨ phase = .backingUp → op.backupVerified = false)
    (verified : phase = .startingTarget ∨ phase = .checkingTarget → op.backupVerified = true) :
    Recorded site host { op with phase } where
  below := working.recorded.below
  started := fun begun => started (working.recorded.started begun)
  hasPrevious := working.recorded.hasPrevious
  valid := valid
  restoring := by simp [working.plain]
  restoresVerified := by simp [working.plain]
  restorable := by simp [working.plain]
  snapshot := working.recorded.snapshot
  unverified := unverified
  verified := verified

/-- The same operation, going on in another phase. -/
theorem Working.rephase (working : Working site start op host) (phase : Phase)
    (recorded : Recorded site host { op with phase })
    (cutover : (mayHaveStarted phase = false ∧ phase ≠ .failedBeforeCutover ∧ op.backupVerified = false) ∨
      (phase = .startingTarget ∨ phase = .checkingTarget)) :
    Working site start { op with phase } host where
  consistent := working.consistent
  grown := working.grown
  recorded := recorded
  settled := working.settled
  journal := working.journal
  unkept := working.unkept
  unfailed := working.unfailed
  plain := working.plain
  cutover := cutover

/-- The record of the failure and the directory of the data copy say nothing of the host. -/
theorem Working.annotate (working : Working site start op host) (error : Option UpdateError)
    (backup : Bool) : Working site start { op with error, backup } host where
  consistent := working.consistent
  grown := working.grown
  recorded := ⟨working.recorded.below, working.recorded.started, working.recorded.hasPrevious,
    working.recorded.valid, working.recorded.restoring, working.recorded.restoresVerified,
    working.recorded.restorable, working.recorded.snapshot, working.recorded.unverified,
    working.recorded.verified⟩
  settled := working.settled
  journal := working.journal
  unkept := working.unkept
  unfailed := working.unfailed
  plain := working.plain
  cutover := working.cutover

/-- The data copy holds what was recorded of it: the target may be started. -/
theorem Working.verify (working : Working site start op host)
    (snapshot : verifySnapshot host op.id = true) (valid : validateOperation op = none) :
    Working site start { op with backupVerified := true, phase := .startingTarget } host where
  consistent := working.consistent
  grown := working.grown
  recorded := ⟨working.recorded.below, fun _ => rfl, working.recorded.hasPrevious, .inr (.inr valid),
    fun restores => absurd (working.plain.symm.trans restores) (by simp),
    fun _ => rfl, working.recorded.restorable, fun _ => snapshot, by simp, fun _ => rfl⟩
  settled := working.settled
  journal := by
    obtain ⟨held, same, ours, unwedged, _⟩ := working.journal
    exact ⟨held, same, ours, unwedged, fun _ => rfl⟩
  unkept := by
    intro unverified
    cases unverified
  unfailed := working.unfailed
  plain := working.plain
  cutover := .inr (.inl rfl)

theorem Working.validOperation (working : Working site start op host) (phase : op.phase ≠ .prepared)
    (phase' : op.phase ≠ .failedBeforeCutover) : validateOperation op = none := by
  rcases working.recorded.valid with same | same | valid
  · exact absurd same phase
  · exact absurd same phase'
  · exact valid

end

end Dockge.Updater
