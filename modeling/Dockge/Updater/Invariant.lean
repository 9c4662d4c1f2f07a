import Dockge.Updater.Execute

namespace Dockge.Updater

open Dockge.Data

/-! What every host the updater leaves behind satisfies, and how each thing it asks for
keeps it. -/

/-- The target of the operation was started, whatever came of it. -/
def TargetStarted (log : List Entry) (id : Nat) : Prop :=
  ∃ entry ∈ log, entry.op.id = id ∧ entry.command = .up .target

/-- Such an entry of the operation lies behind the last start of its target. -/
def SinceTarget (log : List Entry) (id : Nat) (Such : Command → Fate → Prop) : Prop :=
  ∃ early late, log = early ++ late ∧ ¬ TargetStarted late id ∧
    ∃ entry ∈ late, entry.op.id = id ∧ Such entry.command entry.fate

/-- The staged copy of the snapshot became the data directory. -/
def CopyPlaced (command : Command) (fate : Fate) : Prop :=
  command = .place ∧ (fate = .ok ∨ fate = .late)

def RestoreCompleted (command : Command) (fate : Fate) : Prop :=
  command = .restore ∧ fate = .ok

/-- The previous version never starts on data the target may have migrated. -/
def Safe (log : List Entry) : Prop :=
  ∀ before entry after, log = before ++ entry :: after → entry.command = .up .previous →
    entry.op.schemaChanged = true → TargetStarted before entry.op.id →
    SinceTarget before entry.op.id CopyPlaced ∧ SinceTarget before entry.op.id RestoreCompleted

def Operation.Starting (op : Operation) : Prop :=
  op.phase = .startingTarget ∨ op.phase = .checkingTarget

theorem Operation.Starting.mayHaveStarted {op : Operation} (starting : op.Starting) :
    mayHaveStarted op.phase = true := by
  rcases starting with phase | phase <;> rw [phase] <;> rfl

/-- Its target may be started again: no restore of it began. -/
def Operation.Resumable (op : Operation) : Prop :=
  op.Starting ∨ (op.phase = .recoveryRequired ∧ op.restoreData = false)

section
variable {log : List Entry} {entry : Entry} {id : Nat} {Such : Command → Fate → Prop}

@[simp] theorem targetStarted_nil : ¬ TargetStarted [] id := by
  simp [TargetStarted]

theorem targetStarted_snoc :
    TargetStarted (log ++ [entry]) id ↔
      TargetStarted log id ∨ (entry.op.id = id ∧ entry.command = .up .target) := by
  simp only [TargetStarted, List.mem_append, List.mem_singleton]
  constructor
  · rintro ⟨found, member | rfl, started⟩
    · exact .inl ⟨found, member, started⟩
    · exact .inr started
  · rintro (⟨found, member, started⟩ | started)
    · exact ⟨found, .inl member, started⟩
    · exact ⟨entry, .inr rfl, started⟩

theorem SinceTarget.snoc (since : SinceTarget log id Such)
    (other : ¬ (entry.op.id = id ∧ entry.command = .up .target)) :
    SinceTarget (log ++ [entry]) id Such := by
  obtain ⟨early, late, rfl, untouched, found, member, such⟩ := since
  refine ⟨early, late ++ [entry], by simp, ?_, found, List.mem_append_left _ member, such⟩
  rw [targetStarted_snoc]
  exact not_or.mpr ⟨untouched, other⟩

theorem sinceTarget_last (entry : Entry) (such : Such entry.command entry.fate)
    (other : entry.command ≠ .up .target) : SinceTarget (log ++ [entry]) entry.op.id Such := by
  refine ⟨log, [entry], rfl, ?_, entry, by simp, rfl, such⟩
  simp [TargetStarted, other]

theorem Safe.snoc (safe : Safe log)
    (last : entry.command = .up .previous → entry.op.schemaChanged = true →
      TargetStarted log entry.op.id →
      SinceTarget log entry.op.id CopyPlaced ∧ SinceTarget log entry.op.id RestoreCompleted) :
    Safe (log ++ [entry]) := by
  intro before found after split
  rcases List.append_eq_append_iff.mp split with ⟨middle, rfl, tail⟩ | ⟨middle, rfl, tail⟩
  · cases middle with
    | nil =>
        obtain ⟨rfl, rfl⟩ : entry = found ∧ [] = after := by simpa using tail
        simpa using last
    | cons head rest => simp at tail
  · cases middle with
    | nil =>
        obtain ⟨rfl, rfl⟩ : found = entry ∧ after = [] := by simpa using tail
        simpa using last
    | cons head rest =>
        obtain ⟨rfl, rfl⟩ : found = head ∧ after = rest ++ [entry] := by simpa using tail
        exact safe before found rest rfl

end

variable {Data : Type}

section
variable {start : Nat} {op : Operation} {host : Host Data} {command : Command} {fate : Fate}

theorem drop_note (grown : start ≤ host.log.length) :
    (host.note op command fate).log.drop start = host.log.drop start ++ [⟨op, command, fate⟩] := by
  simp [Host.note, List.drop_append_of_le_length grown]

theorem grown_note (grown : start ≤ host.log.length) :
    start ≤ (host.note op command fate).log.length := by
  simp only [Host.note, List.length_append]
  omega

/-- The same, where the journal was written. -/
theorem drop_written {journal : Option Operation} (grown : start ≤ host.log.length) :
    ({ host with journal }.note op command fate).log.drop start =
      host.log.drop start ++ [⟨op, command, fate⟩] :=
  drop_note grown

theorem grown_written {journal : Option Operation} (grown : start ≤ host.log.length) :
    start ≤ ({ host with journal }.note op command fate).log.length :=
  grown_note grown

end

/-- A restore of this operation set the data aside and did not put the copy in place yet. -/
def Unfinished (host : Host Data) (id : Nat) (path : Path) : Prop :=
  ∃ op previous, host.journal = some op ∧ op.id = id ∧ op.restoreData = true ∧
    (op.phase = .rollingBack ∨ op.phase = .recoveryRequired) ∧ op.previous = some previous ∧
    previous.dataDir = path ∧ host.data path = none ∧ (host.failed id).isSome ∧ (host.staged id).isSome

/-- A record that goes on with an unfinished restore, if there is one. -/
def Continues (host : Host Data) (op : Operation) : Prop :=
  ∀ id path, Unfinished host id path → op.id = id ∧ op.restoreData = true ∧
    (op.phase = .rollingBack ∨ op.phase = .recoveryRequired) ∧
    ∃ previous, op.previous = some previous ∧ previous.dataDir = path

def Settled (host : Host Data) : Prop := ∀ id path, ¬ Unfinished host id path

theorem Settled.continues {host : Host Data} {op : Operation} (settled : Settled host) : Continues host op :=
  fun id path unfinished => absurd unfinished (settled id path)

variable [DecidableEq Data]

/-- What an operation says of the host it is recorded on. -/
structure Recorded (site : Site) (host : Host Data) (op : Operation) : Prop where
  below : op.id < host.clock
  started : TargetStarted host.log op.id → mayHaveStarted op.phase = true
  hasPrevious : op.previous.isSome
  valid : op.phase = .prepared ∨ op.phase = .failedBeforeCutover ∨ validateOperation op = none
  restoring : op.restoreData = true →
    op.phase = .rollingBack ∨ op.phase = .recoveryRequired ∨ op.phase = .recovered
  restoresVerified : op.restoreData = true → op.backupVerified = true
  restorable : ∀ previous, op.previous = some previous → op.restoreData = true →
    validateRestore site previous.dataDir = none
  snapshot : op.backupVerified = true → verifySnapshot host op.id = true
  unverified : op.phase = .stopping ∨ op.phase = .backingUp → op.backupVerified = false
  verified : op.Starting → op.backupVerified = true

structure Consistent (site : Site) (host : Host Data) : Prop where
  safe : Safe host.log
  startedBelow : ∀ id, TargetStarted host.log id → id < host.clock
  failedBelow : ∀ id, (host.failed id).isSome → id < host.clock
  journal : ∀ op, host.journal = some op → Recorded site host op
  journalUnfailed : ∀ op, host.journal = some op → op.Resumable → host.failed op.id = none
  previous : ∀ op, host.previous = some op → Recorded site host op ∧ op.Starting
  setAside : ∀ id, (host.failed id).isSome →
    SinceTarget host.log id CopyPlaced ∨ ∃ path, Unfinished host id path
  missing : ∀ path, host.data path = none → ∃ id, Unfinished host id path

theorem Consistent.initial (site : Site) (data : Path → Data) (active : Option Installed) :
    Consistent site (Host.initial data active) where
  safe := by
    intro before entry after split
    simp [Host.initial] at split
  startedBelow := by simp [Host.initial]
  failedBelow := by simp [Host.initial]
  journal := by simp [Host.initial]
  journalUnfailed := by simp [Host.initial]
  previous := by simp [Host.initial]
  setAside := by simp [Host.initial]
  missing := by simp [Host.initial]

section
variable {site : Site} {host : Host Data} {op : Operation}

/-- A record stays true of a host that keeps its snapshot and starts its target no more. -/
theorem Recorded.frame {host' : Host Data} (recorded : Recorded site host op)
    (clock : host.clock ≤ host'.clock)
    (started : TargetStarted host'.log op.id → TargetStarted host.log op.id ∨ mayHaveStarted op.phase = true)
    (snapshot : op.backupVerified = true → verifySnapshot host op.id = true →
      verifySnapshot host' op.id = true) :
    Recorded site host' op where
  below := Nat.lt_of_lt_of_le recorded.below clock
  started := fun begun => (started begun).elim recorded.started id
  hasPrevious := recorded.hasPrevious
  valid := recorded.valid
  restoring := recorded.restoring
  restoresVerified := recorded.restoresVerified
  restorable := recorded.restorable
  snapshot := fun verified => snapshot verified (recorded.snapshot verified)
  unverified := recorded.unverified
  verified := recorded.verified

theorem Recorded.note (recorded : Recorded site host op) (by' : Operation) (command : Command)
    (fate : Fate) (other : command ≠ .up .target) :
    Recorded site (host.note by' command fate) op := by
  refine recorded.frame (Nat.le_refl _) ?_ (fun _ => id)
  intro started
  rcases targetStarted_snoc.mp started with before | ⟨_, last⟩
  · exact .inl before
  · exact absurd last other

/-- The record of another phase, where that phase says nothing new of the host. -/
theorem Recorded.rephase {phase : Phase} (recorded : Recorded site host op)
    (started : TargetStarted host.log op.id → mayHaveStarted phase = true)
    (valid : validateOperation op = none)
    (restoring : op.restoreData = true → phase = .rollingBack ∨ phase = .recoveryRequired ∨ phase = .recovered)
    (unverified : phase = .stopping ∨ phase = .backingUp → op.backupVerified = false)
    (verified : phase = .startingTarget ∨ phase = .checkingTarget → op.backupVerified = true) :
    Recorded site host { op with phase } where
  below := recorded.below
  started := started
  hasPrevious := recorded.hasPrevious
  valid := .inr (.inr valid)
  restoring := restoring
  restoresVerified := recorded.restoresVerified
  restorable := recorded.restorable
  snapshot := recorded.snapshot
  unverified := unverified
  verified := verified

/-- Asking for anything but a start of a deployment. -/
theorem Consistent.note (consistent : Consistent site host) (op : Operation) (command : Command)
    (fate : Fate) (inert : ∀ side, command ≠ .up side) :
    Consistent site (host.note op command fate) where
  safe := consistent.safe.snoc fun up => absurd up (inert .previous)
  startedBelow := by
    intro id started
    rcases targetStarted_snoc.mp started with before | ⟨_, last⟩
    · exact consistent.startedBelow id before
    · exact absurd last (inert .target)
  failedBelow := consistent.failedBelow
  journal := fun found held => (consistent.journal found held).note op command fate (inert .target)
  journalUnfailed := consistent.journalUnfailed
  previous := fun found held =>
    ⟨(consistent.previous found held).1.note op command fate (inert .target), (consistent.previous found held).2⟩
  setAside := by
    intro id aside
    rcases consistent.setAside id aside with placed | unfinished
    · exact .inl (placed.snoc fun last => inert .target last.2)
    · exact .inr unfinished
  missing := consistent.missing

/-- Starting the previous deployment, where the target did not start or the data is back. -/
theorem Consistent.note_up_previous (consistent : Consistent site host) (fate : Fate)
    (safe : op.schemaChanged = true → TargetStarted host.log op.id →
      SinceTarget host.log op.id CopyPlaced ∧ SinceTarget host.log op.id RestoreCompleted) :
    Consistent site (host.note op (.up .previous) fate) where
  safe := consistent.safe.snoc fun _ => safe
  startedBelow := by
    intro id started
    rcases targetStarted_snoc.mp started with before | ⟨_, last⟩
    · exact consistent.startedBelow id before
    · cases last
  failedBelow := consistent.failedBelow
  journal := fun found held => (consistent.journal found held).note op _ fate (by simp)
  journalUnfailed := consistent.journalUnfailed
  previous := fun found held =>
    ⟨(consistent.previous found held).1.note op _ fate (by simp), (consistent.previous found held).2⟩
  setAside := by
    intro id aside
    rcases consistent.setAside id aside with placed | unfinished
    · exact .inl (placed.snoc (by simp))
    · exact .inr unfinished
  missing := consistent.missing

/-- Starting the target of the operation the journal shows as starting it. -/
theorem Consistent.note_up_target (consistent : Consistent site host) (fate : Fate)
    (held : host.journal = some op) (starting : op.Starting) :
    Consistent site (host.note op (.up .target) fate) := by
  have unfailed := consistent.journalUnfailed op held (.inl starting)
  constructor
  case safe => exact consistent.safe.snoc (by simp)
  case startedBelow =>
    intro id started
    rcases targetStarted_snoc.mp started with before | ⟨rfl, _⟩
    · exact consistent.startedBelow id before
    · exact (consistent.journal op held).below
  case failedBelow => exact consistent.failedBelow
  case journal =>
    intro found same
    have : found = op := Option.some.inj (same.symm.trans held)
    subst this
    exact (consistent.journal found held).frame (Nat.le_refl _)
      (fun _ => .inr starting.mayHaveStarted) (fun _ => id)
  case journalUnfailed => exact consistent.journalUnfailed
  case previous =>
    intro found same
    obtain ⟨recorded, kept⟩ := consistent.previous found same
    exact ⟨recorded.frame (Nat.le_refl _) (fun _ => .inr kept.mayHaveStarted) (fun _ => id), kept⟩
  case setAside =>
    intro id aside
    rcases consistent.setAside id aside with placed | unfinished
    · refine .inl (placed.snoc ?_)
      rintro ⟨rfl, _⟩
      have empty : host.failed op.id = none := unfailed
      simp [Host.note, empty] at aside
    · exact .inr unfinished
  case missing => exact consistent.missing

theorem Consistent.setJournal (consistent : Consistent site host) (recorded : Recorded site host op)
    (continues : Continues host op) (unfailed : op.Resumable → host.failed op.id = none) :
    Consistent site { host with journal := some op } := by
  have carried : ∀ id path, Unfinished host id path →
      Unfinished { host with journal := some op } id path := by
    intro id path unfinished
    obtain ⟨ours, restores, phase, previous, same, dir⟩ := continues id path unfinished
    obtain ⟨_, _, _, _, _, _, _, _, gone, aside, staged⟩ := unfinished
    exact ⟨op, previous, rfl, ours, restores, phase, same, dir, gone, aside, staged⟩
  constructor
  case safe => exact consistent.safe
  case startedBelow => exact consistent.startedBelow
  case failedBelow => exact consistent.failedBelow
  case journal =>
    rintro found ⟨⟩
    exact recorded.frame (Nat.le_refl _) .inl (fun _ => id)
  case journalUnfailed =>
    rintro found ⟨⟩
    exact unfailed
  case previous =>
    intro found held
    obtain ⟨kept, starting⟩ := consistent.previous found held
    exact ⟨kept.frame (Nat.le_refl _) .inl (fun _ => id), starting⟩
  case setAside =>
    intro id aside
    rcases consistent.setAside id aside with placed | ⟨path, unfinished⟩
    · exact .inl placed
    · exact .inr ⟨path, carried id path unfinished⟩
  case missing =>
    intro path gone
    obtain ⟨id, unfinished⟩ := consistent.missing path gone
    exact ⟨id, carried id path unfinished⟩

theorem Consistent.setPrevious (consistent : Consistent site host) (recorded : Recorded site host op)
    (starting : op.Starting) : Consistent site { host with previous := some op } where
  safe := consistent.safe
  startedBelow := consistent.startedBelow
  failedBelow := consistent.failedBelow
  journal := fun found held =>
    (consistent.journal found held).frame (Nat.le_refl _) .inl (fun _ => id)
  journalUnfailed := consistent.journalUnfailed
  previous := by
    rintro found ⟨⟩
    exact ⟨recorded.frame (Nat.le_refl _) .inl (fun _ => id), starting⟩
  setAside := consistent.setAside
  missing := consistent.missing

theorem Consistent.setActive (consistent : Consistent site host) (active : Option Installed) :
    Consistent site { host with active } where
  safe := consistent.safe
  startedBelow := consistent.startedBelow
  failedBelow := consistent.failedBelow
  journal := fun found held =>
    (consistent.journal found held).frame (Nat.le_refl _) .inl (fun _ => id)
  journalUnfailed := consistent.journalUnfailed
  previous := fun found held =>
    ⟨(consistent.previous found held).1.frame (Nat.le_refl _) .inl (fun _ => id),
      (consistent.previous found held).2⟩
  setAside := consistent.setAside
  missing := consistent.missing

theorem Consistent.tick (consistent : Consistent site host) :
    Consistent site { host with clock := host.clock + 1 } where
  safe := consistent.safe
  startedBelow := fun id started => Nat.lt_succ_of_lt (consistent.startedBelow id started)
  failedBelow := fun id aside => Nat.lt_succ_of_lt (consistent.failedBelow id aside)
  journal := fun found held =>
    (consistent.journal found held).frame (Nat.le_succ _) .inl (fun _ => id)
  journalUnfailed := consistent.journalUnfailed
  previous := fun found held =>
    ⟨(consistent.previous found held).1.frame (Nat.le_succ _) .inl (fun _ => id),
      (consistent.previous found held).2⟩
  setAside := consistent.setAside
  missing := consistent.missing

/-- The data copy of an operation may change until a record says it is verified. -/
theorem Consistent.setBackup (consistent : Consistent site host) (id : Nat)
    (backup recorded : Nat → Option (Content Data))
    (others : ∀ other, other ≠ id → backup other = host.backup other ∧ recorded other = host.recorded other)
    (unverified : ∀ op, host.journal = some op ∨ host.previous = some op → op.id = id →
      op.backupVerified = false) :
    Consistent site { host with backup, recorded } := by
  have kept : ∀ op : Operation, host.journal = some op ∨ host.previous = some op →
      op.backupVerified = true → verifySnapshot host op.id = true →
      verifySnapshot { host with backup, recorded } op.id = true := by
    intro op known verified snapshot
    have other : op.id ≠ id := by
      intro same
      simp [unverified op known same] at verified
    obtain ⟨sameBackup, sameRecorded⟩ := others op.id other
    simpa [verifySnapshot, sameBackup, sameRecorded] using snapshot
  constructor
  case safe => exact consistent.safe
  case startedBelow => exact consistent.startedBelow
  case failedBelow => exact consistent.failedBelow
  case journal =>
    intro found held
    exact (consistent.journal found held).frame (Nat.le_refl _) .inl (kept found (.inl held))
  case journalUnfailed => exact consistent.journalUnfailed
  case previous =>
    intro found held
    obtain ⟨recorded, starting⟩ := consistent.previous found held
    exact ⟨recorded.frame (Nat.le_refl _) .inl (kept found (.inr held)), starting⟩
  case setAside => exact consistent.setAside
  case missing => exact consistent.missing

end

end Dockge.Updater
