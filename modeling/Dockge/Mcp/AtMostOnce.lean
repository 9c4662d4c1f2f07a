import Mathlib.Logic.Relation
import Dockge.Mcp.Operations
import Dockge.Mcp.Reduction

namespace Dockge.Mcp

open Dockge.Data

/-! An operation is carried out once at most, and only with authority. -/

/-- The states follow each other. -/
inductive OpState.Next : OpState → OpState → Prop where
  | approve : Next .awaitingApproval .prepared
  | claim : Next .prepared .running
  | succeed : Next .running .succeeded
  | fail : Next .running .failed

/-- The same operation, later. -/
structure OperationRow.Follows (later earlier : OperationRow) : Prop where
  keyId : later.keyId = earlier.keyId
  policyVersion : later.policyVersion = earlier.policyVersion
  expiresAt : later.expiresAt = earlier.expiresAt
  state : Relation.ReflTransGen OpState.Next earlier.state later.state

theorem OperationRow.Follows.refl (row : OperationRow) : row.Follows row := ⟨rfl, rfl, rfl, .refl⟩

theorem OperationRow.Follows.trans {first second third : OperationRow} (lower : second.Follows first)
    (upper : third.Follows second) : third.Follows first :=
  ⟨upper.keyId.trans lower.keyId, upper.policyVersion.trans lower.policyVersion,
    upper.expiresAt.trans lower.expiresAt, lower.state.trans upper.state⟩

/-! ### What the log says -/

def OpEntry.task : OpEntry → Option Nat
  | .claimed _ task _ _ => some task
  | .looked task _ _ => some task
  | .executed _ task => some task
  | .guarded _ task => some task
  | _ => none

def Stored (id : Nat) (keyId : String) (mode : Mode) (version : Nat) (log : List OpEntry) : Prop :=
  .stored id keyId mode version ∈ log

def Claimed (id task : Nat) (log : List OpEntry) : Prop :=
  ∃ now expiresAt, .claimed id task now expiresAt ∈ log

/-- An operation that was stored for an approval has one. -/
def Approved (id : Nat) (mode : Mode) (log : List OpEntry) : Prop :=
  mode = .approval → ∃ owner, .approved id owner ∈ log

/-- The work is called: the task claimed the row before it expired, when it was approved if that was
needed, and found the key with the stored version since.  Nobody called it before. -/
def MayExecute (id task : Nat) (log : List OpEntry) : Prop :=
  (∀ other, .executed id other ∉ log) ∧
    ∃ since past keyId mode version now expiresAt,
      log = since ++ .claimed id task now expiresAt :: past ∧ now < expiresAt ∧
        (∀ other now expiresAt, .claimed id other now expiresAt ∉ past) ∧
        Stored id keyId mode version past ∧ Approved id mode past ∧ .looked task keyId version ∈ since

/-- The guard returns: the task found the key with the stored version since the work was called or
the guard returned the last time. -/
def MayPass (id task : Nat) (log : List OpEntry) : Prop :=
  ∃ since past last keyId mode version, log = since ++ last :: past ∧
    (last = .executed id task ∨ last = .guarded id task) ∧
    Stored id keyId mode version past ∧ .looked task keyId version ∈ since

def OpEntry.Allowed (before : List OpEntry) : OpEntry → Prop
  | .stored id _ _ _ => ∀ keyId mode version, ¬ Stored id keyId mode version before
  | .executed id task => MayExecute id task before
  | .guarded id task => MayPass id task before
  | _ => True

/-- Every entry was allowed when it was made. -/
def Justified : List OpEntry → Prop
  | [] => True
  | entry :: before => entry.Allowed before ∧ Justified before

/-- What the log says of a row. -/
structure OperationRow.Recorded (row : OperationRow) (id : Nat) (log : List OpEntry) : Prop where
  stored : ∃ mode, Stored id row.keyId mode row.policyVersion log ∧
    (row.state ≠ .awaitingApproval → Approved id mode log)
  unclaimed : row.state = .awaitingApproval ∨ row.state = .prepared → ∀ task, ¬ Claimed id task log

structure Db.Sound (db : Db) : Prop where
  justified : Justified db.log
  rows : ∀ id row, db.rows id = some row → row.Recorded id db.log
  claimed : ∀ id task, Claimed id task db.log → (db.rows id).isSome
  claimant : ∀ id task other, Claimed id task db.log → Claimed id other db.log → task = other
  executed : ∀ id task, .executed id task ∈ db.log → Claimed id task db.log
  stored : ∀ id keyId mode version, Stored id keyId mode version db.log → id < db.nextId
  fresh : ∀ id, db.nextId ≤ id → db.rows id = none

/-! ### The protocol -/

/-- The log grows, by entries of such tasks, the rows go on, and these rows stay as they are. -/
structure Db.Grows (tasks : Option Nat → Prop) (fixed : Nat → Prop) (before after : Db) : Prop where
  log : ∃ new, after.log = new ++ before.log ∧ ∀ entry ∈ new, tasks entry.task
  rows : ∀ id row, before.rows id = some row → ∃ next, after.rows id = some next ∧ next.Follows row
  fixed : ∀ id, fixed id → after.rows id = before.rows id

/-- A row that another task claimed is left alone. -/
def Own (task : Nat) (before after : Db) : Prop :=
  after.Sound ∧ before.Grows (fun by_ => ∀ other, by_ = some other → other = task)
    (fun id => ∃ other, other ≠ task ∧ Claimed id other before.log) after

/-- The others leave the rows alone that the task claimed, and make no entries for it. -/
def Others (task : Nat) (before after : Db) : Prop :=
  before.Grows (· ≠ some task) (fun id => Claimed id task before.log) after

theorem Claimed.append {id task : Nat} {log : List OpEntry} (new : List OpEntry) (claimed : Claimed id task log) :
    Claimed id task (new ++ log) := by
  obtain ⟨now, expiresAt, member⟩ := claimed
  exact ⟨now, expiresAt, List.mem_append_right new member⟩

theorem Others.refl (task : Nat) (db : Db) : Others task db db :=
  ⟨⟨[], rfl, by simp⟩, fun _ row held => ⟨row, held, .refl row⟩, fun _ _ => rfl⟩

theorem Db.Grows.mono {tasks : Option Nat → Prop} {fixed fixed' : Nat → Prop} {before after : Db}
    (grows : before.Grows tasks fixed after) (fewer : ∀ id, fixed' id → fixed id) :
    before.Grows tasks fixed' after :=
  ⟨grows.log, grows.rows, fun id kept => grows.fixed id (fewer id kept)⟩

theorem Db.Grows.trans {tasks : Option Nat → Prop} {fixed : Nat → Prop} {first second third : Db}
    (lower : first.Grows tasks fixed second) (upper : second.Grows tasks fixed third) :
    first.Grows tasks fixed third := by
  obtain ⟨newer, grown, foreign⟩ := upper.log
  obtain ⟨new, log, foreign'⟩ := lower.log
  refine ⟨⟨newer ++ new, by rw [grown, log, List.append_assoc], ?_⟩, ?_, ?_⟩
  · intro entry member
    rcases List.mem_append.mp member with member | member
    · exact foreign entry member
    · exact foreign' entry member
  · intro id row held
    obtain ⟨next, stored, follows⟩ := lower.rows id row held
    obtain ⟨last, kept, follows'⟩ := upper.rows id next stored
    exact ⟨last, kept, follows.trans follows'⟩
  · intro id kept
    exact (upper.fixed id kept).trans (lower.fixed id kept)

theorem Others.trans {task : Nat} {first second third : Db} (lower : Others task first second)
    (upper : Others task second third) : Others task first third := by
  apply Db.Grows.trans lower
  apply upper.mono
  intro id claimed
  obtain ⟨new, log, _⟩ := lower.log
  exact log ▸ claimed.append new

/-- Everything the tasks of the instances may do to the database. -/
def operationProtocol : Protocol Db where
  sound := Db.Sound
  own := Own
  others := Others
  refl := Others.refl
  trans := fun _ _ _ _ => Others.trans
  kept := fun _ _ _ _ own => own.1
  expected := by
    intro task other before after different _ own
    obtain ⟨_, log, rows, fixed⟩ := own
    obtain ⟨new, grown, mine⟩ := log
    refine ⟨⟨new, grown, ?_⟩, rows, ?_⟩
    · intro entry member same
      exact different (mine entry member other same).symm
    · intro id claimed
      exact fixed id ⟨other, different.symm, claimed⟩

/-- What the others do not take from a task. -/
def Stable (task : Nat) (Kept : Db → Prop) : Prop :=
  ∀ before after, Others task before after → after.Sound → Kept before → Kept after

theorem stable_true (task : Nat) : Stable task fun _ => True := fun _ _ _ _ _ => trivial

/-! ### Operations that leave the rows alone -/

section
variable {task : Nat} {db : Db} {Kept : Db → Prop}

/-- The row, the log and the names of new rows are all there is to the protocol. -/
theorem Db.Sound.quiet {after : Db} (sound : db.Sound) (rows : after.rows = db.rows)
    (log : after.log = db.log) (nextId : after.nextId = db.nextId) : after.Sound where
  justified := log ▸ sound.justified
  rows := by
    rw [rows, log]
    exact sound.rows
  claimed := by
    rw [rows, log]
    exact sound.claimed
  claimant := log ▸ sound.claimant
  executed := by
    rw [log]
    exact sound.executed
  stored := by
    rw [log, nextId]
    exact sound.stored
  fresh := by
    rw [rows, nextId]
    exact sound.fresh

theorem grows_quiet {after : Db} {tasks : Option Nat → Prop} {fixed : Nat → Prop}
    (rows : after.rows = db.rows) (log : after.log = db.log) : db.Grows tasks fixed after where
  log := ⟨[], by simp [log], by simp⟩
  rows := fun id row held => ⟨row, by rw [rows, held], .refl row⟩
  fixed := fun id _ => by rw [rows]

theorem ask_keeps {α : Type} {answer : Db → Except McpError α} {returned : α → Db → Prop}
    (stable : Stable task Kept) (kept : Kept db)
    (answered : ∀ later value, Kept later → later.Sound → answer later = .ok value → returned value later) :
    (ask answer).Keeps operationProtocol task returned (fun _ => Kept) db := by
  apply Async.Keeps.op
  intro later passed sound input
  have still := stable db later passed sound kept
  refine ⟨⟨sound, grows_quiet rfl rfl⟩, ?_, fun _ _ => still⟩
  intro value held
  dsimp only at held ⊢
  split at held
  · exact answered later value still sound held
  · cases held

theorem own_quiet (sound : db.Sound) : Own task db db := ⟨sound, grows_quiet rfl rfl⟩

/-- A statement that writes, where it works. -/
theorem write_keeps {α : Type} {act : Db → α × Db} {returned : α → Db → Prop}
    (stable : Stable task Kept) (kept : Kept db)
    (each : ∀ later, Kept later → later.Sound →
      Own task later (act later).2 ∧ returned (act later).1 (act later).2) :
    (write act).Keeps operationProtocol task returned (fun _ => Kept) db := by
  apply Async.Keeps.op
  intro later passed sound input
  have still := stable db later passed sound kept
  obtain ⟨own, answered⟩ := each later still sound
  cases input.works with
  | false => exact ⟨own_quiet sound, (fun _ held => by cases held), fun _ _ => still⟩
  | true =>
      refine ⟨own, ?_, fun _ held => by cases held⟩
      intro value held
      cases held
      exact answered

theorem inMemory_keeps {α : Type} {act : Db → α × Db} {returned : α → Db → Prop} {threw : McpError → Db → Prop}
    (stable : Stable task Kept) (kept : Kept db)
    (each : ∀ later, Kept later → later.Sound →
      Own task later (act later).2 ∧ returned (act later).1 (act later).2) :
    (inMemory act).Keeps operationProtocol task returned threw db := by
  apply Async.Keeps.op
  intro later passed sound input
  obtain ⟨own, answered⟩ := each later (stable db later passed sound kept) sound
  refine ⟨own, ?_, fun _ held => by cases held⟩
  intro value held
  cases held
  exact answered

/-- An operation that changes neither rows nor log. -/
theorem op_quiet_keeps {α : Type} {act : OpInput → Db → Except McpError α × Db}
    {returned : α → Db → Prop} (stable : Stable task Kept) (kept : Kept db)
    (quiet : ∀ input later, (act input later).2.rows = later.rows ∧ (act input later).2.log = later.log ∧
      (act input later).2.nextId = later.nextId)
    (answered : ∀ input later value, Kept (act input later).2 → (act input later).1 = .ok value →
      returned value (act input later).2) :
    (Async.op act).Keeps operationProtocol task returned (fun _ => Kept) db := by
  apply Async.Keeps.op
  intro later passed sound input
  obtain ⟨rows, log, nextId⟩ := quiet input later
  have quieted := sound.quiet rows log nextId
  have still : Kept (act input later).2 :=
    stable later _ (grows_quiet rows log) quieted (stable db later passed sound kept)
  exact ⟨⟨quieted, grows_quiet rows log⟩, fun value => answered input later value still,
    fun _ _ => still⟩

theorem Claimed.of_cons {id other : Nat} {entry : OpEntry} {log : List OpEntry}
    (harmless : ∀ id task now expiresAt, entry ≠ .claimed id task now expiresAt)
    (claimed : Claimed id other (entry :: log)) : Claimed id other log := by
  obtain ⟨now, expiresAt, member⟩ := claimed
  rcases List.mem_cons.mp member with same | member
  · exact absurd same.symm (harmless id other now expiresAt)
  · exact ⟨now, expiresAt, member⟩

theorem OperationRow.Recorded.cons {row : OperationRow} {id : Nat} {entry : OpEntry} {log : List OpEntry}
    (recorded : row.Recorded id log)
    (unclaimed : ∀ task, Claimed id task (entry :: log) → Claimed id task log) :
    row.Recorded id (entry :: log) := by
  obtain ⟨⟨mode, stored, approved⟩, early⟩ := recorded
  refine ⟨⟨mode, List.mem_cons_of_mem _ stored, ?_⟩, ?_⟩
  · intro past needed
    obtain ⟨owner, member⟩ := approved past needed
    exact ⟨owner, List.mem_cons_of_mem _ member⟩
  · intro waiting task claimed
    exact early waiting task (unclaimed task claimed)

/-- An entry that was allowed and neither stores nor claims a row. -/
theorem Db.Sound.note {entry : OpEntry} (sound : db.Sound) (allowed : entry.Allowed db.log)
    (unstored : ∀ id keyId mode version, entry ≠ .stored id keyId mode version)
    (unclaimed : ∀ id task now expiresAt, entry ≠ .claimed id task now expiresAt)
    (executes : ∀ id task, entry = .executed id task → Claimed id task db.log) :
    (db.note entry).Sound where
  justified := ⟨allowed, sound.justified⟩
  rows := fun id row held => (sound.rows id row held).cons fun _ => Claimed.of_cons unclaimed
  claimed := fun id task claimed => sound.claimed id task (claimed.of_cons unclaimed)
  claimant := fun id task other one another =>
    sound.claimant id task other (one.of_cons unclaimed) (another.of_cons unclaimed)
  executed := by
    intro id task member
    have earlier : Claimed id task db.log := by
      rcases List.mem_cons.mp member with same | member
      · exact executes id task same.symm
      · exact sound.executed id task member
    exact earlier.append [entry]
  stored := by
    intro id keyId mode version member
    rcases List.mem_cons.mp member with same | member
    · exact absurd same.symm (unstored id keyId mode version)
    · exact sound.stored id keyId mode version member
  fresh := sound.fresh

theorem Db.Sound.looked (sound : db.Sound) (keyId : String) (version : Nat) :
    (db.note (.looked task keyId version)).Sound :=
  sound.note trivial (by simp) (by simp) (by simp)

/-- A row goes on. -/
theorem Db.Sound.setRow {id : Nat} {row next : OperationRow} (sound : db.Sound)
    (held : db.rows id = some row) (recorded : next.Recorded id db.log) :
    ({ db with rows := Function.update db.rows id (some next) } : Db).Sound where
  justified := sound.justified
  rows := by
    intro other found present
    by_cases same : other = id
    · subst same
      obtain rfl : next = found := by simpa using present
      exact recorded
    · exact sound.rows other found (by simpa [Function.update_of_ne same] using present)
  claimed := by
    intro other task claimed
    by_cases same : other = id
    · simp [same]
    · simpa [Function.update_of_ne same] using sound.claimed other task claimed
  claimant := sound.claimant
  executed := sound.executed
  stored := sound.stored
  fresh := by
    intro other beyond
    have different : other ≠ id := by
      intro same
      have absent := sound.fresh other beyond
      rw [same, held] at absent
      cases absent
    simpa [Function.update_of_ne different] using sound.fresh other beyond

theorem grows_setRow {id : Nat} {row next : OperationRow} {tasks : Option Nat → Prop} {fixed : Nat → Prop}
    (held : db.rows id = some row) (follows : next.Follows row) (free : ¬ fixed id) :
    db.Grows tasks fixed { db with rows := Function.update db.rows id (some next) } where
  log := ⟨[], rfl, by simp⟩
  rows := by
    intro other found present
    by_cases same : other = id
    · subst same
      rw [held] at present
      cases present
      exact ⟨next, by simp, follows⟩
    · exact ⟨found, by simpa [Function.update_of_ne same] using present, .refl found⟩
  fixed := by
    intro other kept
    have different : other ≠ id := fun same => free (same ▸ kept)
    simp [Function.update_of_ne different]

theorem grows_note {entry : OpEntry} {tasks : Option Nat → Prop} {fixed : Nat → Prop}
    (mine : tasks entry.task) : db.Grows tasks fixed (db.note entry) where
  log := ⟨[entry], rfl, by simpa using mine⟩
  rows := fun _ row held => ⟨row, held, .refl row⟩
  fixed := fun _ _ => rfl

end

/-! ### Who asks -/

/-- A task that keeps something knows more of it once it looked at a key. -/
structure Looking (task : Nat) (keyId : String) (Kept : Db → Prop) (Seen : Nat → Db → Prop) : Prop where
  kept : Stable task Kept
  seen : ∀ version, Stable task (Seen version)
  looks : ∀ db version, Kept db → Seen version (db.note (.looked task keyId version))
  weakens : ∀ version db, Seen version db → Kept db

section
variable {task : Nat} {db : Db} {Kept : Db → Prop} {Seen : Nat → Db → Prop} {keyId : String}

theorem looking_true (task : Nat) (keyId : String) : Looking task keyId (fun _ => True) fun _ _ => True :=
  ⟨stable_true task, fun _ => stable_true task, fun _ _ _ => trivial, fun _ _ _ => trivial⟩

theorem readKey_keeps (looking : Looking task keyId Kept Seen) (kept : Kept db) :
    (readKey task keyId).Keeps operationProtocol task (fun row => Seen row.policyVersion) (fun _ => Kept)
      db := by
  apply Async.Keeps.op
  intro later passed sound input
  have still := looking.kept db later passed sound kept
  have noted (version : Nat) : Own task later (later.note (.looked task keyId version)) := by
    refine ⟨sound.looked keyId version, grows_note ?_⟩
    intro other same
    exact (Option.some.inj same).symm
  cases works : input.works with
  | false => exact ⟨⟨sound, grows_quiet rfl rfl⟩, (fun _ held => by cases held), fun _ _ => still⟩
  | true =>
      cases found : later.keys keyId with
      | none => exact ⟨⟨sound, grows_quiet rfl rfl⟩, (fun _ held => by cases held), fun _ _ => still⟩
      | some row =>
          have seen := looking.looks later row.policyVersion still
          dsimp only
          split
          · exact ⟨noted _, (fun _ held => by cases held), fun _ _ => looking.weakens _ _ seen⟩
          · refine ⟨noted _, ?_, fun _ held => by cases held⟩
            intro value held
            cases held
            exact seen

theorem identityOf_ok {row : KeyRow} {user : User} {identity : MachineIdentity}
    (resolved : identityOf keyId row user = .ok identity) :
    identity.keyId = keyId ∧ identity.policyVersion = row.policyVersion := by
  unfold identityOf at resolved
  split at resolved
  · cases resolved
  split at resolved
  · cases resolved
  dsimp only at resolved
  generalize (if effectiveRole row user = .operator then row.actions else []) = actions at resolved
  split at resolved
  · cases resolved
  · cases resolved
    exact ⟨rfl, rfl⟩

theorem refresh_keeps (looking : Looking task keyId Kept Seen) (kept : Kept db) :
    (refresh task keyId).Keeps operationProtocol task
      (fun identity reached => Seen identity.policyVersion reached ∧ identity.keyId = keyId) (fun _ => Kept)
      db := by
  apply Async.Keeps.bind (fun _ => Kept) (ask_keeps looking.kept kept fun _ _ still _ _ => still)
  intro _ db kept
  apply Async.Keeps.bind _ (readKey_keeps looking kept)
  intro row db seen
  apply Async.Keeps.bind (fun _ => Seen row.policyVersion)
  · apply (ask_keeps (looking.seen row.policyVersion) seen fun _ _ still _ _ => still).mono
    · exact fun _ _ still => still
    · exact fun _ _ still => looking.weakens _ _ still
  intro user db seen
  apply Async.Keeps.bind (fun identity reached => Seen identity.policyVersion reached ∧ identity.keyId = keyId)
  · apply Async.Keeps.ofExcept
    · intro identity resolved
      obtain ⟨same, version⟩ := identityOf_ok resolved
      exact ⟨version ▸ seen, same⟩
    · exact fun _ _ => looking.weakens _ _ seen
  intro identity db known
  obtain ⟨seen, same⟩ := known
  apply Async.Keeps.bind (fun _ reached => Seen identity.policyVersion reached)
  · apply (op_quiet_keeps (looking.seen identity.policyVersion) seen ?_ ?_).mono
    · exact fun _ _ still => still
    · exact fun _ _ still => looking.weakens _ _ still
    · intro input later
      dsimp only
      split <;> exact ⟨rfl, rfl, rfl⟩
    · exact fun _ _ _ still _ => still
  intro _ db seen
  exact Async.Keeps.pure ⟨seen, same⟩

theorem current_keeps {identity : MachineIdentity} (looking : Looking task identity.keyId Kept Seen)
    (kept : Kept db) :
    (current task identity).Keeps operationProtocol task
      (fun fresh reached => Seen fresh.policyVersion reached ∧ fresh.keyId = identity.keyId)
      (fun _ => Kept) db := by
  apply Async.Keeps.bind _ (refresh_keeps looking kept)
  intro fresh db known
  apply Async.Keeps.bind _ (Async.Keeps.check (looking.weakens _ _ known.1))
  intro _ reached unchanged
  obtain ⟨rfl, _⟩ := unchanged
  exact Async.Keeps.pure known

/-- Whoever owns an operation found its key with the stored version. -/
theorem owned_keeps {identity : MachineIdentity} {id : Nat}
    (looking : Looking task identity.keyId Kept Seen) (kept : Kept db) :
    (owned task identity id).Keeps operationProtocol task
      (fun found reached => Seen found.2.policyVersion reached ∧ found.1.keyId = identity.keyId ∧
        found.2.keyId = identity.keyId ∧ reached.rows id = some found.2)
      (fun _ => Kept) db := by
  apply Async.Keeps.bind _ (current_keeps looking kept)
  intro current db known
  obtain ⟨seen, same⟩ := known
  apply Async.Keeps.bind (fun row reached => Seen current.policyVersion reached ∧ row.keyId = current.keyId ∧
    reached.rows id = some row)
  · apply (ask_keeps (looking.seen current.policyVersion) seen ?_).mono
    · exact fun _ _ held => held
    · exact fun _ _ still => looking.weakens _ _ still
    · intro later row still _ held
      split at held
      · rename_i found present
        split at held
        · rename_i mine
          cases held
          exact ⟨still, mine, present⟩
        · cases held
      · cases held
  intro row db known
  obtain ⟨seen, mine, present⟩ := known
  have lost := looking.weakens _ _ seen
  apply Async.Keeps.bind _ (Async.Keeps.check lost)
  intro _ reached unchanged
  obtain ⟨rfl, _⟩ := unchanged
  apply Async.Keeps.bind _ (Async.Keeps.check lost)
  intro _ reached unchanged
  obtain ⟨rfl, passed⟩ := unchanged
  have version : current.policyVersion = row.policyVersion := by simpa using passed
  exact Async.Keeps.pure ⟨version ▸ seen, same, mine.trans same, present⟩

end

/-! ### What a task knows once it claimed a row -/

/-- What was known of an operation when it was claimed. -/
structure Grant where
  past : List OpEntry
  keyId : String
  mode : Mode
  version : Nat
  now : Nat
  expiresAt : Nat

structure Grant.Valid (grant : Grant) (id : Nat) : Prop where
  inTime : grant.now < grant.expiresAt
  first : ∀ other now expiresAt, .claimed id other now expiresAt ∉ grant.past
  stored : Stored id grant.keyId grant.mode grant.version grant.past
  approved : Approved id grant.mode grant.past

/-- The row is the task's to finish. -/
structure Running (id task : Nat) (keyId : String) (version : Nat) (db : Db) : Prop where
  claimed : Claimed id task db.log
  row : ∃ row, db.rows id = some row ∧ row.state = .running ∧ row.keyId = keyId ∧ row.policyVersion = version

/-- The row is claimed, its work was not called yet, and since then the log has such entries. -/
structure Grant.Held (grant : Grant) (id task : Nat) (holds : List OpEntry → Prop) (db : Db) : Prop where
  running : Running id task grant.keyId grant.version db
  unexecuted : ∀ other, .executed id other ∉ db.log
  since : ∃ since, db.log = since ++ .claimed id task grant.now grant.expiresAt :: grant.past ∧ holds since

/-- The work is under way, and since it was called or its guard returned the log has such entries. -/
structure Working (id task : Nat) (keyId : String) (version : Nat) (holds : List OpEntry → Prop) (db : Db) :
    Prop where
  running : Running id task keyId version db
  since : ∃ since past last mode, db.log = since ++ last :: past ∧
    (last = .executed id task ∨ last = .guarded id task) ∧ Stored id keyId mode version past ∧ holds since

/-- Later entries do not take from what holds. -/
def Lasting (holds : List OpEntry → Prop) : Prop := ∀ new since, holds since → holds (new ++ since)

theorem lasting_true : Lasting fun _ => True := fun _ _ _ => trivial

theorem lasting_mem (entry : OpEntry) : Lasting (entry ∈ ·) := fun new _ member =>
  List.mem_append_right new member

section
variable {id task : Nat} {keyId : String} {version : Nat} {grant : Grant} {db : Db}
  {holds : List OpEntry → Prop}

theorem Running.stable : Stable task (Running id task keyId version) := by
  intro before after others _ running
  obtain ⟨new, log, _⟩ := others.log
  refine ⟨log ▸ running.claimed.append new, ?_⟩
  rw [others.fixed id running.claimed]
  exact running.row

theorem Grant.Held.stable (lasting : Lasting holds) : Stable task (grant.Held id task holds) := by
  intro before after others sound held
  obtain ⟨new, log, foreign⟩ := others.log
  have running := Running.stable before after others sound held.running
  refine ⟨running, ?_, ?_⟩
  · intro other member
    have owner : other = task :=
      sound.claimant id other task (sound.executed id other member) running.claimed
    subst owner
    rw [log] at member
    rcases List.mem_append.mp member with member | member
    · exact foreign _ member rfl
    · exact held.unexecuted other member
  · obtain ⟨since, same, known⟩ := held.since
    exact ⟨new ++ since, by rw [log, same, List.append_assoc], lasting new since known⟩

theorem Working.stable (lasting : Lasting holds) : Stable task (Working id task keyId version holds) := by
  intro before after others sound working
  obtain ⟨new, log, _⟩ := others.log
  refine ⟨Running.stable before after others sound working.running, ?_⟩
  obtain ⟨since, past, last, mode, same, called, stored, known⟩ := working.since
  exact ⟨new ++ since, past, last, mode, by rw [log, same, List.append_assoc], called, stored,
    lasting new since known⟩

theorem Running.note {entry : OpEntry} (running : Running id task keyId version db) :
    Running id task keyId version (db.note entry) :=
  ⟨running.claimed.append [entry], running.row⟩

/-- A task that looks at a key after it claimed a row has that in its entries since. -/
theorem Grant.Held.looking (grant : Grant) (id task : Nat) (keyId : String) :
    Looking task keyId (grant.Held id task fun _ => True)
      (fun version => grant.Held id task (.looked task keyId version ∈ ·)) where
  kept := Grant.Held.stable lasting_true
  seen := fun version => Grant.Held.stable (lasting_mem _)
  looks := by
    intro db version held
    obtain ⟨since, log, _⟩ := held.since
    refine ⟨held.running.note, ?_, ?_⟩
    · intro other member
      exact held.unexecuted other (by simpa [Db.note] using member)
    · exact ⟨.looked task keyId version :: since, by simp [Db.note, log], List.mem_cons_self⟩
  weakens := by
    intro version db held
    obtain ⟨since, log, _⟩ := held.since
    exact ⟨held.running, held.unexecuted, since, log, trivial⟩

theorem Working.looking (id task : Nat) (keyId other : String) (version : Nat) :
    Looking task other (Working id task keyId version fun _ => True)
      (fun seen => Working id task keyId version (.looked task other seen ∈ ·)) where
  kept := Working.stable lasting_true
  seen := fun _ => Working.stable (lasting_mem _)
  looks := by
    intro db seen working
    obtain ⟨since, past, last, mode, log, called, stored, _⟩ := working.since
    exact ⟨working.running.note, .looked task other seen :: since, past, last, mode, by simp [Db.note, log],
      called, stored, List.mem_cons_self⟩
  weakens := by
    intro _ db working
    obtain ⟨since, past, last, mode, log, called, stored, _⟩ := working.since
    exact ⟨working.running, since, past, last, mode, log, called, stored, trivial⟩

end

/-! ### Carrying an operation out -/

section
variable {id task : Nat} {keyId : String} {version : Nat} {grant : Grant} {db : Db}

theorem not_claimed_by_other {row : OperationRow} (sound : db.Sound) (held : db.rows id = some row)
    (early : row.state = .awaitingApproval ∨ row.state = .prepared) :
    ¬ ∃ other, other ≠ task ∧ Claimed id other db.log := by
  intro foreign
  obtain ⟨other, _, claimed⟩ := foreign
  exact (sound.rows id row held).unclaimed early other claimed

/-- The claim of a row that was prepared. -/
theorem Db.Sound.claim {row : OperationRow} {now : Nat} (sound : db.Sound) (held : db.rows id = some row)
    (prepared : row.state = .prepared) :
    ({ db with
      rows := Function.update db.rows id (some { row with state := .running })
      log := .claimed id task now row.expiresAt :: db.log } : Db).Sound := by
  have free : ∀ other, ¬ Claimed id other db.log := (sound.rows id row held).unclaimed (.inr prepared)
  have before {other : Nat} {place : Nat} (different : place ≠ id)
      (claimed : Claimed place other (.claimed id task now row.expiresAt :: db.log)) :
      Claimed place other db.log := by
    obtain ⟨moment, expiresAt, member⟩ := claimed
    rcases List.mem_cons.mp member with same | member
    · cases same
      exact absurd rfl different
    · exact ⟨moment, expiresAt, member⟩
  have mine {other : Nat} (claimed : Claimed id other (.claimed id task now row.expiresAt :: db.log)) :
      other = task := by
    obtain ⟨moment, expiresAt, member⟩ := claimed
    rcases List.mem_cons.mp member with same | member
    · cases same
      rfl
    · exact absurd ⟨moment, expiresAt, member⟩ (free other)
  refine ⟨⟨trivial, sound.justified⟩, ?_, ?_, ?_, ?_, ?_, ?_⟩
  · intro place found present
    by_cases same : place = id
    · subst same
      obtain rfl : { row with state := .running } = found := by simpa using present
      obtain ⟨⟨mode, stored, approved⟩, _⟩ := sound.rows place row held
      refine ⟨⟨mode, List.mem_cons_of_mem _ stored, ?_⟩, by simp⟩
      intro _ needed
      obtain ⟨owner, member⟩ := approved (by simp [prepared]) needed
      exact ⟨owner, List.mem_cons_of_mem _ member⟩
    · exact (sound.rows place found (by simpa [Function.update_of_ne same] using present)).cons
        fun _ => before same
  · intro place other claimed
    by_cases same : place = id
    · simp [same]
    · simpa [Function.update_of_ne same] using sound.claimed place other (before same claimed)
  · intro place one other claimed claimed'
    by_cases same : place = id
    · subst same
      exact (mine claimed).trans (mine claimed').symm
    · exact sound.claimant place one other (before same claimed) (before same claimed')
  · intro place other member
    exact (sound.executed place other (by simpa using member)).append [_]
  · intro place keyId mode version member
    exact sound.stored place keyId mode version (by simpa [Stored] using member)
  · intro place beyond
    have different : place ≠ id := by
      intro same
      have absent := sound.fresh place beyond
      rw [same, held] at absent
      cases absent
    simpa [Function.update_of_ne different] using sound.fresh place beyond

theorem own_note {db : Db} {entry : OpEntry} (sound : (db.note entry).Sound)
    (mine : ∀ other, entry.task = some other → other = task) : Own task db (db.note entry) :=
  ⟨sound, grows_note mine⟩

theorem claim_keeps {now : Nat} :
    (claim task id now).Keeps operationProtocol task
      (fun claimed reached => claimed = true →
        ∃ grant : Grant, grant.Valid id ∧ grant.Held id task (fun _ => True) reached)
      (fun _ _ => True) db := by
  apply write_keeps (stable_true task) trivial
  intro later _ sound
  have unclaimed : Own task later later ∧ (false = true →
      ∃ grant : Grant, grant.Valid id ∧ grant.Held id task (fun _ => True) later) :=
    ⟨own_quiet sound, by simp⟩
  cases held : later.rows id with
  | none => exact unclaimed
  | some row =>
      dsimp only
      split
      · rename_i allowed
        have free : ¬ ∃ other, other ≠ task ∧ Claimed id other later.log :=
          not_claimed_by_other sound held (.inr allowed.1)
        have follows : { row with state := .running }.Follows row := by
          refine ⟨rfl, rfl, rfl, ?_⟩
          rw [allowed.1]
          exact .single .claim
        refine ⟨⟨sound.claim held allowed.1, ?_⟩, ?_⟩
        · have logged : later.Grows (fun by_ => ∀ other, by_ = some other → other = task)
              (fun id => ∃ other, other ≠ task ∧ Claimed id other later.log)
              (later.note (.claimed id task now row.expiresAt)) := by
            apply grows_note
            intro other same
            exact (Option.some.inj same).symm
          have heldNoted : (later.note (.claimed id task now row.expiresAt)).rows id = some row := held
          exact logged.trans (grows_setRow heldNoted follows free)
        · intro _
          obtain ⟨⟨mode, stored, approved⟩, early⟩ := sound.rows id row held
          have unclaimed := early (.inr allowed.1)
          refine ⟨⟨later.log, row.keyId, mode, row.policyVersion, now, row.expiresAt⟩, ?_, ?_⟩
          · refine ⟨allowed.2, ?_, stored, approved (by simp [allowed.1])⟩
            intro other moment expiresAt member
            exact unclaimed other ⟨moment, expiresAt, member⟩
          · refine ⟨⟨⟨now, row.expiresAt, List.mem_cons_self⟩, ⟨{ row with state := .running }, by simp, rfl, rfl, rfl⟩⟩,
              ?_, [], rfl, trivial⟩
            intro other member
            exact unclaimed other (sound.executed id other (by simpa using member))
      · exact unclaimed

/-- The end of the work is stored by the task that claimed the row. -/
theorem finish_keeps {state : OpState} {result : List (String × Scalar)}
    (ends : OpState.Next .running state) (running : Running id task keyId version db) :
    (finish id state result).Keeps operationProtocol task (fun _ _ => True)
      (fun _ => Running id task keyId version) db := by
  apply write_keeps Running.stable running
  intro later running sound
  obtain ⟨row, held, underway, _, _⟩ := running.row
  refine ⟨?_, trivial⟩
  dsimp only
  rw [held]
  have follows : { row with state, result := some result }.Follows row := by
    refine ⟨rfl, rfl, rfl, ?_⟩
    rw [underway]
    exact .single ends
  have free : ¬ ∃ other, other ≠ task ∧ Claimed id other later.log := by
    intro foreign
    obtain ⟨other, different, claimed⟩ := foreign
    exact different (sound.claimant id other task claimed running.claimed)
  refine ⟨sound.setRow held ?_, grows_setRow held follows free⟩
  obtain ⟨⟨mode, stored, approved⟩, _⟩ := sound.rows id row held
  refine ⟨⟨mode, stored, fun _ => approved (by simp [underway])⟩, ?_⟩
  intro early
  cases ends <;> simp at early

/-- The guard returns only where the task still has the key with the stored version. -/
theorem guardWork_keeps {identity : MachineIdentity} (same : identity.keyId = keyId)
    (working : Working id task keyId version (fun _ => True) db) :
    (guardWork task identity id).Keeps operationProtocol task
      (fun _ => Working id task keyId version fun _ => True) (fun _ => Running id task keyId version) db := by
  have looking := Working.looking id task keyId identity.keyId version
  apply Async.Keeps.bind _ ((owned_keeps looking working).mono (fun _ _ held => held)
    fun _ _ working => working.running)
  intro found db known
  obtain ⟨working, _, mine, present⟩ := known
  have version_same : found.2.policyVersion = version := by
    obtain ⟨row, held, _, _, version⟩ := working.running.row
    rw [present] at held
    cases held
    exact version
  rw [version_same, same] at working
  apply inMemory_keeps (Working.stable (lasting_mem _)) working
  intro later working sound
  obtain ⟨since, past, last, mode, log, called, stored, looked⟩ := working.since
  have allowed : (OpEntry.guarded id task).Allowed later.log :=
    ⟨since, past, last, keyId, mode, version, log, called, stored, looked⟩
  have noted : (later.note (.guarded id task)).Sound := sound.note allowed (by simp) (by simp) (by simp)
  refine ⟨own_note noted ?_, working.running.note, [], later.log, .guarded id task, mode, rfl, .inr rfl, ?_,
    trivial⟩
  · intro other same
    exact (Option.some.inj same).symm
  · rw [log]
    exact List.mem_append_right since (List.mem_cons_of_mem last stored)

/-- The work is called, and goes on under its guard. -/
theorem execute_keeps {identity : MachineIdentity} {action : PreparedAction} (valid : grant.Valid id)
    (same : identity.keyId = grant.keyId)
    (held : grant.Held id task (.looked task grant.keyId grant.version ∈ ·) db) :
    (execute task identity id action).Keeps operationProtocol task
      (fun _ => Running id task grant.keyId grant.version)
      (fun _ => Running id task grant.keyId grant.version) db := by
  let Kept : Db → Prop := Working id task grant.keyId grant.version fun _ => True
  apply Async.Keeps.bind (fun _ => Kept)
  · apply inMemory_keeps (Grant.Held.stable (lasting_mem _)) held
    intro later held sound
    obtain ⟨since, log, looked⟩ := held.since
    have allowed : (OpEntry.executed id task).Allowed later.log :=
      ⟨held.unexecuted, since, grant.past, grant.keyId, grant.mode, grant.version, grant.now, grant.expiresAt,
        log, valid.inTime, valid.first, valid.stored, valid.approved, looked⟩
    have noted : (later.note (.executed id task)).Sound := by
      apply sound.note allowed (by simp) (by simp)
      intro place other same
      cases same
      exact held.running.claimed
    refine ⟨own_note noted ?_, held.running.note, [], later.log, .executed id task, grant.mode, rfl, .inl rfl, ?_,
      trivial⟩
    · intro other same
      exact (Option.some.inj same).symm
    · rw [log]
      exact List.mem_append_right since (List.mem_cons_of_mem _ valid.stored)
  intro _ db working
  apply Async.Keeps.bind (fun _ => Kept)
  · apply Async.Keeps.repeatTimes action.guards working
    intro db working
    apply Async.Keeps.bind _ (guardWork_keeps same working)
    intro _ db working
    apply (ask_keeps (Working.stable lasting_true) working fun _ _ still _ _ => still).mono
    · exact fun _ _ still => still
    · exact fun _ _ still => still.running
  intro _ db working
  apply op_quiet_keeps Running.stable working.running
  · exact fun _ _ => ⟨rfl, rfl, rfl⟩
  · exact fun _ _ _ still _ => still

theorem revalidate_keeps {Kept : Db → Prop} (stable : Stable task Kept) (kept : Kept db) :
    revalidate.Keeps operationProtocol task (fun _ => Kept) (fun _ => Kept) db := by
  apply op_quiet_keeps stable kept
  · exact fun _ _ => ⟨rfl, rfl, rfl⟩
  · exact fun _ _ _ still _ => still

theorem work_keeps {identity : MachineIdentity} {action : PreparedAction} (valid : grant.Valid id)
    (held : grant.Held id task (fun _ => True) db) :
    (work task identity id action).Keeps operationProtocol task (fun _ _ => True)
      (fun _ => Running id task grant.keyId grant.version) db := by
  have looking := Grant.Held.looking grant id task identity.keyId
  apply Async.Keeps.bind _ ((owned_keeps looking held).mono (fun _ _ known => known)
    fun _ _ held => held.running)
  intro found db known
  obtain ⟨held, _, mine, present⟩ := known
  obtain ⟨row, stored, _, keyId, version⟩ := held.running.row
  rw [present] at stored
  cases stored
  have same : identity.keyId = grant.keyId := mine.symm.trans keyId
  rw [version, same] at held
  have stable : Stable task (grant.Held id task (.looked task grant.keyId grant.version ∈ ·)) :=
    Grant.Held.stable (lasting_mem _)
  apply Async.Keeps.bind _ ((revalidate_keeps stable held).mono (fun _ _ held => held)
    fun _ _ held => held.running)
  intro _ db held
  apply Async.Keeps.bind _ (Async.Keeps.check held.running)
  intro _ reached unchanged
  obtain ⟨rfl, _⟩ := unchanged
  apply Async.Keeps.bind _ (execute_keeps valid same held)
  intro _ db running
  exact finish_keeps .succeed running

theorem forget_keeps {instanceId : Nat} {threw : McpError → Db → Prop} :
    (forget instanceId id).Keeps operationProtocol task (fun _ _ => True) threw db := by
  apply inMemory_keeps (stable_true task) trivial
  intro later _ sound
  exact ⟨⟨sound.quiet rfl rfl rfl, grows_quiet rfl rfl⟩, trivial⟩

theorem carryOut_keeps {identity : MachineIdentity} {instanceId : Nat} {action : PreparedAction}
    (valid : grant.Valid id) (held : grant.Held id task (fun _ => True) db) :
    (carryOut task instanceId identity id action).Keeps operationProtocol task (fun _ _ => True)
      (fun _ _ => True) db := by
  apply Async.Keeps.bind (fun _ _ => True)
  · apply Async.Keeps.orElse (fun _ _ => True)
    · apply Async.Keeps.orElse _ (work_keeps valid held)
      intro _ db running
      exact (finish_keeps .fail running).mono (fun _ _ _ => trivial) fun _ _ _ => trivial
    · intro error db _
      exact Async.Keeps.bind (fun _ _ => True) forget_keeps fun _ _ _ => Async.Keeps.fail trivial
  · exact fun _ _ _ => forget_keeps

/-! ### The calls -/

/-- The task keeps to the protocol, and nothing is said of how it ends. -/
abbrev Behaves {α : Type} (task : Nat) (program : OpTask α) (db : Db) : Prop :=
  program.Keeps operationProtocol task (fun _ _ => True) (fun _ _ => True) db

theorem Behaves.bind {α β : Type} {first : OpTask α} {next : α → OpTask β} (before : Behaves task first db)
    (after : ∀ value db, Behaves task (next value) db) : Behaves task (first >>= next) db :=
  Async.Keeps.bind (fun _ _ => True) before fun value db _ => after value db

theorem Behaves.done {α : Type} {value : α} : Behaves task (pure value) db := trivial

theorem Behaves.failIf {condition : Bool} {error : McpError} : Behaves task (Async.failIf condition error) db :=
  Async.Keeps.failIf (fun _ => trivial) fun _ => trivial

theorem Behaves.ofExcept {α : Type} {result : Except McpError α} : Behaves task (Async.ofExcept result) db :=
  Async.Keeps.ofExcept (fun _ _ => trivial) fun _ _ => trivial

theorem Behaves.ask {α : Type} {answer : Db → Except McpError α} : Behaves task (Mcp.ask answer) db :=
  ask_keeps (stable_true task) trivial fun _ _ _ _ _ => trivial

theorem Behaves.inMemory {α : Type} {act : Db → α × Db} (quiet : ∀ db, (act db).2.rows = db.rows ∧
    (act db).2.log = db.log ∧ (act db).2.nextId = db.nextId) : Behaves task (Mcp.inMemory act) db :=
  op_quiet_keeps (stable_true task) trivial (fun _ => quiet) fun _ _ _ _ _ => trivial

theorem current_behaves {identity : MachineIdentity} : Behaves task (current task identity) db :=
  (current_keeps (looking_true task _) trivial).mono (fun _ _ _ => trivial) fun _ _ _ => trivial

theorem owned_behaves {identity : MachineIdentity} : Behaves task (owned task identity id) db :=
  (owned_keeps (looking_true task _) trivial).mono (fun _ _ _ => trivial) fun _ _ _ => trivial

theorem claimAndWork_behaves {instanceId : Nat} {identity : MachineIdentity} {action : PreparedAction} :
    Behaves task (claimAndWork task instanceId identity id action) db := by
  apply Behaves.bind (revalidate_keeps (stable_true task) trivial)
  intro valid db
  apply Behaves.bind Behaves.failIf
  intro _ db
  apply Behaves.bind owned_behaves
  intro _ db
  apply Behaves.bind (Behaves.inMemory fun _ => ⟨rfl, rfl, rfl⟩)
  intro now db
  apply Async.Keeps.bind _ claim_keeps
  intro claimed db granted
  split
  · rename_i won
    obtain ⟨grant, valid, held⟩ := granted won
    apply Async.Keeps.bind _ (carryOut_keeps valid held)
    intro _ db _
    exact Behaves.bind owned_behaves fun _ _ => Behaves.done
  · exact Behaves.bind owned_behaves fun _ _ => Behaves.done

theorem apply_behaves {instanceId : Nat} {identity : MachineIdentity} {parametersHash : String} :
    Behaves task (Mcp.apply task instanceId identity id parametersHash) db := by
  apply Behaves.bind owned_behaves
  intro found db
  apply Behaves.bind Behaves.failIf
  intro _ db
  split
  · exact Behaves.done
  · apply Behaves.bind (Behaves.inMemory fun _ => ⟨rfl, rfl, rfl⟩)
    intro held db
    exact Behaves.bind Behaves.ofExcept fun _ _ => claimAndWork_behaves

theorem approve_behaves {ownerId : String} : Behaves task (approve ownerId id) db := by
  apply Behaves.bind Behaves.ask
  intro _ db
  apply Behaves.bind (Behaves.inMemory fun _ => ⟨rfl, rfl, rfl⟩)
  intro now db
  refine Behaves.bind ?_ fun _ _ => Behaves.failIf
  apply write_keeps (stable_true task) trivial
  intro later _ sound
  cases held : later.rows id with
  | none => exact ⟨own_quiet sound, trivial⟩
  | some row =>
      dsimp only
      split
      · rename_i allowed
        refine ⟨?_, trivial⟩
        have free : ¬ ∃ other, other ≠ task ∧ Claimed id other later.log :=
          not_claimed_by_other sound held (.inl allowed.1)
        have heldNoted : (later.note (.approved id ownerId)).rows id = some row := held
        have follows : { row with approvedBy := some ownerId, state := .prepared }.Follows row := by
          refine ⟨rfl, rfl, rfl, ?_⟩
          rw [allowed.1]
          exact .single .approve
        have noted : (later.note (.approved id ownerId)).Sound :=
          sound.note trivial (by simp) (by simp) (by simp)
        refine ⟨noted.setRow held ?_, (grows_note (by simp [OpEntry.task])).trans
          (grows_setRow heldNoted follows free)⟩
        obtain ⟨⟨mode, stored, _⟩, early⟩ := noted.rows id row held
        refine ⟨⟨mode, stored, fun _ _ => ⟨ownerId, List.mem_cons_self⟩⟩, ?_⟩
        exact fun _ => early (.inl allowed.1)
      · exact ⟨own_quiet sound, trivial⟩

theorem review_behaves {instanceId : Nat} {ownerId : String} : Behaves task (review instanceId ownerId id) db := by
  apply Behaves.bind Behaves.ask
  intro _ db
  apply Behaves.bind (Behaves.inMemory fun _ => ⟨rfl, rfl, rfl⟩)
  intro now db
  apply Behaves.bind Behaves.ask
  intro row db
  apply Behaves.bind (Behaves.inMemory fun _ => ⟨rfl, rfl, rfl⟩)
  intro held db
  exact Behaves.bind Behaves.failIf fun _ _ => Behaves.done

/-- A new row waits for its approval where its key needs one. -/
theorem insertOperation_behaves {instanceId : Nat} {row : OperationRow} {mode : Mode} {action : PreparedAction}
    (waits : row.state = if mode = .approval then .awaitingApproval else .prepared) :
    Behaves task (insertOperation instanceId row mode action) db := by
  apply Async.Keeps.op
  intro later _ sound input
  refine ⟨?_, fun _ _ => trivial, fun _ _ => trivial⟩
  split
  · have absent := sound.fresh later.nextId (Nat.le_refl _)
    have different {id : Nat} {found : OperationRow} (held : later.rows id = some found) : id ≠ later.nextId := by
      rintro rfl
      rw [absent] at held
      cases held
    have before {id other : Nat}
        (claimed : Claimed id other (.stored later.nextId row.keyId mode row.policyVersion :: later.log)) :
        Claimed id other later.log := claimed.of_cons (by simp)
    refine ⟨⟨⟨?_, sound.justified⟩, ?_, ?_, ?_, ?_, ?_, ?_⟩, ?_⟩
    · intro keyId mode version member
      exact Nat.lt_irrefl _ (sound.stored _ keyId mode version member)
    · intro id found held
      by_cases same : id = later.nextId
      · subst same
        obtain rfl : row = found := by simpa using held
        refine ⟨⟨mode, List.mem_cons_self, ?_⟩, ?_⟩
        · intro past needed
          simp [waits, needed] at past
        · intro _ other claimed
          have present := sound.claimed _ other (before claimed)
          simp [absent] at present
      · exact (sound.rows id found (by simpa [Function.update_of_ne same] using held)).cons fun _ => before
    · intro id other claimed
      have present := sound.claimed id other (before claimed)
      by_cases same : id = later.nextId
      · simp [same]
      · simpa [Function.update_of_ne same] using present
    · intro id one other claimed claimed'
      exact sound.claimant id one other (before claimed) (before claimed')
    · intro id other member
      exact (sound.executed id other (by simpa using member)).append [_]
    · intro id keyId mode version member
      change id < later.nextId + 1
      rcases List.mem_cons.mp member with same | member
      · cases same
        exact Nat.lt_succ_self _
      · exact Nat.lt_succ_of_lt (sound.stored id keyId mode version member)
    · intro id beyond
      change later.nextId + 1 ≤ id at beyond
      have different : id ≠ later.nextId := by omega
      simpa [Function.update_of_ne different] using sound.fresh id (by omega)
    · refine ⟨⟨[.stored later.nextId row.keyId mode row.policyVersion], rfl, by simp [OpEntry.task]⟩, ?_, ?_⟩
      · intro id found held
        exact ⟨found, by simpa [Function.update_of_ne (different held)] using held, .refl found⟩
      · intro id foreign
        obtain ⟨other, _, claimed⟩ := foreign
        obtain ⟨found, held⟩ := Option.isSome_iff_exists.mp (sound.claimed id other claimed)
        simp [Function.update_of_ne (different held)]
  · exact own_quiet sound

theorem forgetExpired_behaves {instanceId : Nat} (ids : List Nat) :
    Behaves task (forgetExpired instanceId ids) db := by
  induction ids generalizing db with
  | nil => exact Behaves.done
  | cons id rest ih =>
      apply Behaves.bind Behaves.ask
      intro gone db
      split
      · exact Behaves.bind forget_keeps fun _ _ => ih
      · exact ih

theorem makeRoom_behaves {instanceId : Nat} : Behaves task (makeRoom instanceId) db := by
  apply Behaves.bind (Behaves.inMemory fun _ => ⟨rfl, rfl, rfl⟩)
  intro held db
  split
  · exact Behaves.done
  · apply Behaves.bind (forgetExpired_behaves held)
    intro _ db
    exact Behaves.bind (Behaves.inMemory fun _ => ⟨rfl, rfl, rfl⟩) fun _ _ => Behaves.failIf

theorem storedMeanwhile_behaves {identity : MachineIdentity} {requestId hash : String} :
    Behaves task (storedMeanwhile task identity requestId hash) db := by
  apply Behaves.bind Behaves.ask
  intro duplicate db
  split
  · exact Async.Keeps.fail trivial
  · apply Behaves.bind Behaves.failIf
    intro _ db
    exact Behaves.bind owned_behaves fun _ _ => Behaves.done

theorem prepareNew_behaves {instanceId : Nat} {identity : MachineIdentity} {request : PrepareRequest}
    {permission hash : String} :
    Behaves task (prepareNew task instanceId identity request permission hash) db := by
  apply Behaves.bind
  · apply op_quiet_keeps (stable_true task) trivial
    · intro input later
      cases input.action <;> exact ⟨rfl, rfl, rfl⟩
    · exact fun _ _ _ _ _ => trivial
  intro action db
  apply Behaves.bind Behaves.failIf
  intro _ db
  apply Behaves.bind current_behaves
  intro fresh db
  apply Behaves.bind Behaves.failIf
  intro _ db
  apply Behaves.bind Behaves.failIf
  intro _ db
  apply Behaves.bind makeRoom_behaves
  intro _ db
  apply Behaves.bind (Behaves.inMemory fun _ => ⟨rfl, rfl, rfl⟩)
  intro now db
  apply Behaves.bind (insertOperation_behaves rfl)
  intro stored db
  split
  · exact Behaves.done
  · exact storedMeanwhile_behaves

theorem prepare_behaves {handlers : Handlers} {instanceId : Nat} {identity : MachineIdentity}
    {request : PrepareRequest} : Behaves task (prepare handlers task instanceId identity request) db := by
  apply Behaves.bind current_behaves
  intro current db
  apply Behaves.bind Behaves.ofExcept
  intro resolved db
  apply Behaves.bind Behaves.ask
  intro found db
  split
  · apply Behaves.bind owned_behaves
    intro _ db
    exact Behaves.bind Behaves.failIf fun _ _ => Behaves.done
  · exact prepareNew_behaves

theorem program_behaves (handlers : Handlers) (call : OpCall) (task : Nat) (db : Db) :
    Behaves task (call.program handlers task) db := by
  have answers {α : Type} {program : OpTask α} (behaves : Behaves task program db) :
      Behaves task (answered program) db := Behaves.bind behaves fun _ _ => Behaves.done
  cases call with
  | prepare instanceId identity request => exact answers prepare_behaves
  | status identity id => exact answers owned_behaves
  | apply instanceId identity id parametersHash => exact answers apply_behaves
  | review instanceId ownerId id => exact answers review_behaves
  | approve ownerId id => exact approve_behaves

end

/-! ### All runs -/

theorem Justified.allowed {entry : OpEntry} {after before : List OpEntry}
    (justified : Justified (after ++ entry :: before)) : entry.Allowed before := by
  induction after with
  | nil => exact justified.1
  | cons _ _ ih => exact ih justified.2

/-- No operation was ever stored. -/
def Outside.empty (outside : Outside) : Db :=
  { enabled := outside.enabled
    keys := outside.keys
    users := outside.users
    rows := fun _ => none
    nextId := 0
    now := outside.now
    prepared := fun _ => []
    log := [] }

theorem Outside.empty_sound (outside : Outside) : outside.empty.Sound where
  justified := trivial
  rows := fun _ _ held => by cases held
  claimed := by simp [Claimed, Outside.empty]
  claimant := by simp [Claimed, Outside.empty]
  executed := by simp [Outside.empty]
  stored := by simp [Stored, Outside.empty]
  fresh := fun _ _ => rfl

theorem outside_changes (outside : Outside) (db : Db) (sound : db.Sound) :
    (outside.apply db).Sound ∧ ∀ task, Others task db (outside.apply db) :=
  ⟨sound.quiet rfl rfl rfl, fun _ => grows_quiet rfl rfl⟩

abbrev runOperations (handlers : Handlers) (outside : Outside)
    (history : List (PoolEvent OpCall OpInput Outside)) : Db :=
  (replay (Pool.step (OpCall.program handlers) Outside.apply) (Pool.initial outside.empty) history).shared

/-- In every run of any number of instances, the work of an operation is called once at most, by the
task that claimed its row before the row expired, with the approval it needed, after that task found
the key again with the version of the row; its guard returns only where that was found again; and
the rows only go on. -/
theorem operation_takes_effect_once (handlers : Handlers) (outside : Outside)
    (earlier later : List (PoolEvent OpCall OpInput Outside)) :
    let db := runOperations handlers outside (earlier ++ later)
    (∀ id task after before, db.log = after ++ .executed id task :: before → MayExecute id task before) ∧
      (∀ id task after before, db.log = after ++ .guarded id task :: before → MayPass id task before) ∧
      (∀ id keyId mode version after before, db.log = after ++ .stored id keyId mode version :: before →
        ∀ keyId mode version, ¬ Stored id keyId mode version before) ∧
      (∀ id row, db.rows id = some row → ∃ mode, Stored id row.keyId mode row.policyVersion db.log) ∧
      ∀ id row, (runOperations handlers outside earlier).rows id = some row →
        ∃ next, db.rows id = some next ∧ next.Follows row := by
  have starts : ∀ (call : OpCall) (task : Nat) (db : Db), operationProtocol.sound db →
      (call.program handlers task).Keeps operationProtocol task (fun _ _ => True) (fun _ _ => True) db :=
    fun call task db _ => program_behaves handlers call task db
  have reached := Pool.sound_of_run starts outside_changes outside.empty_sound earlier
  have ended := Pool.sound_of_run starts outside_changes outside.empty_sound (earlier ++ later)
  have sound : (runOperations handlers outside (earlier ++ later)).Sound := ended.sound
  have allowed {entry : OpEntry} {after before : List OpEntry}
      (same : (runOperations handlers outside (earlier ++ later)).log = after ++ entry :: before) :
      entry.Allowed before := by
    have justified := sound.justified
    rw [same] at justified
    exact justified.allowed
  let Related : Db → Db → Prop := Db.Grows (fun _ => True) fun _ => False
  have owns (task : Nat) (before after : Db) (own : Own task before after) : Related before after := by
    obtain ⟨_, ⟨new, log, _⟩, rows, _⟩ := own
    exact ⟨⟨new, log, fun _ _ => trivial⟩, rows, fun _ impossible => impossible.elim⟩
  have refl (db : Db) : Related db db := grows_quiet rfl rfl
  have trans (first second third : Db) : Related first second → Related second third → Related first third :=
    Db.Grows.trans
  have moves (outside : Outside) (db : Db) : Related db (outside.apply db) := grows_quiet rfl rfl
  have grows := reached.related refl trans owns moves starts outside_changes later
  refine ⟨fun _ _ _ _ => allowed, fun _ _ _ _ => allowed, fun _ _ _ _ _ _ => allowed, ?_, ?_⟩
  · intro id row held
    obtain ⟨⟨mode, stored, _⟩, _⟩ := sound.rows id row held
    exact ⟨mode, stored⟩
  · rw [← replay_append] at grows
    exact grows.rows

/-! One operation is prepared and applied, and its key is reduced meanwhile. -/

/-- A machine that has one key. -/
def sampleOutside (row : KeyRow) : Outside :=
  { enabled := true
    keys := fun keyId => if keyId = "key" then some row else none
    users := fun userId => if userId = "1" then some ⟨.admin, false⟩ else none
    now := 0 }

def sampleHandlers : Handlers :=
  { requiredAction := fun action => if action = "stack_deploy" then some "deploy" else none
    hash := fun action _ => action }

def sampleIdentity : MachineIdentity :=
  { keyId := "key"
    userId := "1"
    role := sampleRow.role
    actions := sampleRow.actions
    mode := sampleRow.mode
    resources := sampleRow.resources
    servers := sampleRow.servers
    stackIds := sampleRow.stackIds
    policyVersion := 1 }

/-- Up to where the row is claimed and its key was found again. -/
def sampleOperation : List (PoolEvent OpCall OpInput Outside) :=
  let input : OpInput := { action := some ⟨"local", sampleStack, "", "", 1⟩ }
  [.start (.prepare 0 sampleIdentity ⟨"stack_deploy", "request", some ""⟩)] ++
    List.replicate 13 (.advance 0 input) ++ [.start (.apply 0 sampleIdentity 0 "stack_deploy")] ++
    List.replicate 19 (.advance 1 input)

/-- The work is called although the key was reduced, and has another version than the row. -/
theorem executed_after_reduction :
    let reduced := sampleOutside { sampleRow with actions := ["logs:read"], policyVersion := 2 }
    let db := runOperations sampleHandlers (sampleOutside sampleRow)
      (sampleOperation ++ [.outside reduced, .advance 1 {}, .advance 1 {}])
    db.log.head? = some (.executed 0 1) ∧ (db.keys "key").map (·.policyVersion) = some 2 ∧
      (db.rows 0).map (·.policyVersion) = some 1 := by
  decide +kernel

end Dockge.Mcp
