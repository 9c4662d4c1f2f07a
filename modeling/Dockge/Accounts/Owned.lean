import Dockge.Accounts.Access
import Mathlib.Data.List.Nodup

namespace Dockge.Accounts

open Data

/-! What the calls make of the tables: an owner is kept, the setup is claimed once, and a change of
rights ends the sessions of the account.
-/

variable {tables after : Tables}

/-- There is an active owner. -/
def Tables.HasOwner (tables : Tables) : Prop := ∃ user ∈ tables.user, user.isOwner

/-- The one row that a setup leaves behind -/
def Tables.IsSetUp (tables : Tables) : Prop := 1 ∈ tables.authBootstrap.map (·.id)

theorem insertBootstrap_run {row : Bootstrap} (ran : (insertBootstrap row).run tables = .ok ((), after)) :
    row.id ∉ tables.authBootstrap.map (·.id) ∧
      after = { tables with authBootstrap := tables.authBootstrap ++ [row] } := by
  have ran := Transaction.run_execute ran
  split at ran
  · cases ran
  next free =>
    cases ran
    exact ⟨free, rfl⟩

theorem insertUser_run {row : User} (ran : (insertUser row).run tables = .ok ((), after)) :
    after.user = tables.user ++ [row] ∧ after.session = tables.session ∧
      after.authBootstrap = tables.authBootstrap := by
  have ran := Transaction.run_execute ran
  split at ran
  · cases ran
  · split at ran
    · cases ran
    · cases ran
      exact ⟨rfl, rfl, rfl⟩

theorem insertAccount_run {row : Account} (ran : (insertAccount row).run tables = .ok ((), after)) :
    after = { tables with account := tables.account ++ [row] } := by
  have ran := Transaction.run_execute ran
  split at ran
  · cases ran
  · cases ran
    rfl

theorem claimBootstrap_run {bootstrap : Bool} {id : String}
    (ran : (claimBootstrap bootstrap id).run tables = .ok ((), after)) :
    after.user = tables.user ∧ after.session = tables.session ∧
      (tables.IsSetUp → after.IsSetUp) ∧
      (bootstrap = true → tables.user = [] ∧ ¬ tables.IsSetUp ∧ after.IsSetUp) := by
  cases bootstrap with
  | false =>
      cases ran
      exact ⟨rfl, rfl, fun held => held, nofun⟩
  | true =>
      obtain ⟨⟨⟩, claimed, inserted, looking⟩ := Transaction.run_bind_ok ran
      obtain ⟨free, rfl⟩ := insertBootstrap_run inserted
      obtain ⟨first, reached, selected, checked⟩ := Transaction.run_bind_ok looking
      obtain ⟨rfl, rfl⟩ := Transaction.run_select selected
      obtain ⟨none_, rfl⟩ := Transaction.run_failIf checked
      have empty : tables.user = [] := by simpa using none_
      refine ⟨rfl, rfl, ?_, fun _ => ⟨empty, free, by simp [Tables.IsSetUp]⟩⟩
      intro held
      simp only [Tables.IsSetUp, List.map_append, List.mem_append]
      exact .inl held

/-- What a call that issues an account did. -/
structure Issued (bootstrap : Bool) (tables after : Tables) : Prop where
  added : ∃ row, after.user = tables.user ++ [row]
  sessions : after.session = tables.session
  setUp : tables.IsSetUp → after.IsSetUp
  claimed : bootstrap = true → tables.user = [] ∧ ¬ tables.IsSetUp ∧ after.IsSetUp

theorem issueUser_run {language : Language} {made : Made} {input : Option Json} {bootstrap : Bool}
    (ran : (issueUser language made input bootstrap).run tables = .ok ((), after)) :
    Issued bootstrap tables after := by
  obtain ⟨data, -, hashing⟩ := Transaction.run_checked ran
  obtain ⟨password, -, claiming⟩ := Transaction.run_checked hashing
  obtain ⟨⟨⟩, first, claim, inserting⟩ := Transaction.run_bind_ok claiming
  obtain ⟨users, sessions, kept, claimed⟩ := claimBootstrap_run claim
  obtain ⟨⟨⟩, second, inserted, last⟩ := Transaction.run_bind_ok inserting
  obtain ⟨row, same, setup⟩ := insertUser_run inserted
  cases insertAccount_run last
  have carried : first.IsSetUp → second.IsSetUp := by
    simp only [Tables.IsSetUp, setup]
    exact fun held => held
  exact {
    added := ⟨_, by rw [← users]; exact row⟩
    sessions := same.trans sessions
    setUp := fun held => carried (kept held)
    claimed := fun asked => ⟨(claimed asked).1, (claimed asked).2.1, carried (claimed asked).2.2⟩ }

theorem Issued.owner {bootstrap : Bool} (issued : Issued bootstrap tables after)
    (owned : tables.HasOwner) : after.HasOwner := by
  obtain ⟨user, member, owner⟩ := owned
  obtain ⟨row, users⟩ := issued.added
  exact ⟨user, by rw [users]; exact List.mem_append_left _ member, owner⟩

/-! Changes of an account -/

@[simp] theorem mem_setUser {id : String} {change : User → User} {keeps : ∀ row, (change row).id = row.id}
    {row : User} :
    row ∈ (tables.setUser id change keeps).user ↔
      ∃ held ∈ tables.user, (if held.id = id then change held else held) = row :=
  List.mem_map

/-- Two rows with one key are one row. -/
theorem Tables.same_row {first second : User} (tables : Tables) (left : first ∈ tables.user)
    (right : second ∈ tables.user) (same : first.id = second.id) : first = second :=
  List.inj_on_of_nodup_map tables.keyed left right same

/-- Of two counted owners one is another account. -/
theorem other_owner (id : String) (many : 1 < tables.user.countP countedOwner) :
    ∃ other ∈ tables.user, other.id ≠ id ∧ countedOwner other := by
  rw [List.countP_eq_length_filter] at many
  have distinct : (tables.user.filter countedOwner).Pairwise fun first second => first.id ≠ second.id :=
    List.Pairwise.filter _ (List.pairwise_map.mp tables.keyed)
  have listed {row : User} (member : row ∈ tables.user.filter countedOwner) :
      row ∈ tables.user ∧ countedOwner row = true := List.mem_filter.mp member
  generalize tables.user.filter countedOwner = counted at many distinct listed
  match counted with
  | [] => cases many
  | [_] => simp at many
  | first :: second :: rest =>
      have differs := List.rel_of_pairwise_cons distinct (List.mem_cons_self (l := rest) (a := second))
      by_cases same : first.id = id
      · have found := listed (List.mem_cons_of_mem first List.mem_cons_self)
        exact ⟨second, found.1, fun equal => differs (same.trans equal.symm), found.2⟩
      · have found := listed List.mem_cons_self
        exact ⟨first, found.1, same, found.2⟩

theorem countedOwner_isOwner {user : User} (counted : countedOwner user) : user.isOwner := by
  simp only [countedOwner, Bool.and_eq_true, decide_eq_true_eq] at counted
  simp [User.isOwner, counted.1, counted.2]

theorem keepLastOwner_run {user : User} {loses : Bool}
    (ran : (keepLastOwner user loses).run tables = .ok ((), after)) :
    after = tables ∧ (user.isOwner → loses = true → 1 < tables.user.countP countedOwner) := by
  unfold keepLastOwner at ran
  split at ran
  · obtain ⟨count, reached, selected, checked⟩ := Transaction.run_bind_ok ran
    obtain ⟨rfl, rfl⟩ := Transaction.run_select selected
    obtain ⟨several, rfl⟩ := Transaction.run_failIf checked
    refine ⟨rfl, fun _ _ => ?_⟩
    simpa using several
  next harmless =>
    cases ran
    refine ⟨rfl, fun owner loses => ?_⟩
    simp [owner, loses] at harmless

/-- An owner is left aside from the account that is changed, unless that one stays an owner. -/
theorem owner_left {user : User} {loses : Bool} (owned : tables.HasOwner) (member : user ∈ tables.user)
    (guarded : user.isOwner → loses = true → 1 < tables.user.countP countedOwner) :
    (∃ other ∈ tables.user, other.id ≠ user.id ∧ other.isOwner) ∨ user.isOwner ∧ loses = false := by
  obtain ⟨owner, held, active⟩ := owned
  by_cases same : owner.id = user.id
  · have equal := tables.same_row held member same
    subst equal
    cases loses with
    | false => exact .inr ⟨active, rfl⟩
    | true =>
        obtain ⟨other, found, differs, counted⟩ := other_owner owner.id (guarded active rfl)
        exact .inl ⟨other, found, differs, countedOwner_isOwner counted⟩
  · exact .inl ⟨owner, held, same, active⟩

/-- What every statement after the check leaves alone -/
theorem removeUser_run {id : String} (ran : (removeUser id).run tables = .ok ((), after)) :
    after.user = tables.user.filter (·.id ≠ id) ∧ after.session = tables.session ∧
      after.authBootstrap = tables.authBootstrap := by
  obtain ⟨⟨⟩, first, accounts, rest⟩ := Transaction.run_bind_ok ran
  obtain ⟨⟨⟩, second, factors, last⟩ := Transaction.run_bind_ok rest
  cases Transaction.run_execute accounts
  cases Transaction.run_execute factors
  cases Transaction.run_execute last
  exact ⟨rfl, rfl, rfl⟩

theorem losesOwner_kept {role : Option String} {suspended : Option Bool} {remove : Bool} {user : User}
    (kept : losesOwner role suspended remove = false) (owner : user.isOwner) :
    remove = false ∧ (role <|> user.role) = some "admin" ∧ (suspended <|> user.suspended) ≠ some true := by
  simp only [losesOwner, Bool.or_eq_false_iff, decide_eq_false_iff_not, Bool.and_eq_false_iff] at kept
  simp only [User.isOwner, Bool.and_eq_true, decide_eq_true_eq] at owner
  obtain ⟨⟨stays, active⟩, given⟩ := kept
  refine ⟨stays, ?_, ?_⟩
  · cases role with
    | none => exact owner.1
    | some role => simpa using given
  · cases suspended with
    | none => exact owner.2
    | some suspended => exact active

/-- What a call that changes or resets an account did. -/
structure Revoked (id : String) (tables after : Tables) : Prop where
  sessions : ∀ session ∈ after.session, session.userId ≠ id
  setUp : after.authBootstrap = tables.authBootstrap
  owner : tables.HasOwner → after.HasOwner

theorem touched_owner {id : String} {now : Nat} (owned : tables.HasOwner) :
    (tables.setUser id (fun row => { row with updatedAt := now }) fun _ => rfl).HasOwner := by
  obtain ⟨owner, member, active⟩ := owned
  refine ⟨_, mem_setUser.mpr ⟨owner, member, rfl⟩, ?_⟩
  split
  · exact active
  · exact active

theorem known_user {id : String} {user : User}
    (present : (tables.user.find? (·.id = id)).elim (.error "authUnknownUser") .ok = Except.ok user) :
    user ∈ tables.user ∧ user.id = id := by
  cases located : tables.user.find? (·.id = id) with
  | none => simp [located] at present
  | some row =>
      simp only [located, Option.elim_some, Except.ok.injEq] at present
      subst present
      exact ⟨List.mem_of_find?_eq_some located, by simpa using List.find?_some located⟩

section changed

variable {user : User} {role : Option String} {suspended : Option Bool} {remove : Bool}
  (member : user ∈ tables.user)
  (guarded : user.isOwner → losesOwner role suspended remove = true → 1 < tables.user.countP countedOwner)
include member guarded

theorem removed_owner (removed : remove = true) (owned : tables.HasOwner)
    (users : after.user = tables.user.filter (·.id ≠ user.id)) : after.HasOwner := by
  obtain ⟨other, held, differs, owner⟩ | ⟨owner, stays⟩ := owner_left owned member guarded
  · refine ⟨other, ?_, owner⟩
    rw [users]
    exact List.mem_filter.mpr ⟨held, by simpa using differs⟩
  · rw [(losesOwner_kept stays owner).1] at removed
    cases removed

theorem updated_owner (owned : tables.HasOwner) :
    (tables.setUser user.id (fun row => { row with
      role := role <|> user.role, suspended := suspended <|> user.suspended }) fun _ => rfl).HasOwner := by
  obtain ⟨other, held, differs, owner⟩ | ⟨owner, stays⟩ := owner_left owned member guarded
  · refine ⟨other, mem_setUser.mpr ⟨other, held, ?_⟩, owner⟩
    rw [if_neg differs]
  · obtain ⟨-, admin, active⟩ := losesOwner_kept stays owner
    refine ⟨_, mem_setUser.mpr ⟨user, member, rfl⟩, ?_⟩
    rw [if_pos rfl]
    simp only [User.isOwner, admin, Bool.and_eq_true, decide_eq_true_eq]
    exact ⟨trivial, active⟩

end changed

theorem changeUserAccess_run {now : Nat} {id : Option Json} {change : AccessChange}
    (ran : (changeUserAccess now id change).run tables = .ok ((), after)) :
    ∃ key, userId id = .ok key ∧ Revoked key tables after := by
  obtain ⟨key, known, roles⟩ := Transaction.run_checked ran
  obtain ⟨role, -, suspending⟩ := Transaction.run_checked roles
  obtain ⟨suspended, -, touching⟩ := Transaction.run_checked suspending
  obtain ⟨⟨⟩, first, touched, finding⟩ := Transaction.run_bind_ok touching
  cases Transaction.run_execute touched
  obtain ⟨found, second, selected, knowing⟩ := Transaction.run_bind_ok finding
  obtain ⟨rfl, rfl⟩ := Transaction.run_select selected
  obtain ⟨user, present, guarding⟩ := Transaction.run_checked knowing
  obtain ⟨member, rfl⟩ := known_user present
  obtain ⟨⟨⟩, third, counted, deleting⟩ := Transaction.run_bind_ok guarding
  obtain ⟨rfl, guarded⟩ := keepLastOwner_run counted
  obtain ⟨⟨⟩, fourth, deleted, writing⟩ := Transaction.run_bind_ok deleting
  cases Transaction.run_execute deleted
  have ended : ∀ session ∈ tables.session.filter (·.userId ≠ user.id), session.userId ≠ user.id :=
    fun session held => by simpa using List.of_mem_filter held
  refine ⟨user.id, known, ?_⟩
  split at writing
  next removed =>
    obtain ⟨users, sessions, claimed⟩ := removeUser_run writing
    exact {
      sessions := by rw [sessions]; exact ended
      setUp := claimed
      owner := fun owned => removed_owner member guarded removed (touched_owner owned) users }
  next stays =>
    cases Transaction.run_execute writing
    exact {
      sessions := ended
      setUp := rfl
      owner := fun owned => updated_owner member guarded (touched_owner owned) }

theorem resetUserPassword_run {made : Made} {id password : Option Json}
    (ran : (resetUserPassword made id password).run tables = .ok ((), after)) :
    ∃ key, userId id = .ok key ∧ Revoked key tables after := by
  obtain ⟨key, known, checking⟩ := Transaction.run_checked ran
  obtain ⟨password, -, hashing⟩ := Transaction.run_checked checking
  obtain ⟨hash, -, updating⟩ := Transaction.run_checked hashing
  obtain ⟨updated, first, changed, counting⟩ := Transaction.run_bind_ok updating
  obtain ⟨⟨⟩, second, counted, last⟩ := Transaction.run_bind_ok counting
  obtain ⟨-, same⟩ := Transaction.run_failIf counted
  cases same
  cases (Transaction.run_executing _ changed).1
  cases Transaction.run_execute last
  exact ⟨key, known, fun session held => by simpa using List.of_mem_filter held, rfl, fun owned => owned⟩

/-! The calls, whoever else is at the tables -/

def Call.isBootstrap : Call → Bool
  | .issueUser _ _ bootstrap => bootstrap
  | _ => false

/-- The account whose role, suspension, existence or password the call is about. -/
def Call.revokes : Call → Option String
  | .changeUserAccess _ id _ => (userId id).toOption
  | .resetUserPassword _ id _ => (userId id).toOption
  | _ => none

variable {language : Language}

theorem Call.writesFirst (call : Call) : (call.statements language).WritesFirst := by
  cases call with
  | issueUser made input bootstrap =>
      refine .checked fun data => .checked fun password => ?_
      cases bootstrap <;> trivial
  | changeUserAccess now id change =>
      exact .checked fun id => .checked fun role => .checked fun suspended => trivial
  | resetUserPassword made id password =>
      exact .checked fun id => .checked fun password => .checked fun hash => trivial
  | sessions change => trivial

theorem Call.keeps {call : Call} (ran : (call.statements language).run tables = .ok ((), after)) :
    (tables.HasOwner → after.HasOwner) ∧ (tables.IsSetUp → after.IsSetUp) := by
  have kept {id : String} (revoked : Revoked id tables after) :
      (tables.HasOwner → after.HasOwner) ∧ (tables.IsSetUp → after.IsSetUp) :=
    ⟨revoked.owner, fun held => by rw [Tables.IsSetUp, revoked.setUp]; exact held⟩
  cases call with
  | issueUser made input bootstrap =>
      have issued := issueUser_run ran
      exact ⟨issued.owner, issued.setUp⟩
  | changeUserAccess now id change =>
      obtain ⟨key, -, revoked⟩ := changeUserAccess_run ran
      exact kept revoked
  | resetUserPassword made id password =>
      obtain ⟨key, -, revoked⟩ := resetUserPassword_run ran
      exact kept revoked
  | sessions change =>
      cases ran
      exact ⟨fun owned => owned, fun held => held⟩

theorem Call.bootstrap_run {call : Call} (asked : call.isBootstrap)
    (ran : (call.statements language).run tables = .ok ((), after)) :
    tables.user = [] ∧ ¬ tables.IsSetUp ∧ after.IsSetUp := by
  cases call with
  | issueUser made input bootstrap => exact (issueUser_run ran).claimed asked
  | changeUserAccess => cases asked
  | resetUserPassword => cases asked
  | sessions => cases asked

theorem Call.revoked_run {call : Call} {id : String} (about : call.revokes = some id)
    (ran : (call.statements language).run tables = .ok ((), after)) :
    ∀ session ∈ after.session, session.userId ≠ id := by
  have named {given : Except String String} {key : String} (known : given = .ok key)
      (asked : given.toOption = some id) : key = id := by
    subst known
    exact Option.some.inj asked
  cases call with
  | issueUser => cases about
  | changeUserAccess now target change =>
      obtain ⟨key, known, revoked⟩ := changeUserAccess_run ran
      exact named known about ▸ revoked.sessions
  | resetUserPassword made target password =>
      obtain ⟨key, known, revoked⟩ := resetUserPassword_run ran
      exact named known about ▸ revoked.sessions
  | sessions => cases about

abbrev Installation := Database Tables String Unit

/-- The tables and the calls at work on them, after a history of turns. -/
def installation (language : Language) (calls : Nat → Call) (tables : Tables)
    (history : List (Turn String)) : Installation :=
  replay (Database.step busy) (Database.opened (fun task => (calls task).statements language) tables) history

def Installation.HasCommitted (installation : Installation) (task : Nat) : Prop :=
  installation.phase task = .committed ()

def Installation.HasRejected (installation : Installation) (task : Nat) : Prop :=
  ∃ error, installation.phase task = .rejected error

section runs

variable {calls : Nat → Call} {tables : Tables}

theorem installation_step (past : List (Turn String)) (turn : Turn String) :
    Database.Quiet (installation language calls tables past) (installation language calls tables (past ++ [turn])) ∨
      ∃ task, Database.Commits (fun task => (calls task).statements language)
        (installation language calls tables past) (installation language calls tables (past ++ [turn])) task () := by
  have writes : ∀ task, ((calls task).statements language).WritesFirst := fun task => (calls task).writesFirst
  have consistent := Database.replay_consistent busy tables writes past
  have stepped := (Database.step_commits busy writes consistent turn).2
  simp only [installation, replay_append, replay_cons, replay_nil]
  obtain quiet | ⟨task, ⟨⟩, commits⟩ := stepped
  · exact .inl quiet
  · exact .inr ⟨task, commits⟩

theorem owner_stays (past later : List (Turn String))
    (owned : (installation language calls tables past).tables.HasOwner) :
    (installation language calls tables (past ++ later)).tables.HasOwner := by
  induction later using List.reverseRecOn with
  | nil => simpa using owned
  | append_singleton later turn ih =>
      rw [← List.append_assoc]
      obtain quiet | ⟨task, commits⟩ := installation_step (past ++ later) turn
      · rw [quiet.1]
        exact ih
      · exact (Call.keeps commits.ran).1 ih

/-- A committed bootstrap left its row, and there is one at most. -/
theorem bootstrap_once (history : List (Turn String)) :
    (∀ task, (calls task).isBootstrap → (installation language calls tables history).HasCommitted task →
      (installation language calls tables history).tables.IsSetUp) ∧
    ∀ first second, (calls first).isBootstrap → (calls second).isBootstrap →
      (installation language calls tables history).HasCommitted first →
      (installation language calls tables history).HasCommitted second → first = second := by
  induction history using List.reverseRecOn with
  | nil => exact ⟨nofun, nofun⟩
  | append_singleton past turn ih =>
      obtain ⟨claimed, once⟩ := ih
      obtain ⟨same, phases⟩ | ⟨task, commits⟩ := installation_step past turn
      · have earlier (task : Nat) (done : (installation language calls tables (past ++ [turn])).HasCommitted task) :
            (installation language calls tables past).HasCommitted task := (phases task ()).mp done
        rw [same]
        exact ⟨fun task asked done => claimed task asked (earlier task done),
          fun first second left right done done' =>
            once first second left right (earlier first done) (earlier second done')⟩
      · have earlier {other : Nat} (differs : other ≠ task)
            (done : (installation language calls tables (past ++ [turn])).HasCommitted other) :
            (installation language calls tables past).HasCommitted other :=
          (commits.others other differs).symm.trans done
        -- a second bootstrap would find the row of the first
        have alone {other : Nat} (differs : other ≠ task) (asked : (calls other).isBootstrap)
            (mine : (calls task).isBootstrap)
            (done : (installation language calls tables (past ++ [turn])).HasCommitted other) : False :=
          (Call.bootstrap_run mine commits.ran).2.1 (claimed other asked (earlier differs done))
        constructor
        · intro other asked done
          by_cases same : other = task
          · subst same
            exact (Call.bootstrap_run asked commits.ran).2.2
          · exact (Call.keeps commits.ran).2 (claimed other asked (earlier same done))
        · intro first second left right done done'
          by_cases mine : first = task
          · by_cases yours : second = task
            · exact mine.trans yours.symm
            · exact (alone yours right (mine ▸ left) done').elim
          · by_cases yours : second = task
            · exact (alone mine left (yours ▸ right) done).elim
            · exact once first second left right (earlier mine done) (earlier yours done')

/-- What holds of every installation, whatever calls are at work on it and however they are
interleaved: an owner once there is one always is; at most one bootstrap is committed, by which
there was no account; a call that rejects changes nothing, so that the tables are those of the
committed calls one after another; and a committed change of an account leaves none of its sessions. -/
theorem access_kept (language : Language) (calls : Nat → Call) (tables : Tables) :
    (∀ past later, (installation language calls tables past).tables.HasOwner →
      (installation language calls tables (past ++ later)).tables.HasOwner) ∧
    (∀ history first second, (calls first).isBootstrap → (calls second).isBootstrap →
      (installation language calls tables history).HasCommitted first →
      (installation language calls tables history).HasCommitted second → first = second) ∧
    (∀ past turn task, ¬ (installation language calls tables past).HasCommitted task →
      (installation language calls tables (past ++ [turn])).HasCommitted task →
      ((calls task).isBootstrap → (installation language calls tables past).tables.user = []) ∧
      ∀ id, (calls task).revokes = some id →
        ∀ session ∈ (installation language calls tables (past ++ [turn])).tables.session, session.userId ≠ id) ∧
    (∀ past turn task, ¬ (installation language calls tables past).HasRejected task →
      (installation language calls tables (past ++ [turn])).HasRejected task →
      (installation language calls tables (past ++ [turn])).tables =
        (installation language calls tables past).tables) ∧
    ∀ history, ∃ order : List Nat, order.Nodup ∧
      (∀ task, task ∈ order ↔ (installation language calls tables history).HasCommitted task) ∧
      Database.serial (fun task => (calls task).statements language) order tables =
        .ok (installation language calls tables history).tables := by
  refine ⟨owner_stays, fun history => (bootstrap_once history).2, ?_, ?_, ?_⟩
  · intro past turn task pending done
    obtain quiet | ⟨other, commits⟩ := installation_step past turn
    · exact (pending ((quiet.2 task ()).mp done)).elim
    · have same : task = other := by
        by_contra differs
        exact pending ((commits.others task differs).symm.trans done)
      subst same
      exact ⟨fun asked => (Call.bootstrap_run asked commits.ran).1,
        fun id about => Call.revoked_run about commits.ran⟩
  · intro past turn task pending ⟨error, rejected⟩
    obtain quiet | ⟨other, commits⟩ := installation_step past turn
    · exact quiet.1
    · have same : task = other := by
        by_contra differs
        exact pending ⟨error, (commits.others task differs).symm.trans rejected⟩
      subst same
      rw [commits.committed] at rejected
      cases rejected
  · intro history
    have writes : ∀ task, ((calls task).statements language).WritesFirst := fun task => (calls task).writesFirst
    obtain ⟨order, distinct, listed, ran⟩ :=
      Database.serializable busy tables writes history
    refine ⟨order, distinct, ?_, ran⟩
    intro task
    rw [listed task]
    exact ⟨fun ⟨⟨⟩, done⟩ => done, fun done => ⟨(), done⟩⟩

end runs

end Dockge.Accounts
