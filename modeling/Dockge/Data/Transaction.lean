import Dockge.Data.History

namespace Dockge.Data

/-! Transactions of a database that has one write lock.

A transaction reads and writes statement by statement.  It sees the tables as they stood at its
first statement, takes the write lock at its first write and keeps it until it ends; the other
transactions go on reading what was committed, and a write of theirs is refused as busy.  A
transaction that has read before another one committed may no longer write.
-/

/-- What is left of a transaction. -/
inductive Transaction (σ ε α : Type) : Type where
  | done (value : α)
  | threw (error : ε)
  | read (next : σ → Transaction σ ε α)
  | write (effect : σ → Except ε σ) (next : σ → Transaction σ ε α)

namespace Transaction

variable {σ ε α β : Type}

def andThen (first : Transaction σ ε α) (after : α → Transaction σ ε β) : Transaction σ ε β :=
  match first with
  | .done value => after value
  | .threw error => .threw error
  | .read next => .read fun tables => (next tables).andThen after
  | .write effect next => .write effect fun tables => (next tables).andThen after

instance : Monad (Transaction σ ε) where
  pure := .done
  bind := andThen

def ofExcept : Except ε α → Transaction σ ε α
  | .ok value => .done value
  | .error error => .threw error

/-- `throw` under a condition -/
def failIf (condition : Bool) (error : ε) : Transaction σ ε Unit :=
  if condition then .threw error else .done ()

def select (query : σ → α) : Transaction σ ε α := .read fun tables => .done (query tables)

/-- A writing statement, which may break a constraint of the tables. -/
def execute (effect : σ → Except ε σ) : Transaction σ ε Unit := .write effect fun _ => .done ()

/-- A writing statement together with what it reports, such as the number of its rows. -/
def executing (effect : σ → Except ε σ) (report : σ → α) : Transaction σ ε α :=
  .write effect fun tables => .done (report tables)

/-- The transaction from its first statement to its last, with nobody in between. -/
def run : Transaction σ ε α → σ → Except ε (α × σ)
  | .done value, tables => .ok (value, tables)
  | .threw error, _ => .error error
  | .read next, tables => (next tables).run tables
  | .write effect next, tables =>
      match effect tables with
      | .ok after => (next tables).run after
      | .error error => .error error

variable {tables after final : σ}

theorem run_bind (first : Transaction σ ε α) (next : α → Transaction σ ε β) :
    (first >>= next).run tables = match first.run tables with
      | .ok (value, after) => (next value).run after
      | .error error => .error error := by
  change (first.andThen next).run tables = _
  induction first generalizing tables with
  | done value => rfl
  | threw error => rfl
  | read rest ih => exact ih tables
  | write effect rest ih =>
      simp only [andThen, run]
      cases effect tables with
      | error error => rfl
      | ok after => exact ih tables

/-- A sequence that succeeds is two parts that succeed. -/
theorem run_bind_ok {first : Transaction σ ε α} {next : α → Transaction σ ε β} {result : β}
    (ran : (first >>= next).run tables = .ok (result, final)) :
    ∃ value after, first.run tables = .ok (value, after) ∧ (next value).run after = .ok (result, final) := by
  rw [run_bind] at ran
  cases begun : first.run tables with
  | error error => simp [begun] at ran
  | ok reached =>
      obtain ⟨value, after⟩ := reached
      exact ⟨value, after, rfl, by simpa only [begun] using ran⟩

/-- A check that passed leaves the rest to run. -/
theorem run_checked {result : Except ε α} {next : α → Transaction σ ε β} {value : β}
    (ran : ((ofExcept result : Transaction σ ε α) >>= next).run tables = .ok (value, final)) :
    ∃ checked, result = .ok checked ∧ (next checked).run tables = .ok (value, final) := by
  cases result with
  | error error => cases ran
  | ok checked => exact ⟨checked, rfl, ran⟩

theorem run_failIf {condition : Bool} {error : ε}
    (ran : (failIf condition error : Transaction σ ε Unit).run tables = .ok ((), after)) :
    condition = false ∧ after = tables := by
  cases condition with
  | true => cases ran
  | false => cases ran; exact ⟨rfl, rfl⟩

theorem run_select {query : σ → α} {value : α}
    (ran : (select query : Transaction σ ε α).run tables = .ok (value, after)) :
    value = query tables ∧ after = tables := by
  cases ran
  exact ⟨rfl, rfl⟩

theorem run_executing {effect : σ → Except ε σ} (report : σ → α) {value : α}
    (ran : (executing effect report).run tables = .ok (value, after)) :
    effect tables = .ok after ∧ value = report tables := by
  simp only [executing, run] at ran
  cases reached : effect tables with
  | error error => simp [reached] at ran
  | ok held =>
      simp only [reached] at ran
      cases ran
      exact ⟨rfl, rfl⟩

theorem run_execute {effect : σ → Except ε σ} (ran : (execute effect).run tables = .ok ((), after)) :
    effect tables = .ok after :=
  (run_executing (fun _ => ()) ran).1

/-- The first statement of the transaction, if it has any, is a write. -/
def WritesFirst : Transaction σ ε α → Prop
  | .read _ => False
  | _ => True

theorem WritesFirst.checked {result : Except ε α} {next : α → Transaction σ ε β}
    (rest : ∀ value, (next value).WritesFirst) :
    WritesFirst ((ofExcept result : Transaction σ ε α) >>= next) := by
  cases result with
  | error error => trivial
  | ok value => exact rest value

theorem WritesFirst.executing_bind (effect : σ → Except ε σ) (report : σ → α)
    (next : α → Transaction σ ε β) : WritesFirst (executing effect report >>= next) := trivial

end Transaction

/-- How far a transaction has come. -/
inductive Phase (σ ε α : Type) where
  /-- Before its first write, with the version and the tables it sees since its first read. -/
  | reading (rest : Transaction σ ε α) (snapshot : Option (Nat × σ))
  /-- It holds the write lock and works on a copy of the tables. -/
  | writing (rest : Transaction σ ε α) (copy : σ)
  | committed (value : α)
  | rejected (error : ε)

structure Database (σ ε α : Type) where
  tables : σ
  /-- How many writing transactions were committed. -/
  version : Nat
  /-- Who holds the write lock. -/
  writer : Option Nat
  phase : Nat → Phase σ ε α

/-- What happens next: a transaction comes to its next statement, its `COMMIT` or its `ROLLBACK`;
or what it comes to fails, and it is rolled back. -/
inductive Turn (ε : Type) where
  | advance (task : Nat)
  | failure (task : Nat) (error : ε)

namespace Database

variable {σ ε α : Type} (busy : ε) {programs : Nat → Transaction σ ε α} {database : Database σ ε α}
  {task other : Nat}

/-- The transactions have not begun. -/
def opened (programs : Nat → Transaction σ ε α) (tables : σ) : Database σ ε α :=
  ⟨tables, 0, none, fun task => .reading (programs task) none⟩

def enter (database : Database σ ε α) (task : Nat) (phase : Phase σ ε α) : Database σ ε α :=
  { database with phase := fun other => if other = task then phase else database.phase other }

@[simp] theorem enter_phase {phase : Phase σ ε α} :
    (database.enter task phase).phase other = if other = task then phase else database.phase other := rfl

@[simp] theorem enter_tables {phase : Phase σ ε α} : (database.enter task phase).tables = database.tables := rfl

@[simp] theorem enter_writer {phase : Phase σ ε α} : (database.enter task phase).writer = database.writer := rfl

/-- The first write of a transaction. -/
def lock (busy : ε) (database : Database σ ε α) (task : Nat) (effect : σ → Except ε σ)
    (next : σ → Transaction σ ε α) (snapshot : Option (Nat × σ)) : Database σ ε α :=
  if database.writer.isSome || snapshot.any (·.1 ≠ database.version) then
    database.enter task (.rejected busy)
  else
    match effect database.tables with
    | .ok copy => { database.enter task (.writing (next database.tables) copy) with writer := some task }
    | .error error => database.enter task (.rejected error)

def unlock (database : Database σ ε α) : Database σ ε α := { database with writer := none }

def advance (busy : ε) (database : Database σ ε α) (task : Nat) : Database σ ε α :=
  match database.phase task with
  | .reading (.done value) _ => database.enter task (.committed value)
  | .reading (.threw error) _ => database.enter task (.rejected error)
  | .reading (.read next) snapshot =>
      let seen := snapshot.getD (database.version, database.tables)
      database.enter task (.reading (next seen.2) (some seen))
  | .reading (.write effect next) snapshot => database.lock busy task effect next snapshot
  | .writing (.done value) copy =>
      { database.enter task (.committed value) with
        tables := copy, version := database.version + 1, writer := none }
  | .writing (.threw error) _ => (database.enter task (.rejected error)).unlock
  | .writing (.read next) copy => database.enter task (.writing (next copy) copy)
  | .writing (.write effect next) copy =>
      match effect copy with
      | .ok after => database.enter task (.writing (next copy) after)
      | .error error => (database.enter task (.rejected error)).unlock
  | .committed _ => database
  | .rejected _ => database

def step (busy : ε) (database : Database σ ε α) : Turn ε → Database σ ε α
  | .advance task => database.advance busy task
  | .failure task error =>
      match database.phase task with
      | .reading _ _ => database.enter task (.rejected error)
      | .writing _ _ => (database.enter task (.rejected error)).unlock
      | .committed _ => database
      | .rejected _ => database

/-- The copy of a writing transaction is the one it would work on had it run undisturbed, on the
tables as they are. -/
structure Consistent (programs : Nat → Transaction σ ε α) (database : Database σ ε α) : Prop where
  reading : ∀ task rest snapshot, database.phase task = .reading rest snapshot → rest = programs task
  writing : ∀ task rest copy, database.phase task = .writing rest copy →
    database.writer = some task ∧ (programs task).run database.tables = rest.run copy

theorem Consistent.opened (programs : Nat → Transaction σ ε α) (tables : σ) :
    Consistent programs (opened programs tables) where
  reading task rest snapshot begun := by
    cases begun
    rfl
  writing task rest copy begun := by cases begun

/-- A step by which no transaction is committed. -/
def Quiet (before after : Database σ ε α) : Prop :=
  after.tables = before.tables ∧
    ∀ task value, after.phase task = .committed value ↔ before.phase task = .committed value

/-- The step that commits a transaction.  What it did is what it does with nobody in between. -/
structure Commits (programs : Nat → Transaction σ ε α) (before after : Database σ ε α) (task : Nat)
    (value : α) : Prop where
  pending : ∀ earlier, before.phase task ≠ .committed earlier
  committed : after.phase task = .committed value
  ran : (programs task).run before.tables = .ok (value, after.tables)
  others : ∀ other, other ≠ task → after.phase other = before.phase other

/-- Nothing but the phase of one transaction that does not commit is changed. -/
theorem Quiet.entered (phase : Phase σ ε α) {after : Database σ ε α}
    (pending : ∀ value, database.phase task ≠ .committed value) (open_ : ∀ value, phase ≠ .committed value)
    (tables : after.tables = database.tables)
    (phases : ∀ other, after.phase other = if other = task then phase else database.phase other) :
    Quiet database after := by
  constructor
  · exact tables
  · intro other value
    rw [phases other]
    by_cases same : other = task
    · subst same
      simp only [if_pos]
      exact ⟨fun found => absurd found (open_ value), fun found => absurd found (pending value)⟩
    · simp only [if_neg same]

theorem Consistent.rejected {error : ε} (consistent : Consistent programs database) :
    Consistent programs (database.enter task (.rejected error)) where
  reading other rest snapshot begun := by
    rw [enter_phase] at begun
    split at begun
    · cases begun
    · exact consistent.reading other rest snapshot begun
  writing other rest copy begun := by
    rw [enter_phase] at begun
    split at begun
    · cases begun
    · exact consistent.writing other rest copy begun

/-- The transaction that gives the lock back was the only one that wrote. -/
theorem Consistent.unlocked {error : ε} {rest : Transaction σ ε α} {copy : σ}
    (consistent : Consistent programs database) (held : database.phase task = .writing rest copy) :
    Consistent programs (database.enter task (.rejected error)).unlock where
  reading := consistent.rejected.reading
  writing other left work begun := by
    change (database.enter task (.rejected error)).phase other = _ at begun
    rw [enter_phase] at begun
    split at begun
    · cases begun
    next differs =>
      have mine := (consistent.writing task rest copy held).1
      have its := (consistent.writing other left work begun).1
      exact absurd (Option.some.inj (its.symm.trans mine)) differs

/-- A writing transaction goes on: with what it would have done next. -/
theorem Consistent.wrote {rest left : Transaction σ ε α} {copy work : σ}
    (consistent : Consistent programs database) (held : database.phase task = .writing rest copy)
    (next : rest.run copy = left.run work) :
    Consistent programs (database.enter task (.writing left work)) where
  reading other remaining snapshot begun := by
    rw [enter_phase] at begun
    split at begun
    · cases begun
    · exact consistent.reading other remaining snapshot begun
  writing other remaining reached begun := by
    rw [enter_phase] at begun
    split at begun
    next same =>
      cases begun
      subst same
      obtain ⟨mine, ran⟩ := consistent.writing other rest copy held
      exact ⟨mine, ran.trans next⟩
    · exact consistent.writing other remaining reached begun

theorem Consistent.locked {effect : σ → Except ε σ} {next : σ → Transaction σ ε α} {copy : σ}
    (consistent : Consistent programs database) (free : database.writer = none)
    (whole : programs task = .write effect next) (worked : effect database.tables = .ok copy) :
    Consistent programs
      { database.enter task (.writing (next database.tables) copy) with writer := some task } where
  reading other rest snapshot begun := by
    change (database.enter task _).phase other = _ at begun
    rw [enter_phase] at begun
    split at begun
    · cases begun
    · exact consistent.reading other rest snapshot begun
  writing other rest reached begun := by
    change (database.enter task _).phase other = _ at begun
    rw [enter_phase] at begun
    split at begun
    next same =>
      cases begun
      subst same
      refine ⟨rfl, ?_⟩
      change (programs other).run database.tables = _
      rw [whole]
      simp only [Transaction.run, worked]
    next differs =>
      have held := (consistent.writing other rest reached begun).1
      rw [free] at held
      cases held

theorem Consistent.committed {copy : σ} {value : α} {rest : Transaction σ ε α} {work : σ} {version : Nat}
    (consistent : Consistent programs database) (held : database.phase task = .writing rest work) :
    Consistent programs
      { database.enter task (.committed value) with tables := copy, version := version, writer := none } where
  reading other left snapshot begun := by
    change (database.enter task _).phase other = _ at begun
    rw [enter_phase] at begun
    split at begun
    · cases begun
    · exact consistent.reading other left snapshot begun
  writing other left reached begun := by
    change (database.enter task _).phase other = _ at begun
    rw [enter_phase] at begun
    split at begun
    · cases begun
    next differs =>
      have mine := (consistent.writing task rest work held).1
      have its := (consistent.writing other left reached begun).1
      exact absurd (Option.some.inj (its.symm.trans mine)) differs

/-- A transaction that writes nothing is committed without its tables being looked at. -/
theorem Commits.unread {value : α} {snapshot : Option (Nat × σ)} (consistent : Consistent programs database)
    (begun : database.phase task = .reading (.done value) snapshot) :
    Commits programs database (database.enter task (.committed value)) task value where
  pending earlier found := by
    rw [begun] at found
    cases found
  committed := by rw [enter_phase, if_pos rfl]
  ran := by
    rw [← consistent.reading task _ snapshot begun]
    rfl
  others other differs := by rw [enter_phase, if_neg differs]

theorem Consistent.unread {value : α} (consistent : Consistent programs database) :
    Consistent programs (database.enter task (.committed value)) where
  reading other rest snapshot begun := by
    rw [enter_phase] at begun
    split at begun
    · cases begun
    · exact consistent.reading other rest snapshot begun
  writing other rest copy begun := by
    rw [enter_phase] at begun
    split at begun
    · cases begun
    · exact consistent.writing other rest copy begun

theorem lock_step {effect : σ → Except ε σ} {next : σ → Transaction σ ε α} {snapshot : Option (Nat × σ)}
    (consistent : Consistent programs database)
    (begun : database.phase task = .reading (.write effect next) snapshot) :
    Consistent programs (database.lock busy task effect next snapshot) ∧
      Quiet database (database.lock busy task effect next snapshot) := by
  have whole := (consistent.reading task _ snapshot begun).symm
  have pending : ∀ value, database.phase task ≠ .committed value := by
    intro value found
    rw [begun] at found
    cases found
  unfold lock
  split
  · exact ⟨consistent.rejected, Quiet.entered (.rejected busy) pending (fun _ => nofun) rfl fun _ => rfl⟩
  next free =>
    simp only [Bool.or_eq_true, not_or, Bool.not_eq_true, Option.isSome_eq_false_iff,
      Option.isNone_iff_eq_none] at free
    cases worked : effect database.tables with
    | error error => exact ⟨consistent.rejected, Quiet.entered (.rejected error) pending (fun _ => nofun) rfl fun _ => rfl⟩
    | ok copy =>
        exact ⟨consistent.locked free.1 whole worked,
          Quiet.entered (.writing (next database.tables) copy) pending (fun _ => nofun) rfl fun _ => rfl⟩

theorem advance_step (writes : ∀ task, (programs task).WritesFirst) (consistent : Consistent programs database)
    (task : Nat) :
    Consistent programs (database.advance busy task) ∧
      (Quiet database (database.advance busy task) ∨
        ∃ value, Commits programs database (database.advance busy task) task value) := by
  have still : Consistent programs database ∧ (Quiet database database ∨
      ∃ value, Commits programs database database task value) :=
    ⟨consistent, .inl ⟨rfl, fun _ _ => Iff.rfl⟩⟩
  unfold advance
  cases begun : database.phase task with
  | committed value => exact still
  | rejected error => exact still
  | reading rest snapshot =>
      have pending : ∀ value, database.phase task ≠ .committed value := by
        intro value found
        rw [begun] at found
        cases found
      cases rest with
      | done value => exact ⟨consistent.unread, .inr ⟨value, .unread consistent begun⟩⟩
      | threw error =>
          exact ⟨consistent.rejected, .inl (Quiet.entered (.rejected error) pending (fun _ => nofun) rfl fun _ => rfl)⟩
      | read next =>
          have first := writes task
          rw [← consistent.reading task _ snapshot begun] at first
          exact first.elim
      | write effect next =>
          obtain ⟨kept, quiet⟩ := lock_step busy consistent begun
          exact ⟨kept, .inl quiet⟩
  | writing rest copy =>
      have pending : ∀ value, database.phase task ≠ .committed value := by
        intro value found
        rw [begun] at found
        cases found
      have entered (phase : Phase σ ε α) (running : ∀ value, phase ≠ .committed value) :
          Quiet database (database.enter task phase) :=
        Quiet.entered phase pending running rfl fun _ => rfl
      cases rest with
      | done value =>
          refine ⟨consistent.committed begun, .inr ⟨value, ?_⟩⟩
          exact {
            pending
            committed := by
              change (database.enter task _).phase task = _
              rw [enter_phase, if_pos rfl]
            ran := (consistent.writing task _ copy begun).2
            others := by
              intro other differs
              change (database.enter task _).phase other = _
              rw [enter_phase, if_neg differs] }
      | threw error => exact ⟨consistent.unlocked begun, .inl (entered (.rejected error) fun _ => nofun)⟩
      | read next =>
          exact ⟨consistent.wrote begun rfl, .inl (entered (.writing (next copy) copy) fun _ => nofun)⟩
      | write effect next =>
          cases worked : effect copy with
          | error error =>
              simp only [worked]
              exact ⟨consistent.unlocked begun, .inl (entered (.rejected error) fun _ => nofun)⟩
          | ok after =>
              simp only [worked]
              have goes : (Transaction.write effect next).run copy = (next copy).run after := by
                simp only [Transaction.run, worked]
              exact ⟨consistent.wrote begun goes, .inl (entered (.writing (next copy) after) fun _ => nofun)⟩

/-- Where every transaction writes first, the only steps that change the tables are commits, and a
commit changes them as the whole transaction does. -/
theorem step_commits (writes : ∀ task, (programs task).WritesFirst) (consistent : Consistent programs database)
    (turn : Turn ε) :
    Consistent programs (step busy database turn) ∧
      (Quiet database (step busy database turn) ∨
        ∃ task value, Commits programs database (step busy database turn) task value) := by
  cases turn with
  | advance task =>
      obtain ⟨kept, quiet | ⟨value, commits⟩⟩ := advance_step busy writes consistent task
      · exact ⟨kept, .inl quiet⟩
      · exact ⟨kept, .inr ⟨task, value, commits⟩⟩
  | failure task error =>
      simp only [step]
      cases begun : database.phase task with
      | committed value => exact ⟨consistent, .inl ⟨rfl, fun _ _ => Iff.rfl⟩⟩
      | rejected earlier => exact ⟨consistent, .inl ⟨rfl, fun _ _ => Iff.rfl⟩⟩
      | reading rest snapshot =>
          have pending : ∀ value, database.phase task ≠ .committed value := by
            intro value found
            rw [begun] at found
            cases found
          exact ⟨consistent.rejected, .inl (Quiet.entered (.rejected error) pending (fun _ => nofun) rfl fun _ => rfl)⟩
      | writing rest copy =>
          have pending : ∀ value, database.phase task ≠ .committed value := by
            intro value found
            rw [begun] at found
            cases found
          exact ⟨consistent.unlocked begun, .inl (Quiet.entered (.rejected error) pending (fun _ => nofun) rfl fun _ => rfl)⟩

/-- The transactions one after another. -/
def serial (programs : Nat → Transaction σ ε α) : List Nat → σ → Except ε σ
  | [], tables => .ok tables
  | task :: rest, tables =>
      match (programs task).run tables with
      | .ok (_, after) => serial programs rest after
      | .error error => .error error

theorem serial_append {order : List Nat} {tables after final : σ} {value : α}
    (ran : serial programs order tables = .ok after)
    (last : (programs task).run after = .ok (value, final)) :
    serial programs (order ++ [task]) tables = .ok final := by
  induction order generalizing tables with
  | nil =>
      cases ran
      simp only [List.nil_append, serial, last]
  | cons first rest ih =>
      simp only [List.cons_append, serial] at ran ⊢
      cases begun : (programs first).run tables with
      | error error => simp [begun] at ran
      | ok reached =>
          simp only [begun] at ran ⊢
          exact ih ran

section runs

variable (tables : σ) (writes : ∀ task, (programs task).WritesFirst)
include writes

theorem replay_consistent (history : List (Turn ε)) :
    Consistent programs (replay (step busy) (opened programs tables) history) :=
  replay_invariant (motive := Consistent programs) (.opened programs tables)
    (fun _ turn consistent => (step_commits busy writes consistent turn).1) history

/-- However the transactions were interleaved, the tables are as if those that were committed had
run one after another, and the others not at all. -/
theorem serializable (history : List (Turn ε)) :
    ∃ order : List Nat, order.Nodup ∧
      (∀ task, task ∈ order ↔
        ∃ value, (replay (step busy) (opened programs tables) history).phase task = .committed value) ∧
      serial programs order tables = .ok (replay (step busy) (opened programs tables) history).tables := by
  refine replay_induction (motive := fun _ (reached : Database σ ε α) => ∃ order : List Nat, order.Nodup ∧
    (∀ task, task ∈ order ↔ ∃ value, reached.phase task = .committed value) ∧
    serial programs order tables = .ok reached.tables) ?_ ?_ history
  · refine ⟨[], List.nodup_nil, ?_, rfl⟩
    intro task
    exact ⟨nofun, fun ⟨value, committed⟩ => nomatch committed⟩
  · intro past turn ⟨order, distinct, listed, ran⟩
    obtain ⟨-, ⟨same, phases⟩ | ⟨task, value, commits⟩⟩ :=
      step_commits busy writes (replay_consistent busy tables writes past) turn
    · refine ⟨order, distinct, ?_, ran.trans (congrArg _ same.symm)⟩
      intro task
      rw [listed task]
      exact exists_congr fun value => (phases task value).symm
    · have fresh : task ∉ order := by
        intro member
        obtain ⟨earlier, found⟩ := (listed task).mp member
        exact commits.pending earlier found
      refine ⟨order ++ [task], ?_, ?_, serial_append ran commits.ran⟩
      · rw [List.nodup_append]
        refine ⟨distinct, by simp, ?_⟩
        intro held member last found equal
        rw [List.mem_singleton] at found
        exact fresh (found ▸ equal ▸ member)
      · intro other
        by_cases same : other = task
        · subst same
          exact ⟨fun _ => ⟨value, commits.committed⟩, fun _ => by simp⟩
        · rw [List.mem_append, List.mem_singleton, or_iff_left same, listed other, commits.others other same]

/-- What every transaction preserves on its own holds of the tables of every run. -/
theorem tables_invariant {motive : σ → Prop} (initial : motive tables)
    (preserved : ∀ task before value after, motive before →
      (programs task).run before = .ok (value, after) → motive after)
    (history : List (Turn ε)) :
    motive (replay (step busy) (opened programs tables) history).tables := by
  refine replay_induction (motive := fun _ (reached : Database σ ε α) => motive reached.tables) initial ?_ history
  intro past turn held
  obtain ⟨-, quiet | ⟨task, value, commits⟩⟩ :=
    step_commits busy writes (replay_consistent busy tables writes past) turn
  · exact quiet.1 ▸ held
  · exact preserved task _ value _ held commits.ran

end runs

end Database

end Dockge.Data
