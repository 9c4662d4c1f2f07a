import Dockge.StackConfig.Calls

namespace Dockge.StackConfig

open Dockge.Data

/-! What a call does to the selections of the other stacks, whatever of its statements throws. -/

variable {Config : Type} {database : Database Config} {request : Request Config} {works : List Bool}
  {stackName : String}

namespace Database

def selection (database : Database Config) : Selections Config := selectionsOf database.row

/-- What is cached is the stored value. -/
def Coherent (database : Database Config) : Prop :=
  ∀ value, database.cache = some value → database.row = some value

/-- The value of a read, kept for the next one. -/
def filled (database : Database Config) : Database Config :=
  if parses database.row then { database with cache := database.row } else database

@[simp] theorem filled_row : database.filled.row = database.row := by
  unfold filled
  split <;> rfl

theorem Coherent.filled (coherent : database.Coherent) : database.filled.Coherent := by
  unfold Database.filled
  split
  · intro value cached
    exact cached
  · exact coherent

end Database

/-- The call has to ask the database, and the read throws. -/
def readFails (database : Database Config) (works : List Bool) : Bool :=
  database.cache.isNone && !works.headD true

/-- The statements after the read. -/
def afterRead (database : Database Config) (works : List Bool) : List Bool :=
  if database.cache.isNone then works.tail else works

/-- The two statements of the write work. -/
def writes (database : Database Config) (works : List Bool) : Bool :=
  (afterRead database works).headD true && (afterRead database works).tail.headD true

/-- The selections the call finds. -/
def found (database : Database Config) (works : List Bool) : Selections Config :=
  if readFails database works then fun _ => none else database.selection

/-- The selections the call wants to write, if it finds these. -/
def Request.edited (request : Request Config) (all : Selections Config) : Option (Selections Config) :=
  match request with
  | .set stackName config => some (assign all stackName config)
  | .setQuiet stackName config => some (assign all stackName config)
  | .remove stackName => if has all stackName then some (erase all stackName) else none
  | .removeQuiet stackName => if has all stackName then some (erase all stackName) else none

/-- What `StackConfig.get` answers while the store answers. -/
def answer (database : Database Config) (stackName : String) : Option (Option Config) :=
  match (get stackName [] database).ending with
  | .done selection => some selection
  | _ => none

/-- The call changes the selection of its stack at most, and nothing where it fails. -/
structure Contained (database : Database Config) (request : Request Config) (works : List Bool) : Prop where
  others : ∀ other, other ≠ request.stackName →
    (request.run (fates works) database).state.selection other = database.selection other
  nothing : (request.run (fates works) database).ending ≠ .done true →
    (request.run (fates works) database).state.row = database.row
  answers : ∀ other, other ≠ request.stackName →
    answer (request.run (fates works) database).state other = answer database other

/-- The call does not write on a failed read while another stack has a selection. -/
def Lossless (database : Database Config) (request : Request Config) (works : List Bool) : Prop :=
  ¬(readFails database works = true ∧ (request.edited fun _ => none).isSome = true ∧
    writes database works = true ∧
    ∃ other, other ≠ request.stackName ∧ database.selection other ≠ none)

/-! ### The parts of a call -/

theorem run_bind {α β : Type} (first : Access Config α) (next : α → Access Config β) (fates : List Fate)
    (database : Database Config) :
    (first >>= next) fates database = Program.andThen (first fates database) next := rfl

theorem run_pure {α : Type} (value : α) (fates : List Fate) (database : Database Config) :
    (pure value : Access Config α) fates database = ⟨.done value, database, fates⟩ := rfl

theorem statement_run {α : Type} (act : Database Config → α × Database Config) (works : List Bool)
    (database : Database Config) :
    statement act (fates works) database =
      if works.headD true then ⟨.done (act database).1, (act database).2, fates works.tail⟩
      else ⟨.threw .database, database, fates works.tail⟩ := by
  cases works with
  | nil => rfl
  | cons first rest => cases first <;> rfl

/-- A handled failure goes on as the handler does. -/
theorem orElse_run {α : Type} {program : Access Config α} {handler : Failure → Access Config α}
    {fates : List Fate} {database : Database Config} :
    (Program.orElse program handler : Access Config α) fates database =
      match program fates database with
      | ⟨.done value, after, rest⟩ => ⟨.done value, after, rest⟩
      | ⟨.threw error, after, rest⟩ => handler error rest after
      | ⟨.killed, after, rest⟩ => ⟨.killed, after, rest⟩ := by
  change Program.andThen (Program.attempt program fates database) _ = _
  unfold Program.attempt
  generalize program fates database = outcome
  obtain ⟨ending, after, rest⟩ := outcome
  cases ending <;> rfl

theorem settings_get_cached {value : Value Config} (cached : database.cache = some value)
    (fates : List Fate) : Settings.get fates database = ⟨.done (some value), database, fates⟩ := by
  simp only [Settings.get, run_bind, Program.look, Program.andThen, cached, run_pure]

theorem settings_get_missed (missed : database.cache = none) (works : List Bool) :
    Settings.get (fates works) database =
      if works.headD true then ⟨.done database.row, database.filled, fates works.tail⟩
      else ⟨.threw .database, database, fates works.tail⟩ := by
  simp only [Settings.get, run_bind, Program.look, Program.andThen, missed, statement_run]
  cases works.headD true with
  | false => rfl
  | true =>
      simp only [if_true, Database.filled]
      split <;> rfl

theorem getAll_run (coherent : database.Coherent) (works : List Bool) :
    ∃ after, getAll (fates works) database =
        ⟨.done (found database works), after, fates (afterRead database works)⟩ ∧
      after.row = database.row ∧ after.Coherent := by
  unfold getAll found readFails afterRead
  rw [orElse_run, run_bind]
  cases cached : database.cache with
  | some value =>
      rw [settings_get_cached cached]
      refine ⟨database, ?_, rfl, coherent⟩
      simp [Program.andThen, run_pure, Database.selection, coherent value cached]
  | none =>
      rw [settings_get_missed cached]
      cases works.headD true with
      | false => exact ⟨database, rfl, rfl, coherent⟩
      | true => exact ⟨database.filled, rfl, Database.filled_row, coherent.filled⟩

theorem settings_set_run (all : Selections Config) (works : List Bool) :
    Settings.set all (fates works) database =
      if works.headD true && works.tail.headD true then
        ⟨.done (), { row := some (.selections all), cache := none }, fates works.tail.tail⟩
      else ⟨.threw .database, database,
        fates (if works.headD true then works.tail.tail else works.tail)⟩ := by
  unfold Settings.set
  rw [run_bind, statement_run]
  cases works.headD true with
  | false => rfl
  | true =>
      simp only [if_true, Program.andThen, Bool.true_and]
      rw [run_bind, statement_run]
      cases works.tail.headD true <;> rfl

/-- The call with its failure left to the caller. -/
def Request.loud : Request Config → Access Config Unit
  | .set stackName config => StackConfig.set stackName config
  | .setQuiet stackName config => StackConfig.set stackName config
  | .remove stackName => StackConfig.remove stackName
  | .removeQuiet stackName => StackConfig.remove stackName

/-- The selections are found, edited and written. -/
theorem loud_run (coherent : database.Coherent) (request : Request Config) (works : List Bool) :
    ∃ after ending rest, request.loud (fates works) database = ⟨ending, after, rest⟩ ∧ after.Coherent ∧
      match request.edited (found database works) with
      | none => after.row = database.row ∧ ending = .done ()
      | some all =>
          if writes database works then after.row = some (.selections all) ∧ ending = .done ()
          else after.row = database.row ∧ ∃ error, ending = .threw error := by
  obtain ⟨read, ran, same, still⟩ := getAll_run coherent works
  have set_run : ∀ (all : Selections Config), ∃ after ending rest,
      Settings.set all (fates (afterRead database works)) read = ⟨ending, after, rest⟩ ∧ after.Coherent ∧
        if writes database works then after.row = some (.selections all) ∧ ending = .done ()
        else after.row = database.row ∧ ∃ error, ending = .threw error := by
    intro all
    rw [settings_set_run]
    unfold writes
    split
    · refine ⟨_, _, _, rfl, ?_, rfl, rfl⟩
      intro value cached
      cases cached
    · exact ⟨_, _, _, rfl, still, same, _, rfl⟩
  have set_call : ∀ stackName config, StackConfig.set stackName config (fates works) database =
      Settings.set (assign (found database works) stackName config) (fates (afterRead database works))
        read := by
    intro stackName config
    rw [StackConfig.set, run_bind, ran]
    rfl
  have remove_call : ∀ stackName, StackConfig.remove stackName (fates works) database =
      if has (found database works) stackName then
        Settings.set (erase (found database works) stackName) (fates (afterRead database works)) read
      else ⟨.done (), read, fates (afterRead database works)⟩ := by
    intro stackName
    rw [StackConfig.remove, run_bind, ran]
    simp only [Program.andThen]
    split <;> rfl
  have erased : ∀ stackName, ∃ after ending rest,
      StackConfig.remove stackName (fates works) database = ⟨ending, after, rest⟩ ∧ after.Coherent ∧
      match (if has (found database works) stackName then
          some (erase (found database works) stackName) else none) with
      | none => after.row = database.row ∧ ending = .done ()
      | some all =>
          if writes database works then after.row = some (.selections all) ∧ ending = .done ()
          else after.row = database.row ∧ ∃ error, ending = .threw error := by
    intro stackName
    rw [remove_call]
    split
    · exact set_run _
    · exact ⟨read, _, _, rfl, still, same, rfl⟩
  cases request with
  | set stackName config =>
      simp only [Request.loud, Request.edited, set_call]
      exact set_run _
  | setQuiet stackName config =>
      simp only [Request.loud, Request.edited, set_call]
      exact set_run _
  | remove stackName => exact erased stackName
  | removeQuiet stackName => exact erased stackName

/-- Quiet or not, a call returns `true` where it went through. -/
theorem run_loud (request : Request Config) (fates : List Fate) :
    (∀ after rest, request.loud fates database = ⟨.done (), after, rest⟩ →
      request.run fates database = ⟨.done true, after, rest⟩) ∧
    ∀ error after rest, request.loud fates database = ⟨.threw error, after, rest⟩ →
      ∃ ending, ending ≠ .done true ∧ request.run fates database = ⟨ending, after, rest⟩ := by
  cases request with
  | set stackName config =>
      refine ⟨?_, ?_⟩
      · intro after rest went
        simp only [Request.loud] at went
        simp only [Request.run, run_bind, went, Program.andThen, run_pure]
      · intro error after rest went
        simp only [Request.loud] at went
        exact ⟨.threw error, by simp, by simp only [Request.run, run_bind, went, Program.andThen]⟩
  | remove stackName =>
      refine ⟨?_, ?_⟩
      · intro after rest went
        simp only [Request.loud] at went
        simp only [Request.run, run_bind, went, Program.andThen, run_pure]
      · intro error after rest went
        simp only [Request.loud] at went
        exact ⟨.threw error, by simp, by simp only [Request.run, run_bind, went, Program.andThen]⟩
  | setQuiet stackName config =>
      refine ⟨?_, ?_⟩
      · intro after rest went
        simp only [Request.loud] at went
        simp only [Request.run, setQuiet, orElse_run, run_bind, went, Program.andThen, run_pure]
      · intro error after rest went
        simp only [Request.loud] at went
        exact ⟨.done false, by simp,
          by simp only [Request.run, setQuiet, orElse_run, run_bind, went, Program.andThen, run_pure]⟩
  | removeQuiet stackName =>
      refine ⟨?_, ?_⟩
      · intro after rest went
        simp only [Request.loud] at went
        simp only [Request.run, removeQuiet, orElse_run, run_bind, went, Program.andThen, run_pure]
      · intro error after rest went
        simp only [Request.loud] at went
        exact ⟨.done false, by simp,
          by simp only [Request.run, removeQuiet, orElse_run, run_bind, went, Program.andThen, run_pure]⟩

/-- A call writes the selections it found, edited, or nothing. -/
theorem request_run (coherent : database.Coherent) (request : Request Config) (works : List Bool) :
    ∃ after ending rest, request.run (fates works) database = ⟨ending, after, rest⟩ ∧ after.Coherent ∧
      match request.edited (found database works) with
      | none => after.row = database.row ∧ ending = .done true
      | some all =>
          if writes database works then after.row = some (.selections all) ∧ ending = .done true
          else after.row = database.row ∧ ending ≠ .done true := by
  obtain ⟨after, ending, rest, went, kept, result⟩ := loud_run coherent request works
  obtain ⟨through, failed⟩ := @run_loud Config database request (fates works)
  cases edited : request.edited (found database works) with
  | none =>
      rw [edited] at result
      obtain ⟨same, rfl⟩ := result
      exact ⟨after, _, rest, through after rest went, kept, same, rfl⟩
  | some all =>
      rw [edited] at result
      simp only at result ⊢
      split at result
      · obtain ⟨written, rfl⟩ := result
        exact ⟨after, _, rest, through after rest went, kept, by rw [if_pos ‹_›]; exact ⟨written, rfl⟩⟩
      · obtain ⟨same, error, rfl⟩ := result
        obtain ⟨ending, bad, ran⟩ := failed error after rest went
        exact ⟨after, ending, rest, ran, kept, by rw [if_neg ‹_›]; exact ⟨same, bad⟩⟩

theorem answer_eq (coherent : database.Coherent) (stackName : String) :
    answer database stackName = some (database.selection stackName) := by
  obtain ⟨after, ran, -, -⟩ := getAll_run coherent []
  have alone : found database [] = database.selection := by simp [found, readFails]
  have run : getAll [] database = ⟨.done database.selection, after, fates (afterRead database [])⟩ := by
    rw [← alone]
    exact ran
  simp only [answer, StackConfig.get, run_bind, run, Program.andThen, run_pure]

/-! ### The other stacks -/

theorem assign_other (all : Selections Config) (config : Config) {other : String} (apart : other ≠ stackName) :
    assign all stackName config other = all other := by
  unfold assign
  split
  · rfl
  · exact Function.update_of_ne apart _ _

theorem edited_other {all edited : Selections Config} (edit : request.edited all = some edited)
    {other : String} (apart : other ≠ request.stackName) : edited other = all other := by
  cases request with
  | set stackName config => exact Option.some.inj edit ▸ assign_other all config apart
  | setQuiet stackName config => exact Option.some.inj edit ▸ assign_other all config apart
  | remove stackName =>
      simp only [Request.edited] at edit
      split at edit
      · exact Option.some.inj edit ▸ Function.update_of_ne apart _ _
      · cases edit
  | removeQuiet stackName =>
      simp only [Request.edited] at edit
      split at edit
      · exact Option.some.inj edit ▸ Function.update_of_ne apart _ _
      · cases edit

/-- A call is contained exactly if it does not write on a failed read over what others have stored. -/
theorem contained_call (coherent : database.Coherent) (request : Request Config) (works : List Bool) :
    Contained database request works ↔ Lossless database request works := by
  obtain ⟨after, ending, rest, ran, kept, result⟩ := request_run coherent request works
  have state : (request.run (fates works) database).state = after := by rw [ran]
  constructor
  · intro contained lossy
    obtain ⟨fails, edits, written, other, apart, stored⟩ := lossy
    have others := contained.others other apart
    rw [state] at others
    have blank : found database works = fun _ => none := by simp [found, fails]
    rw [blank] at result
    obtain ⟨all, edit⟩ := Option.isSome_iff_exists.mp edits
    rw [edit] at result
    simp only [written, if_true] at result
    have gone : after.selection other = none := by
      rw [Database.selection, result.1]
      exact edited_other edit apart
    rw [gone] at others
    exact stored others.symm
  · intro lossless
    have others : ∀ other, other ≠ request.stackName → after.selection other = database.selection other := by
      intro other apart
      cases edit : request.edited (found database works) with
      | none =>
          rw [edit] at result
          rw [Database.selection, result.1, Database.selection]
      | some all =>
          rw [edit] at result
          simp only at result
          split at result
          · rename_i written
            rw [Database.selection, result.1]
            change all other = _
            rw [edited_other edit apart]
            unfold found at edit ⊢
            split
            · rename_i fails
              rw [if_pos fails] at edit
              by_contra differs
              exact lossless ⟨fails, by rw [edit]; rfl, written, other, apart, Ne.symm differs⟩
            · rfl
          · rw [Database.selection, result.1, Database.selection]
    refine ⟨?_, ?_, ?_⟩
    · rw [state]
      exact others
    · rw [ran]
      intro failed
      cases edit : request.edited (found database works) with
      | none =>
          rw [edit] at result
          exact result.1
      | some all =>
          rw [edit] at result
          simp only at result
          split at result
          · exact absurd result.2 failed
          · exact result.1
    · intro other apart
      rw [state, answer_eq kept, answer_eq coherent, others other apart]

/-- What a turn keeps to, if it is a call. -/
def turnContained (database : Database Config) : Turn Config → Prop
  | .call request works => Contained database request works
  | _ => True

def turnLossless (database : Database Config) : Turn Config → Prop
  | .call request works => Lossless database request works
  | _ => True

theorem turn_coherent (coherent : database.Coherent) (event : Turn Config) :
    (turn database event).Coherent := by
  cases event with
  | call request works =>
      obtain ⟨after, ending, rest, ran, kept, -⟩ := request_run coherent request works
      simp only [turn, ran]
      exact kept
  | get stackName works =>
      obtain ⟨after, ran, -, kept⟩ := getAll_run coherent works
      simp only [turn, get, run_bind, ran, Program.andThen, run_pure]
      exact kept
  | expire =>
      intro value cached
      cases cached

/-- In a run of calls one after another, with whatever throws, every call is contained exactly if
none writes on a failed read over what other stacks have stored. -/
theorem contained_run (row : Option (Value Config)) (history : List (Turn Config)) :
    Along turn turnContained (.stored row) history ↔ Along turn turnLossless (.stored row) history := by
  have start : (Database.stored row).Coherent := by
    intro value cached
    cases cached
  generalize Database.stored row = database at start
  induction history generalizing database with
  | nil => exact Iff.rfl
  | cons event rest ih =>
      have each : turnContained database event ↔ turnLossless database event := by
        cases event with
        | call request works => exact contained_call start request works
        | get stackName works => exact Iff.rfl
        | expire => exact Iff.rfl
      exact and_congr each (ih (turn database event) (turn_coherent start event))

/-- The read of a call for the second stack throws, and its write goes through. -/
theorem failed_read_erases :
    ¬Along turn turnContained (.stored none)
      [.call (.set "web" 1) [], .call (.set "db" 2) [false, true, true]] := by
  intro contained
  have others := contained.2.1.others "web" (by decide)
  exact absurd others (by decide)

end Dockge.StackConfig
