import Mathlib.Data.List.Basic
import Dockge.StackSecrets.Steps

namespace Dockge.StackSecrets

open Dockge.Data
open Dockge.StackConfig (Found StackFileConfig resolveConfig)
open Dockge.StackWrite

/-! Which runs keep the compose files and the stored bindings together. -/

variable {Hash : Type}

/-! ### The condition -/

/-- No journal plans a write. -/
def Unplanned (disk : Disk Hash StackFileConfig) : Prop :=
  ∀ id journal, disk.journals id = some journal → journal.manifest = none

/-- No call stands between its two writes. -/
def State.Quiet (state : State Hash) : Prop := ∀ task ∈ state.tasks, task.stage.between = false

section
variable [DecidableEq Hash] (host : Host Hash)

/-- The compose file is written where no failed write waits for a recovery and no operation fails
after it took effect.  What follows it works, up to the row of the selections; and the row is written
only while the stored selection is still the one the call has read. -/
def Task.NotTorn (state : State Hash) (task : Task) (fates : List Fate) : Prop :=
  match task.stage with
  | .writing _ _ _ _ => state.locked = false → (∀ fate ∈ fates, Atomic fate) ∧ Unplanned state.disk
  | .cleaning _ _ => ∀ fate ∈ fates, fate = .ok
  | .looking _ wrote _ => wrote = true → fates.headD .ok = .ok
  | .setting loaded wrote _ => (wrote = true → takesEffect fates = true) ∧ (takesEffect fates = true →
      resolveConfig (state.disk.selections host.name) loaded.found = loaded.config)
  | _ => True

/-- The process stops with this event. -/
def Stops (state : State Hash) : Event → Prop
  | .advance call found parts fates => ∃ task, state.tasks[call]? = some task ∧ state.waits task = false ∧
      stageOf (task.next host found parts fates state.disk).ending = none
  | .crash => True
  | _ => False

/-- The process stops only while no call stands between its two writes. -/
def NotTorn (state : State Hash) (event : Event) : Prop :=
  (Stops host state event → state.Quiet) ∧
    match event with
    | .advance call _ _ fates => ∀ task, state.tasks[call]? = some task → task.NotTorn host state fates
    | .edit _ _ => Unplanned state.disk
    | _ => True

end

/-! ### The records of a call -/

def Wrote (log : List Entry) (call : Nat) : Prop :=
  ∃ secret fileName, Entry.composed call secret fileName true ∈ log

def Stored (log : List Entry) (call : Nat) : Prop :=
  ∃ request found, Entry.stored call request found ∈ log

/-- The compose text was the call's when its bindings were stored, or had nothing to change. -/
def Composed (log : List Entry) (call : Nat) : Prop :=
  (∃ secret fileName changed, Entry.composed call secret fileName changed ∈ log) ∨ Entry.kept call ∈ log

/-- The call is done with the compose text. -/
def Stage.past : Stage → Bool
  | .cleaning _ _ => true
  | .storing _ _ => true
  | .looking _ _ _ => true
  | .setting _ _ _ => true
  | _ => false

/-- What was decided before this stage. -/
structure Decided (host : Host Hash) (request : Request) (stage : Stage) : Prop where
  text : ∀ secret loaded composeYAML next, stage = .writing secret loaded composeYAML next →
    secret.text host.library composeYAML = .ok (some next)
  selection : ∀ loaded wrote all, stage = .looking loaded wrote all ∨ stage = .setting loaded wrote all →
    all host.name = some (request.change loaded.config)

/-- The stage carries no text to write and no selection to store. -/
def Stage.plain : Stage → Bool
  | .writing .. => false
  | .looking .. => false
  | .setting .. => false
  | _ => true

theorem Decided.of_plain {host : Host Hash} {request : Request} {stage : Stage} (plain : stage.plain = true) :
    Decided host request stage where
  text := by
    intro _ _ _ _ writing
    rw [writing] at plain
    cases plain
  selection := by
    intro _ _ _ which
    rcases which with looking | setting
    · rw [looking] at plain
      cases plain
    · rw [setting] at plain
      cases plain

structure Task.Told (host : Host Hash) (log : List Entry) (call : Nat) (task : Task) : Prop where
  wrote : Wrote log call → task.stage.between = true ∨ Stored log call
  composed : ∀ secret, task.request = .secret secret → task.stage.past = true ∨ Stored log call →
    Composed log call
  returned : task.stage = .returned → Stored log call
  decided : Decided host task.request task.stage

/-- A step of one call. -/
structure Moves (host : Host Hash) (call : Nat) (task : Task) (entries : List Entry) (stage : Stage) : Prop where
  own : ∀ entry ∈ entries, entry.call = some call
  wrote : Wrote entries call ∨ task.stage.between = true → stage.between = true ∨ Stored entries call
  composed : ∀ secret, task.request = .secret secret → stage.past = true ∨ Stored entries call →
    Composed entries call ∨ task.stage.past = true
  returned : stage = .returned → Stored entries call
  decided : Decided host task.request stage

section
variable {host : Host Hash} {log entries : List Entry} {call : Nat} {task : Task} {stage : Stage}

theorem wrote_append : Wrote (entries ++ log) call ↔ Wrote entries call ∨ Wrote log call := by
  simp only [Wrote, List.mem_append, exists_or]

theorem stored_append : Stored (entries ++ log) call ↔ Stored entries call ∨ Stored log call := by
  simp only [Stored, List.mem_append, exists_or]

theorem composed_append : Composed (entries ++ log) call ↔ Composed entries call ∨ Composed log call := by
  simp only [Composed, List.mem_append, exists_or]
  exact or_or_or_comm

theorem Moves.told (moves : Moves host call task entries stage) (told : task.Told host log call) :
    ({ task with stage } : Task).Told host (entries ++ log) call where
  wrote := by
    intro wrote
    rw [stored_append]
    have decisive : stage.between = true ∨ Stored entries call ∨ Stored log call := by
      rcases wrote_append.mp wrote with new | old
      · rcases moves.wrote (.inl new) with between | stored
        · exact .inl between
        · exact .inr (.inl stored)
      · rcases told.wrote old with before | stored
        · rcases moves.wrote (.inr before) with between | stored
          · exact .inl between
          · exact .inr (.inl stored)
        · exact .inr (.inr stored)
    exact decisive
  composed := by
    intro secret asked reached
    rw [composed_append]
    rw [stored_append] at reached
    have cases : (stage.past = true ∨ Stored entries call) ∨ Stored log call := or_assoc.mpr reached
    rcases cases with new | old
    · rcases moves.composed secret asked new with composed | past
      · exact .inl composed
      · exact .inr (told.composed secret asked (.inl past))
    · exact .inr (told.composed secret asked (.inr old))
  returned := by
    intro returned
    exact stored_append.mpr (.inl (moves.returned returned))
  decided := moves.decided

/-- What happens to one call is no record of another. -/
theorem Task.Told.beside {other : Nat} (told : task.Told host log other)
    (own : ∀ entry ∈ entries, entry.call = some call) (different : other ≠ call) :
    task.Told host (entries ++ log) other := by
  have foreign : ∀ entry ∈ entries, entry.call ≠ some other := by
    intro entry member same
    have clash := (own entry member).symm.trans same
    exact different (Option.some.inj clash).symm
  have unwritten : ¬ Wrote entries other := by
    intro wrote
    obtain ⟨_, _, member⟩ := wrote
    exact foreign _ member rfl
  have unstored : ¬ Stored entries other := by
    intro stored
    obtain ⟨_, _, member⟩ := stored
    exact foreign _ member rfl
  constructor
  · intro wrote
    rw [stored_append]
    have earlier := (wrote_append.mp wrote).resolve_left unwritten
    exact (told.wrote earlier).imp_right .inr
  · intro secret asked reached
    rw [composed_append]
    rw [stored_append] at reached
    exact .inr (told.composed secret asked (reached.imp_right fun stored => stored.resolve_left unstored))
  · intro returned
    exact stored_append.mpr (.inr (told.returned returned))
  · exact told.decided

theorem Task.Told.gone (told : task.Told host log call) (quiet : task.stage.between = false) :
    ({ task with stage := .gone } : Task).Told host log call where
  wrote := by
    intro wrote
    have stored := (told.wrote wrote).resolve_left (by simp [quiet])
    exact .inr stored
  composed := by
    intro secret asked reached
    have stored := reached.resolve_left (by simp [Stage.past])
    exact told.composed secret asked (.inr stored)
  returned := by simp
  decided := Decided.of_plain rfl

end

/-! ### The compose files -/

/-- The files hold what these calls made of them. -/
def Texts (host : Host Hash) (start : Disk Hash StackFileConfig) (bytes : String → Option Bytes)
    (log : List Entry) : Prop :=
  ∀ fileName, bytes fileName = bytesAfter host.library start.bytes log fileName

/-- The names of journals from the next one on are free. -/
structure Fresh (disk : Disk Hash StackFileConfig) : Prop where
  journals : ∀ id, disk.nextId ≤ id → disk.journals id = none
  marked : ∀ id, disk.nextId ≤ id → id ∉ disk.marked

/-- A write that did not take place: what is left of it can be taken back, and no other journal plans
a write. -/
structure TakenBack (host : Host Hash) (start : Disk Hash StackFileConfig)
    (save : Save Hash StackFileConfig) (disk : Disk Hash StackFileConfig) (log : List Entry) : Prop where
  reverting : save.Reverting host.sha256 disk
  metadata : save.metadata = none
  survives : ∀ target ∈ save.targets, ∀ bytes, save.start.bytes target.name = some bytes →
    transcode bytes = bytes
  texts : Texts host start save.start.bytes log
  elsewhere : ∀ name, name ∉ save.targets.map (·.name) → disk.files name = save.start.files name
  others : ∀ id journal, id ≠ save.own → disk.journals id = some journal → journal.manifest = none

/-- Who has the lock, and what the files hold. -/
inductive Held (host : Host Hash) (start : Disk Hash StackFileConfig) (state : State Hash) : Prop where
  | free (unlocked : ∀ task ∈ state.tasks, task.stage.locks = false)
      (texts : Texts host start state.disk.bytes state.log) (unplanned : Unplanned state.disk)
  | cleaning (owner : Nat) (task : Task) (loaded : Loaded) (journal : Nat)
      (found : state.tasks[owner]? = some task) (stage : task.stage = .cleaning loaded journal)
      (only : ∀ other task, state.tasks[other]? = some task → task.stage.locks = true → other = owner)
      (texts : Texts host start state.disk.bytes state.log)
      (others : ∀ id found, id ≠ journal → state.disk.journals id = some found → found.manifest = none)
  | reverting (unlocked : ∀ task ∈ state.tasks, task.stage.locks = false) (save : Save Hash StackFileConfig)
      (takenBack : TakenBack host start save state.disk state.log)

/-- The runs that are not torn keep this. -/
structure Kept (host : Host Hash) (start : Disk Hash StackFileConfig) (state : State Hash) : Prop where
  selection : state.disk.selections host.name = selectionAfter (start.selections host.name) state.log
  fresh : Fresh state.disk
  held : Held host start state
  told : ∀ (call : Nat) (task : Task), state.tasks[call]? = some task → task.Told host state.log call
  known : ∀ entry ∈ state.log, ∀ call, entry.call = some call → call < state.tasks.length

section
variable {host : Host Hash} {start disk : Disk Hash StackFileConfig} {state : State Hash}
  {save : Save Hash StackFileConfig} {log entries : List Entry} {call : Nat} {task : Task}

/-- Where no journal plans a write, the file is back already. -/
theorem TakenBack.unplanned (takenBack : TakenBack host start save disk log) (unplanned : Unplanned disk) :
    Texts host start disk.bytes log := by
  have undone : save.Undone host.sha256 disk := by
    cases takenBack.reverting with
    | undone undone => exact undone
    | underway underway =>
        obtain ⟨journal, manifest, held, restores⟩ := underway.journal
        have planned := restores.planned
        rw [unplanned save.own journal held] at planned
        cases planned
  intro fileName
  rw [← takenBack.texts fileName]
  by_cases named : fileName ∈ save.targets.map (·.name)
  · obtain ⟨target, member, same⟩ := List.mem_map.mp named
    rw [← same]
    exact undone.old target member
  · rw [Disk.bytes, takenBack.elsewhere fileName named]
    rfl

theorem reverting_of_same {sha256 : Bytes → Hash} {reached : Disk Hash StackFileConfig}
    (reverting : save.Reverting sha256 disk) (metadata : save.metadata = none) (files : reached.files = disk.files)
    (journals : reached.journals = disk.journals) (marked : reached.marked = disk.marked) :
    save.Reverting sha256 reached := by
  have bytes (name : String) : reached.bytes name = disk.bytes name := by rw [Disk.bytes, files]; rfl
  have selected : save.SelectedOld reached := by
    intro _ found same
    rw [metadata] at same
    cases same
  have others (held : save.OthersUnrelated disk) : save.OthersUnrelated reached := by
    intro id journal different same
    exact held id journal different (journals ▸ same)
  cases reverting with
  | undone undone =>
      refine .undone ⟨?_, selected, marked ▸ undone.unmarked, journals ▸ undone.journal, others undone.others⟩
      intro target member
      rw [bytes]
      exact undone.old target member
  | underway underway =>
      refine .underway ⟨?_, marked ▸ underway.unmarked, journals ▸ underway.journal, others underway.others⟩
      intro target member
      rw [bytes]
      exact underway.either target member

/-- The entries leave the files as they are. -/
def Neutral (host : Host Hash) (start : Disk Hash StackFileConfig) (entries log : List Entry) : Prop :=
  bytesAfter host.library start.bytes (entries ++ log) = bytesAfter host.library start.bytes log

/-- The tasks after a step, one of which has moved. -/
theorem unlocked_settle {stage : Option Stage} (unlocked : ∀ task ∈ state.tasks, task.stage.locks = false)
    (next : ∀ reached, stage = some reached → reached.locks = false) :
    ∀ other ∈ (state.settle call task entries disk stage).tasks, other.stage.locks = false := by
  intro other member
  cases stage with
  | some reached =>
      rcases List.mem_or_eq_of_mem_set member with earlier | same
      · exact unlocked other earlier
      · rw [same]
        exact next reached rfl
  | none =>
      obtain ⟨before, _, same⟩ := List.mem_map.mp member
      rw [← same]
      rfl

theorem Held.settle {stage : Option Stage} (held : Held host start state)
    (found : state.tasks[call]? = some task) (free : task.stage.locks = false)
    (next : ∀ reached, stage = some reached → reached.locks = false)
    (stops : stage = none → state.Quiet) (files : disk.files = state.disk.files)
    (journals : disk.journals = state.disk.journals) (marked : disk.marked = state.disk.marked)
    (neutral : Neutral host start entries state.log) :
    Held host start (state.settle call task entries disk stage) := by
  have texts (bytes : String → Option Bytes) (before : Texts host start bytes state.log) :
      Texts host start bytes (entries ++ state.log) := by
    intro fileName
    rw [neutral]
    exact before fileName
  have same : disk.bytes = state.disk.bytes := by
    funext fileName
    rw [Disk.bytes, files]
    rfl
  cases held with
  | free unlocked before unplanned =>
      refine .free (unlocked_settle unlocked next) ?_ ?_
      · change Texts host start disk.bytes (entries ++ state.log)
        rw [same]
        exact texts _ before
      · intro id journal held
        exact unplanned id journal (journals ▸ held)
  | cleaning owner holder loaded journal there cleaning only before others =>
      have different : call ≠ owner := by
        intro clash
        rw [clash, there] at found
        cases found
        rw [cleaning] at free
        cases free
      cases stage with
      | none =>
          have quiet := stops rfl holder (List.mem_of_getElem? there)
          rw [cleaning] at quiet
          cases quiet
      | some reached =>
          refine .cleaning owner holder loaded journal ?_ cleaning ?_ ?_ ?_
          · change (state.tasks.set call { task with stage := reached })[owner]? = some holder
            rw [List.getElem?_set_ne different]
            exact there
          · intro other found' held locks
            change (state.tasks.set call { task with stage := reached })[other]? = some found' at held
            by_cases moved : call = other
            · subst moved
              rw [List.getElem?_set_self (List.getElem?_eq_some_iff.mp found).1] at held
              cases held
              rw [next reached rfl] at locks
              cases locks
            · rw [List.getElem?_set_ne moved] at held
              exact only other found' held locks
          · change Texts host start disk.bytes (entries ++ state.log)
            rw [same]
            exact texts _ before
          · intro id found' other held
            exact others id found' other (journals ▸ held)
  | reverting unlocked save takenBack =>
      refine .reverting (unlocked_settle unlocked next) save ⟨?_, takenBack.metadata, takenBack.survives, ?_, ?_, ?_⟩
      · exact reverting_of_same takenBack.reverting takenBack.metadata files journals marked
      · exact texts _ takenBack.texts
      · intro name absent
        change disk.files name = _
        rw [files]
        exact takenBack.elsewhere name absent
      · intro id journal other held
        exact takenBack.others id journal other (journals ▸ held)

/-- The rest of what is kept follows from what the step did to its call. -/
theorem Kept.settle {stage : Option Stage} (kept : Kept host start state)
    (found : state.tasks[call]? = some task)
    (selection : disk.selections host.name = selectionAfter (start.selections host.name) (entries ++ state.log))
    (fresh : Fresh disk) (held : Held host start (state.settle call task entries disk stage))
    (moves : ∀ reached, stage = some reached → Moves host call task entries reached)
    (stops : stage = none → state.Quiet ∧ entries = []) :
    Kept host start (state.settle call task entries disk stage) := by
  have bound := (List.getElem?_eq_some_iff.mp found).1
  refine ⟨selection, fresh, held, ?_, ?_⟩
  · intro other later there
    cases stage with
    | some reached =>
        change (state.tasks.set call { task with stage := reached })[other]? = some later at there
        have moved := moves reached rfl
        by_cases same : call = other
        · subst same
          rw [List.getElem?_set_self bound] at there
          cases there
          exact moved.told (kept.told call task found)
        · rw [List.getElem?_set_ne same] at there
          exact (kept.told other later there).beside moved.own fun clash => same clash.symm
    | none =>
        obtain ⟨quiet, nothing⟩ := stops rfl
        subst nothing
        change (State.stopped state.tasks)[other]? = some later at there
        rw [State.stopped, List.getElem?_map, Option.map_eq_some_iff] at there
        obtain ⟨before, earlier, same⟩ := there
        subst same
        exact (kept.told other before earlier).gone (quiet before (List.mem_of_getElem? earlier))
  · intro entry member other about
    have length : (state.settle call task entries disk stage).tasks.length = state.tasks.length := by
      cases stage with
      | some reached => exact List.length_set
      | none => exact List.length_map _
    rw [length]
    rcases List.mem_append.mp member with new | old
    · cases stage with
      | some reached =>
          have same := (moves reached rfl).own entry new
          rw [about] at same
          cases same
          exact bound
      | none =>
          rw [(stops rfl).2] at new
          cases new
    · exact kept.known entry old other about

end

end Dockge.StackSecrets
