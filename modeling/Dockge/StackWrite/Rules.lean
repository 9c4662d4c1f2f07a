import Dockge.StackWrite.Recover

namespace Dockge.StackWrite

open Dockge.Data

/-! What each operation of a write and of a recovery can do. -/

variable {Hash Config : Type} {allowed : Fate → Prop} {disk : Disk Hash Config}

/-- Every operation takes effect and returns, or has no effect. -/
def Atomic (fate : Fate) : Prop := fate ≠ .late

/-- Nothing fails: the process may only be killed. -/
def OrKilled (fate : Fate) : Prop := fate = .ok ∨ fate = .kill

theorem any_ok : Fate.Any .ok := trivial

/-! ### Single operations -/

section
variable {Kept : Disk Hash Config → Prop}

theorem perform_ensures {effect : Disk Hash Config → Disk Hash Config}
    {returned : Unit → Disk Hash Config → Prop} (undisturbed : allowed .ok)
    (took : returned () (effect disk)) (kept : Kept disk) (late : allowed .late → Kept (effect disk)) :
    Ensures allowed (perform effect) disk returned (fun _ => Kept) Kept := by
  refine Ensures.operation undisturbed ?_
  intro fate within
  cases fate with
  | ok => exact took
  | fail => exact kept
  | late => exact late within
  | kill => exact kept

theorem ask_ensures {α : Type} {answer : Disk Hash Config → Except WriteError α}
    {returned : α → Disk Hash Config → Prop} (undisturbed : allowed .ok)
    (answered : ∀ value, answer disk = .ok value → returned value disk) (kept : Kept disk) :
    Ensures allowed (ask answer) disk returned (fun _ => Kept) Kept := by
  refine Ensures.operation undisturbed ?_
  intro fate _
  cases fate with
  | ok =>
      cases held : answer disk with
      | ok value => exact answered value held
      | error error => exact kept
  | fail => exact kept
  | late => exact kept
  | kill => exact kept

/-- A read that nothing but a kill disturbs. -/
theorem ask_orKilled {α : Type} {answer : Disk Hash Config → Except WriteError α}
    {returned : α → Disk Hash Config → Prop} {threw : WriteError → Disk Hash Config → Prop}
    (answered : ∀ value, answer disk = .ok value → returned value disk)
    (failed : ∀ error, answer disk = .error error → threw error disk) (kept : Kept disk) :
    Ensures OrKilled (ask answer) disk returned threw Kept := by
  refine Ensures.operation (.inl rfl) ?_
  rintro _ (rfl | rfl)
  · cases held : answer disk with
    | ok value => exact answered value held
    | error error => exact failed error held
  · exact kept

theorem perform_orKilled {effect : Disk Hash Config → Disk Hash Config}
    {returned : Unit → Disk Hash Config → Prop} {threw : WriteError → Disk Hash Config → Prop}
    (took : returned () (effect disk)) (kept : Kept disk) :
    Ensures OrKilled (perform effect) disk returned threw Kept := by
  refine Ensures.operation (.inl rfl) ?_
  rintro _ (rfl | rfl)
  · exact took
  · exact kept

end

theorem refuseIf_ensures {σ : Type} {state : σ} {error : Option WriteError} {returned : Unit → σ → Prop}
    {threw : WriteError → σ → Prop} {stopped : σ → Prop} (passed : error = none → returned () state)
    (refused : ∀ error, threw error state) :
    Ensures allowed (refuseIf error : Program σ WriteError Unit) state returned threw stopped := by
  cases error with
  | none => exact Ensures.pure (passed rfl)
  | some error => exact Ensures.fail (refused error)

/-- A removal of a journal passes through the journals with less and less in them. -/
theorem removeJournal_ensures {Kept : Disk Hash Config → Prop} {parts : List Part} {id : Nat}
    (undisturbed : allowed .ok) (kept : Kept disk)
    (drops : ∀ disk part, Kept disk → Kept (disk.onJournal id fun journal => journal.drop part))
    (removed : ∀ disk, Kept disk → Kept (disk.setJournal id none)) :
    Ensures allowed (removeJournal parts id) disk
      (fun _ reached => Kept reached ∧ reached.journals id = none) (fun _ => Kept) Kept := by
  refine Ensures.bind (fun _ => Kept) ?_ ?_
  · refine Ensures.forEach (fun _ => Kept) kept ?_
    intro _ part _ disk _ kept
    exact perform_ensures undisturbed (drops disk part kept) kept fun _ => drops disk part kept
  · intro _ disk kept
    exact perform_ensures undisturbed ⟨removed disk kept, by simp [Disk.setJournal]⟩ kept
      fun _ => removed disk kept

/-! ### Files -/

/-- What a file holds. -/
def Disk.bytes (disk : Disk Hash Config) (name : String) : Option Bytes :=
  (disk.files name).map (·.bytes)

/-- What a target asks its file to hold. -/
def StackFileTarget.bytes (target : StackFileTarget Hash) : Bytes := encodeUtf8 target.content.toList

section
variable {sha256 : Bytes → Hash} {name : String} {Kept : Disk Hash Config → Prop}

def Disk.hashOf (sha256 : Bytes → Hash) (disk : Disk Hash Config) (name : String) : Option Hash :=
  (disk.bytes name).map sha256

theorem readStackFileState_answer {state : StackFileState Hash}
    (held : (match disk.files name with
      | none => .ok { hash := none, bytes := none, mode := none }
      | some file =>
          if maxFileBytes < file.bytes.length then .error (.tooLarge name)
          else .ok { hash := some (sha256 file.bytes), bytes := some file.bytes, mode := some file.mode } :
        Except WriteError (StackFileState Hash)) = .ok state) :
    state.hash = disk.hashOf sha256 name ∧ state.bytes = disk.bytes name ∧
      ∀ bytes, disk.bytes name = some bytes → bytes.length ≤ maxFileBytes := by
  cases present : disk.files name with
  | none =>
      simp only [present, Except.ok.injEq] at held
      subst held
      simp [Disk.hashOf, Disk.bytes, present]
  | some file =>
      simp only [present] at held
      split at held
      · cases held
      · rename_i small
        simp only [Except.ok.injEq] at held
        subst held
        simpa [Disk.hashOf, Disk.bytes, present] using small

theorem readStackFileState_ensures {returned : StackFileState Hash → Disk Hash Config → Prop}
    (undisturbed : allowed .ok)
    (answered : ∀ state : StackFileState Hash, state.hash = disk.hashOf sha256 name →
      state.bytes = disk.bytes name → (∀ bytes, disk.bytes name = some bytes → bytes.length ≤ maxFileBytes) →
      returned state disk) (kept : Kept disk) :
    Ensures allowed (readStackFileState sha256 name) disk returned (fun _ => Kept) Kept := by
  refine ask_ensures undisturbed ?_ kept
  intro state held
  obtain ⟨hash, bytes, small⟩ := readStackFileState_answer held
  exact answered state hash bytes small

@[simp] theorem withMode_hash (state : StackFileState Hash) (mode : Option Nat) :
    (state.withMode mode).hash = state.hash := by
  unfold StackFileState.withMode
  split <;> rfl

@[simp] theorem withMode_bytes (state : StackFileState Hash) (mode : Option Nat) :
    (state.withMode mode).bytes = state.bytes := by
  unfold StackFileState.withMode
  split <;> rfl

/-- What a plan says of the disk it was made on. -/
structure Planned (sha256 : Bytes → Hash) (disk : Disk Hash Config) (targets : List (StackFileTarget Hash))
    (pending : List (PendingWrite Hash)) : Prop where
  each : ∀ write ∈ pending, write.state.hash = disk.hashOf sha256 write.target.name ∧
    write.state.bytes = disk.bytes write.target.name ∧ write.afterHash = sha256 write.target.bytes ∧
    write.state.hash ≠ some write.afterHash
  rest : ∀ target ∈ targets, (∃ write ∈ pending, write.target = target) ∨
    disk.hashOf sha256 target.name = some (sha256 target.bytes)
  sub : (pending.map (·.target)).Sublist targets
  sized : ∀ target ∈ targets, ∀ bytes, disk.bytes target.name = some bytes → bytes.length ≤ maxFileBytes
  expected : ∀ target ∈ targets, ∀ hash, target.expectedHash = some hash → hash = disk.hashOf sha256 target.name

theorem Planned.cons [DecidableEq Hash] {target : StackFileTarget Hash} {targets : List (StackFileTarget Hash)}
    {pending : List (PendingWrite Hash)} {state : StackFileState Hash}
    (planned : Planned sha256 disk targets pending) (hash : state.hash = disk.hashOf sha256 target.name)
    (bytes : state.bytes = disk.bytes target.name)
    (small : ∀ bytes, disk.bytes target.name = some bytes → bytes.length ≤ maxFileBytes)
    (matching : ∀ hash, target.expectedHash = some hash → hash = disk.hashOf sha256 target.name) :
    Planned sha256 disk (target :: targets)
      (if some (sha256 target.bytes) ≠ state.hash then ⟨target, state, sha256 target.bytes⟩ :: pending
        else pending) := by
  have expected : ∀ other ∈ target :: targets, ∀ hash, other.expectedHash = some hash →
      hash = disk.hashOf sha256 other.name := by
    intro other member
    cases member with
    | head => exact matching
    | tail _ later => exact planned.expected other later
  split
  · rename_i differs
    refine ⟨?_, ?_, planned.sub.cons_cons target, ?_, expected⟩
    · rintro write (_ | ⟨_, member⟩)
      · exact ⟨hash, bytes, rfl, fun same => differs same.symm⟩
      · exact planned.each write member
    · rintro other (_ | ⟨_, member⟩)
      · exact .inl ⟨_, List.mem_cons_self, rfl⟩
      · exact (planned.rest other member).imp_left fun ⟨write, present, same⟩ =>
          ⟨write, List.mem_cons_of_mem _ present, same⟩
    · rintro other (_ | ⟨_, member⟩)
      · exact small
      · exact planned.sized other member
  · rename_i same
    refine ⟨planned.each, ?_, planned.sub.cons target, ?_, expected⟩
    · rintro other (_ | ⟨_, member⟩)
      · exact .inr (by rw [← hash]; exact (not_not.mp same).symm)
      · exact planned.rest other member
    · rintro other (_ | ⟨_, member⟩)
      · exact small
      · exact planned.sized other member

theorem planWrite_ensures [DecidableEq Hash] (undisturbed : allowed .ok)
    (targets : List (StackFileTarget Hash)) (kept : Kept disk) :
    Ensures allowed (planWrite sha256 targets) disk
      (fun plan reached => disk = reached ∧ Planned sha256 disk targets plan.2 ∧
        plan.1 = targets.map fun target => (target.name, sha256 target.bytes))
      (fun _ => Kept) Kept := by
  induction targets with
  | nil => exact Ensures.pure ⟨rfl, ⟨by simp, by simp, by simp, by simp, by simp⟩, rfl⟩
  | cons target rest ih =>
      refine Ensures.bind (fun state reached => disk = reached ∧
        state.hash = disk.hashOf sha256 target.name ∧ state.bytes = disk.bytes target.name ∧
        ∀ bytes, disk.bytes target.name = some bytes → bytes.length ≤ maxFileBytes)
        (readStackFileState_ensures undisturbed (fun _ hash bytes small => ⟨rfl, hash, bytes, small⟩) kept) ?_
      rintro state _ ⟨rfl, hash, bytes, small⟩
      refine Ensures.bind (fun _ reached => disk = reached ∧
        ∀ wanted, target.expectedHash = some wanted → wanted = disk.hashOf sha256 target.name)
        (refuseIf_ensures ?_ fun _ => kept) ?_
      · intro passed
        refine ⟨rfl, ?_⟩
        intro wanted asked
        have same : wanted = state.hash := by simpa [asked] using passed
        exact same.trans hash
      rintro _ _ ⟨rfl, matching⟩
      refine Ensures.bind _ ih ?_
      rintro ⟨hashes, pending⟩ _ ⟨rfl, planned, same⟩
      refine Ensures.pure ⟨rfl, ?_, by simpa [hashStackFileContent, StackFileTarget.bytes] using same⟩
      exact planned.cons (by simpa using hash) (by simpa using bytes) small matching

end

/-! ### Selections -/

section
variable {stack : String} {Kept : Disk Hash Config → Prop}

theorem storeSelections_ensures {all : String → Option Config} {returned : Unit → Disk Hash Config → Prop}
    (undisturbed : allowed .ok) (took : returned () { disk with selections := all }) (kept : Kept disk)
    (late : allowed .late → Kept { disk with selections := all }) :
    Ensures allowed (storeSelections all) disk returned (fun _ => Kept) Kept := by
  refine Ensures.bind (fun _ reached => disk = reached)
    (ask_ensures undisturbed (fun _ _ => rfl) kept) ?_
  rintro _ _ rfl
  exact perform_ensures undisturbed took kept late

theorem getAll_ensures {unread : Disk Hash Config → Disk Hash Config}
    {returned : (String → Option Config) → Disk Hash Config → Prop} (undisturbed : allowed .ok)
    (read : returned disk.selections disk) (misread : returned (fun _ => none) (unread disk))
    (kept : Kept disk) : Ensures allowed (getAll unread) disk returned (fun _ => Kept) Kept := by
  refine Ensures.operation undisturbed ?_
  intro fate _
  cases fate with
  | ok => exact read
  | fail => exact misread
  | late => exact misread
  | kill => exact kept

/-- The selections a change starts from: those that are stored, or none where the read failed. -/
def Disk.ReadAs (disk : Disk Hash Config) (all : String → Option Config) (wiped : Bool) : Prop :=
  all = disk.selections ∧ wiped = disk.wiped ∨ wiped = true

theorem setSelection_ensures {config : Config} {returned : Unit → Disk Hash Config → Prop}
    (undisturbed : allowed .ok)
    (took : ∀ all wiped, disk.ReadAs all wiped →
      returned () { disk with selections := Function.update all stack (some config), wiped })
    (kept : Kept disk) (unread : Kept { disk with wiped := true })
    (late : allowed .late → ∀ all wiped, disk.ReadAs all wiped →
      Kept { disk with selections := Function.update all stack (some config), wiped }) :
    Ensures allowed (setSelection stack config) disk returned (fun _ => Kept) Kept := by
  refine Ensures.bind (fun all reached => ∃ wiped, disk.ReadAs all wiped ∧ { disk with wiped } = reached ∧
    Kept reached) (getAll_ensures undisturbed ⟨disk.wiped, .inl ⟨rfl, rfl⟩, rfl, kept⟩
      ⟨true, .inr rfl, rfl, unread⟩ kept) ?_
  rintro all _ ⟨wiped, reads, rfl, kept⟩
  exact storeSelections_ensures undisturbed (took all wiped reads) kept fun within => late within all wiped reads

theorem removeSelection_ensures {returned : Unit → Disk Hash Config → Prop} (undisturbed : allowed .ok)
    (took : returned () { disk with selections := Function.update disk.selections stack none })
    (absent : disk.selections stack = none → returned () disk)
    (misread : returned () { disk with misread := true }) (kept : Kept disk)
    (late : allowed .late → Kept { disk with selections := Function.update disk.selections stack none }) :
    Ensures allowed (removeSelection stack) disk returned (fun _ => Kept) Kept := by
  refine Ensures.bind (fun all reached => (all = disk.selections ∧ disk = reached) ∨
    (all = (fun _ => none) ∧ { disk with misread := true } = reached))
    (getAll_ensures undisturbed (.inl ⟨rfl, rfl⟩) (.inr ⟨rfl, rfl⟩) kept) ?_
  rintro all _ (⟨rfl, rfl⟩ | ⟨rfl, rfl⟩)
  · split
    · rename_i isNone
      exact Ensures.pure (absent (by simpa using isNone))
    · exact storeSelections_ensures undisturbed took kept late
  · exact Ensures.pure misread

theorem quietly_ensures {task : DiskTask Hash Config Unit} {returned : Bool → Disk Hash Config → Prop}
    {threw : WriteError → Disk Hash Config → Prop}
    (each : Ensures allowed task disk (fun _ => returned true) (fun _ => returned false) Kept) :
    Ensures allowed (quietly task) disk returned threw Kept := by
  refine Ensures.bind (fun tried reached => returned tried.isOk reached)
    (Ensures.attempt (by simpa [Except.isOk, Except.toBool] using each)) ?_
  intro tried reached post
  cases tried with
  | ok _ => exact Ensures.pure post
  | error _ => exact Ensures.pure post

theorem putSelection_ensures {wanted : Option Config} {returned : Bool → Disk Hash Config → Prop}
    {threw : WriteError → Disk Hash Config → Prop} (undisturbed : allowed .ok)
    (stored : ∀ all wiped, disk.ReadAs all wiped →
      returned true { disk with selections := Function.update all stack wanted, wiped })
    (absent : wanted = none → disk.selections stack = none → returned true disk)
    (misread : wanted = none → returned true { disk with misread := true })
    (failed : returned false disk ∧ Kept disk)
    (unread : returned false { disk with wiped := true } ∧ Kept { disk with wiped := true })
    (late : allowed .late → ∀ all wiped, disk.ReadAs all wiped →
      returned false { disk with selections := Function.update all stack wanted, wiped } ∧
        Kept { disk with selections := Function.update all stack wanted, wiped }) :
    Ensures allowed (putSelection stack wanted) disk returned threw Kept := by
  -- Neither an error nor a kill took the selection further than `Failed` says
  let Failed : Disk Hash Config → Prop := fun disk => returned false disk ∧ Kept disk
  have each : ∀ task : DiskTask Hash Config Unit,
      Ensures allowed task disk (fun _ => returned true) (fun _ => Failed) Failed →
        Ensures allowed (quietly task) disk returned threw Kept := fun task before =>
    quietly_ensures (before.mono (fun _ _ => id) (fun _ _ both => both.1) fun _ both => both.2)
  cases wanted with
  | none =>
      exact each _ (removeSelection_ensures undisturbed (stored _ disk.wiped (.inl ⟨rfl, rfl⟩))
        (absent rfl) (misread rfl) failed fun within => late within _ disk.wiped (.inl ⟨rfl, rfl⟩))
  | some config => exact each _ (setSelection_ensures undisturbed stored failed unread late)

/-- Undisturbed, exactly this selection is stored. -/
theorem putSelection_orKilled {wanted : Option Config} {returned : Bool → Disk Hash Config → Prop}
    {threw : WriteError → Disk Hash Config → Prop}
    (stored : returned true { disk with selections := Function.update disk.selections stack wanted })
    (kept : Kept disk) : Ensures OrKilled (putSelection stack wanted) disk returned threw Kept := by
  have read {unread : Disk Hash Config → Disk Hash Config} {threw : WriteError → Disk Hash Config → Prop} :
      Ensures OrKilled (getAll unread) disk (fun all reached => all = disk.selections ∧ disk = reached)
        threw Kept := by
    refine Ensures.operation (.inl rfl) ?_
    rintro _ (rfl | rfl)
    · exact ⟨rfl, rfl⟩
    · exact kept
  have stores {threw : WriteError → Disk Hash Config → Prop} :
      Ensures OrKilled (storeSelections (Function.update disk.selections stack wanted)) disk
        (fun _ => returned true) threw Kept := by
    refine Ensures.bind (fun _ reached => disk = reached)
      (ask_orKilled (fun _ _ => rfl) (fun _ held => by cases held) kept) ?_
    rintro _ _ rfl
    exact perform_orKilled stored kept
  cases wanted with
  | none =>
      refine quietly_ensures (Ensures.bind _ read ?_)
      rintro _ _ ⟨rfl, rfl⟩
      split
      · rename_i isNone
        have absent : disk.selections stack = none := by simpa using isNone
        rw [← absent, Function.update_eq_self] at stored
        exact Ensures.pure stored
      · exact stores
  | some config =>
      refine quietly_ensures (Ensures.bind _ read ?_)
      rintro _ _ ⟨rfl, rfl⟩
      exact stores

end

end Dockge.StackWrite
