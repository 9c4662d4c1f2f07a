import Dockge.StackWrite.Durable

namespace Dockge.StackWrite

open Dockge.Data

/-! What a write that returned has done, and that one nobody came in the way of is not a conflict. -/

variable {Hash Config : Type} {sha256 : Bytes → Hash} {disk start : Disk Hash Config}

/-- The error does not say that a file holds something else than it should. -/
def WriteError.Unrefused (error : WriteError) : Prop := ∀ file, error ≠ .conflict file

section
variable {α : Type} {returned : α → Disk Hash Config → Prop}

/-! ### The errors of each part -/

theorem perform_throws {effect : Disk Hash Config → Disk Hash Config}
    {returned : Unit → Disk Hash Config → Prop} (took : returned () (effect disk)) :
    Ensures Fate.Any (perform effect) disk returned (fun error _ => error.Unrefused) fun _ => True := by
  refine Ensures.operation any_ok ?_
  intro fate _
  cases fate with
  | ok => exact took
  | fail => exact fun _ => by simp
  | late => exact fun _ => by simp
  | kill => exact trivial

theorem ask_throws {answer : Disk Hash Config → Except WriteError α}
    (answered : ∀ value, answer disk = .ok value → returned value disk)
    (failed : ∀ error, answer disk = .error error → error.Unrefused) :
    Ensures Fate.Any (ask answer) disk returned (fun error _ => error.Unrefused) fun _ => True := by
  refine Ensures.operation any_ok ?_
  intro fate _
  cases fate with
  | ok =>
      cases held : answer disk with
      | ok value => exact answered value held
      | error error => exact failed error held
  | fail => exact fun _ => by simp
  | late => exact fun _ => by simp
  | kill => exact trivial

theorem readStackFileState_throws {name : String} {returned : StackFileState Hash → Disk Hash Config → Prop}
    (answered : ∀ state : StackFileState Hash, state.hash = disk.hashOf sha256 name → returned state disk) :
    Ensures Fate.Any (readStackFileState sha256 name) disk returned (fun error _ => error.Unrefused)
      fun _ => True := by
  refine ask_throws ?_ ?_
  · intro state held
    exact answered state (readStackFileState_answer held).1
  · intro error failed
    cases present : disk.files name with
    | none => simp [present] at failed
    | some file =>
        simp only [present] at failed
        split at failed
        · cases failed
          exact fun _ => by simp
        · cases failed

theorem removeJournal_throws {parts : List Part} {id : Nat} :
    Ensures Fate.Any (removeJournal parts id) disk (fun _ _ => True) (fun error _ => error.Unrefused)
      fun _ => True := by
  refine Ensures.bind (fun _ _ => True) ?_ fun _ _ _ => perform_throws trivial
  exact Ensures.forEach (fun _ _ => True) trivial fun _ _ _ _ _ _ => perform_throws trivial

theorem openJournal_throws {pending : List (PendingWrite Hash)} {metadata : Option (StackWriteMetadata Config)} :
    Ensures Fate.Any (openJournal pending metadata) disk
      (fun _ reached => reached.files = disk.files ∧ reached.selections = disk.selections)
      (fun error _ => error.Unrefused) fun _ => True := by
  let Same (reached : Disk Hash Config) : Prop :=
    reached.files = disk.files ∧ reached.selections = disk.selections
  unfold openJournal
  refine Ensures.bind (fun _ => Same) (Ensures.look ⟨rfl, rfl⟩) ?_
  intro _ _ same
  refine Ensures.bind (fun _ => Same) (perform_throws same) ?_
  intro _ _ same
  refine Ensures.bind (fun _ => Same) (ask_throws (fun _ _ => same) fun _ failed => by cases failed) ?_
  intro _ _ same
  refine Ensures.bind (fun _ => Same) (Ensures.forEach (fun _ => Same) same ?_) ?_
  · intro _ write _ _ _ same
    refine Ensures.bind (fun _ => Same) ?_ fun _ _ same => perform_throws same
    unfold journalBefore
    split
    · exact perform_throws same
    · exact Ensures.pure same
  intro _ _ same
  refine Ensures.bind (fun _ => Same) (perform_throws same) ?_
  intro _ _ same
  exact Ensures.pure same

section
variable [DecidableEq Hash]

/-- What a plan needs not to be refused. -/
def Expected (sha256 : Bytes → Hash) (targets : List (StackFileTarget Hash)) (disk : Disk Hash Config) : Prop :=
  ∀ target ∈ targets, ∀ hash, target.expectedHash = some hash → hash = disk.hashOf sha256 target.name

theorem planWrite_throws {targets : List (StackFileTarget Hash)} (expected : Expected sha256 targets disk) :
    Ensures Fate.Any (planWrite sha256 targets) disk (fun _ reached => disk = reached)
      (fun error _ => error.Unrefused) fun _ => True := by
  induction targets with
  | nil => exact Ensures.pure rfl
  | cons target rest ih =>
      refine Ensures.bind (fun state reached => disk = reached ∧ state.hash = disk.hashOf sha256 target.name)
        (readStackFileState_throws fun _ hash => ⟨rfl, hash⟩) ?_
      rintro state _ ⟨rfl, hash⟩
      have matching : target.expectedHash.all (· = state.hash) = true := by
        cases asked : target.expectedHash with
        | none => rfl
        | some wanted =>
            have same := expected target List.mem_cons_self wanted asked
            simp [same, hash]
      rw [if_pos matching]
      refine Ensures.bind (fun _ reached => disk = reached) (Ensures.pure rfl) ?_
      rintro _ _ rfl
      refine Ensures.bind _ (ih fun other member => expected other (List.mem_cons_of_mem _ member)) ?_
      rintro _ _ rfl
      exact Ensures.pure rfl

theorem undoWrite_throws {manifest : JournalManifest Hash Config} {written : List String} {parts : List Part}
    {cause : WriteError} {own : Nat} :
    Ensures Fate.Any (undoWrite sha256 own manifest written parts cause) disk (fun _ _ => True)
      (fun error _ => error.Unrefused) fun _ => True := by
  refine Ensures.bind (fun _ _ => True) ?_ fun _ _ _ => removeJournal_throws
  refine Ensures.orElse (fun _ _ => True) Ensures.trivial ?_
  intro _ _ _
  exact Ensures.fail fun _ => by simp

theorem compensate_unrefused {manifest : JournalManifest Hash Config} {options : StackWriteOptions Config}
    {error : WriteError} {progress : WriteProgress} {own : Nat} {returned : Unit → Disk Hash Config → Prop}
    (unrefused : error.Unrefused) :
    Ensures Fate.Any (compensate sha256 own manifest options error progress) disk returned
      (fun error _ => error.Unrefused) fun _ => True := by
  refine Ensures.bind (fun _ _ => True) ?_ ?_
  · unfold revertOptions
    split
    · refine Ensures.onlyIf (fun _ => ?_) fun _ => trivial
      refine Ensures.bind (fun _ _ => True) ?_ ?_
      · exact putSelection_ensures any_ok (fun _ _ _ => trivial) (fun _ _ => trivial) (fun _ => trivial)
          ⟨trivial, trivial⟩ ⟨trivial, trivial⟩ fun _ _ _ _ => ⟨trivial, trivial⟩
      · intro reverted _ _
        cases reverted with
        | true => exact Ensures.pure trivial
        | false => exact Ensures.fail fun _ => by simp
    · exact Ensures.pure trivial
  intro _ _ _
  refine Ensures.bind (fun _ _ => True) undoWrite_throws ?_
  intro _ _ _
  exact Ensures.fail unrefused

/-! ### The commit -/

/-- So many of the targets were replaced, and the selections are those of the start. -/
def Midway (targets : List (StackFileTarget Hash)) (start : Disk Hash Config) (written : List String)
    (disk : Disk Hash Config) : Prop :=
  Replaced targets start written disk.files ∧ disk.selections = start.selections

omit [DecidableEq Hash] in
theorem during_throws {progress : WriteProgress} {task : DiskTask Hash Config α}
    (each : Ensures Fate.Any task disk returned (fun error _ => error.Unrefused) fun _ => True) :
    Ensures Fate.Any (during progress task) disk returned (fun failed _ => failed.1.Unrefused)
      fun _ => True := by
  refine Ensures.orElse _ each ?_
  intro _ _ unrefused
  exact Ensures.fail unrefused

omit [DecidableEq Hash] in
theorem Replaced.hashOf {targets : List (StackFileTarget Hash)} {written : List String}
    {target : StackFileTarget Hash} (member : target ∈ targets)
    (replaced : Replaced targets start written disk.files) :
    disk.hashOf sha256 target.name =
      if target.name ∈ written then some (sha256 target.bytes) else start.hashOf sha256 target.name := by
  rw [Disk.hashOf, Disk.bytes, replaced target member]
  split <;> rfl

theorem replaceFiles_throws {targets : List (StackFileTarget Hash)} {pending : List (PendingWrite Hash)}
    {written : List String} (distinct : (targets.map (·.name)).Nodup)
    (asked : ∀ write ∈ pending, write.target ∈ targets ∧ write.afterHash = sha256 write.target.bytes ∧
      write.state.hash = start.hashOf sha256 write.target.name)
    (fresh : ∀ write ∈ pending, write.target.name ∉ written)
    (each : (pending.map (·.target.name)).Nodup) (midway : Midway targets start written disk) :
    Ensures Fate.Any (replaceFiles sha256 pending written) disk
      (fun _ => Midway targets start (written ++ pending.map (·.target.name)))
      (fun failed _ => failed.1.Unrefused) fun _ => True := by
  induction pending generalizing written disk with
  | nil => exact Ensures.pure (by simpa using midway)
  | cons write rest ih =>
      obtain ⟨target, state, afterHash⟩ := write
      obtain ⟨member, after, before⟩ := asked _ List.mem_cons_self
      change afterHash = sha256 target.bytes at after
      change state.hash = start.hashOf sha256 target.name at before
      have absent : target.name ∉ written := fresh _ List.mem_cons_self
      refine Ensures.bind (fun _ => Midway targets start (written ++ [target.name])) (during_throws ?_) ?_
      · refine Ensures.bind (fun _ reached => disk = reached)
          (ask_throws (fun _ _ => rfl) fun _ failed => by cases failed) ?_
        rintro _ _ rfl
        refine Ensures.bind (fun current reached => disk = reached ∧
          current.hash = disk.hashOf sha256 target.name) (readStackFileState_throws fun _ hash => ⟨rfl, hash⟩) ?_
        rintro current _ ⟨rfl, hash⟩
        have same : current.hash = state.hash := by
          rw [hash, midway.1.hashOf member, if_neg absent, before]
        rw [if_pos same]
        refine Ensures.bind (fun _ reached => disk = reached) (Ensures.pure rfl) ?_
        rintro _ _ rfl
        exact perform_throws ⟨midway.1.step distinct member, midway.2⟩
      intro _ disk midway
      refine Ensures.bind (fun _ => Midway targets start (written ++ [target.name])) (during_throws ?_) ?_
      · refine Ensures.bind (fun verified reached => disk = reached ∧
          verified.hash = disk.hashOf sha256 target.name) (readStackFileState_throws fun _ hash => ⟨rfl, hash⟩) ?_
        rintro verified _ ⟨rfl, hash⟩
        have same : verified.hash = some afterHash := by
          rw [hash, midway.1.hashOf member, if_pos (by simp), after]
        rw [if_pos same]
        exact Ensures.pure midway
      intro _ disk midway
      have once : target.name ∉ rest.map (·.target.name) := (List.nodup_cons.mp each).1
      have later := ih (fun write present => asked write (List.mem_cons_of_mem _ present)) ?_
        (List.nodup_cons.mp each).2 midway
      · simpa using later
      · intro other present
        have different : other.target.name ≠ target.name := fun same =>
          once (same ▸ List.mem_map_of_mem present)
        simpa [different] using fresh other (List.mem_cons_of_mem _ present)

/-- Every target holds what was asked for, and the selection of the write is stored. -/
structure Written (sha256 : Bytes → Hash) (targets : List (StackFileTarget Hash))
    (metadata : Option (StackWriteMetadata Config)) (start disk : Disk Hash Config) : Prop where
  files : ∀ target ∈ targets, disk.hashOf sha256 target.name = some (sha256 target.bytes)
  unselected : metadata = none → disk.selections = start.selections
  selected : ∀ belongs, metadata = some belongs → disk.selections belongs.stack = some belongs.after

omit [DecidableEq Hash] in
theorem applyOptions_throws {metadata : Option (StackWriteMetadata Config)}
    {targets : List (StackFileTarget Hash)} (same : disk.selections = start.selections)
    (files : ∀ target ∈ targets, disk.hashOf sha256 target.name = some (sha256 target.bytes)) :
    Ensures Fate.Any (applyOptions metadata) disk (fun _ => Written sha256 targets metadata start)
      (fun error _ => error.Unrefused) fun _ => True := by
  cases metadata with
  | none => exact Ensures.pure ⟨files, fun _ => same, by simp⟩
  | some metadata =>
      refine Ensures.orElse (fun _ _ => True) ?_ ?_
      · refine setSelection_ensures any_ok ?_ trivial trivial fun _ _ _ _ => trivial
        intro all wiped _
        refine ⟨files, by simp, ?_⟩
        rintro _ ⟨⟩
        simp
      · intro _ _ _
        exact Ensures.fail fun _ => by simp

theorem commitWrite_throws {targets : List (StackFileTarget Hash)} {pending : List (PendingWrite Hash)}
    {metadata : Option (StackWriteMetadata Config)} {own : Nat}
    (distinct : (targets.map (·.name)).Nodup) (planned : Planned sha256 start targets pending)
    (files : disk.files = start.files) (selections : disk.selections = start.selections) :
    Ensures Fate.Any (commitWrite sha256 pending own metadata) disk
      (fun _ => Written sha256 targets metadata start) (fun failed _ => failed.1.Unrefused) fun _ => True := by
  have asked : ∀ write ∈ pending, write.target ∈ targets := fun write member =>
    planned.sub.subset (List.mem_map_of_mem member)
  have named : (pending.map (·.target.name)).Nodup := by
    have sub := (planned.sub.map (·.name)).nodup distinct
    rwa [List.map_map] at sub
  have midway : Midway targets start [] disk := by
    refine ⟨?_, selections⟩
    intro target _
    simp [files, Disk.bytes]
  refine Ensures.bind _ (replaceFiles_throws distinct ?_ (by simp) named midway) ?_
  · intro write member
    obtain ⟨before, _, after, _⟩ := planned.each write member
    exact ⟨asked write member, after, before⟩
  intro _ disk midway
  rw [List.nil_append] at midway
  have holds : ∀ target ∈ targets, disk.hashOf sha256 target.name = some (sha256 target.bytes) := by
    intro target member
    rw [midway.1.hashOf member]
    split
    · rfl
    · rename_i untouched
      rcases planned.rest target member with ⟨write, found, same⟩ | held
      · subst same
        exact absurd (List.mem_map_of_mem found) untouched
      · exact held
  refine Ensures.bind (fun _ => Written sha256 targets metadata start) (during_throws ?_) ?_
  · refine Ensures.bind (fun _ reached => disk = reached)
      (ask_throws (fun _ _ => rfl) fun _ failed => by cases failed) ?_
    rintro _ _ rfl
    exact applyOptions_throws midway.2 holds
  intro _ disk written
  exact during_throws (perform_throws ⟨written.files, written.unselected, written.selected⟩)

/-! ### The write -/

theorem planWrite_answers {targets : List (StackFileTarget Hash)} :
    Ensures Fate.Any (planWrite sha256 targets) disk
      (fun plan reached => disk = reached ∧ Planned sha256 disk targets plan.2 ∧
        plan.1 = targets.map fun target => (target.name, sha256 target.bytes))
      (fun error _ => Expected sha256 targets disk → error.Unrefused) fun _ => True := by
  have plans := @planWrite_ensures _ _ Fate.Any disk sha256 (fun _ => True) _ any_ok targets trivial
  by_cases expected : Expected sha256 targets disk
  · exact (plans.and ((planWrite_throws expected).mono (fun _ _ _ => trivial) (fun _ _ => id) fun _ => id)).mono
      (fun _ _ both => both.1) (fun _ _ both _ => both.2) fun _ _ => trivial
  · exact plans.mono (fun _ _ => id) (fun _ _ _ held => absurd held expected) fun _ => id

/-- A write that returned found what its callers started from and holds what they asked for; where it
found that, it does not end in a conflict. -/
theorem writeLocked_answers {targets : List (StackFileTarget Hash)} {parts : List Part}
    {metadata : Option (StackWriteMetadata Config)} (distinct : (targets.map (·.name)).Nodup) :
    Ensures Fate.Any (writeLocked sha256 targets { metadata, parts }) disk
      (fun written reached =>
        written.1.hashes = targets.map (fun target => (target.name, sha256 target.bytes)) ∧
          Expected sha256 targets disk ∧ Written sha256 targets metadata disk reached)
      (fun error _ => Expected sha256 targets disk → error.Unrefused) fun _ => True := by
  unfold writeLocked
  refine Ensures.bind _ planWrite_answers ?_
  rintro ⟨hashes, pending⟩ _ ⟨rfl, planned, hashed⟩
  dsimp only
  split
  · rename_i empty
    obtain rfl : pending = [] := by simpa using empty
    have holds : ∀ target ∈ targets, disk.hashOf sha256 target.name = some (sha256 target.bytes) := by
      intro target member
      exact (planned.rest target member).resolve_left (by simp)
    refine Ensures.bind _ ((applyOptions_throws rfl holds).mono (fun _ _ => id) (fun _ _ held _ => held)
      fun _ => id) ?_
    intro _ reached written
    exact Ensures.pure ⟨hashed, planned.expected, written⟩
  · refine Ensures.bind _ (openJournal_throws.mono (fun _ _ => id) (fun _ _ held _ => held) fun _ => id) ?_
    rintro ⟨own, manifest⟩ reached ⟨files, selections⟩
    refine Ensures.bind (fun _ => Written sha256 targets metadata disk) ?_ ?_
    · refine Ensures.orElse _ (commitWrite_throws distinct planned files selections) ?_
      rintro ⟨error, progress⟩ _ unrefused
      exact (compensate_unrefused unrefused).mono (fun _ _ => id) (fun _ _ held _ => held) fun _ => id
    intro _ reached written
    exact Ensures.pure ⟨hashed, planned.expected, written⟩

end
end

end Dockge.StackWrite
