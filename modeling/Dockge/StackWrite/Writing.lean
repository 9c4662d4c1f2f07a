import Mathlib.Data.List.Nodup
import Dockge.StackWrite.Landing

namespace Dockge.StackWrite

open Dockge.Data

/-! A call of `writeStackFiles` lands wherever it is stopped. -/

variable {Hash Config : Type} {sha256 : Bytes → Hash} {save : Save Hash Config}
  {disk : Disk Hash Config} {manifest : JournalManifest Hash Config} {written : List String} {stored : Bool}

theorem atomic_ok : Atomic .ok := by simp [Atomic]

theorem Atomic.not_late : ¬ Atomic .late := by simp [Atomic]

/-- What a write takes for granted: the journal it opens is new, the stored selection is the one
it would put back, and the old bytes survive being read as text. -/
structure Save.Sound (save : Save Hash Config) : Prop where
  fresh : save.start.journals save.own = none
  unmarked : save.own ∉ save.start.marked
  others : save.OthersUnrelated save.start
  selected : save.SelectedBefore save.start
  survives : ∀ target ∈ save.targets, ∀ bytes, save.start.bytes target.name = some bytes →
    transcode bytes = bytes

theorem Save.Sound.undone (sound : save.Sound) : save.Undone sha256 save.start where
  old := fun _ _ => rfl
  selected := fun _ => sound.selected
  unmarked := sound.unmarked
  journal := by simp [sound.fresh]
  others := sound.others

/-! ### The journal is opened -/

theorem Planned.describes {pending : List (PendingWrite Hash)} (injective : Function.Injective sha256)
    (planned : Planned sha256 save.start save.targets pending)
    (small : ∀ target ∈ save.targets, target.bytes.length ≤ maxFileBytes) :
    save.Describes sha256 (journalManifest pending save.metadata) where
  each := by
    intro file member
    obtain ⟨write, present, rfl⟩ := List.mem_map.mp member
    obtain ⟨hash, _, after, differs⟩ := planned.each write present
    have asked := planned.sub.subset (List.mem_map_of_mem present)
    exact ⟨write.target, asked, rfl, hash, after, differs⟩
  rest := by
    intro target member
    rcases planned.rest target member with ⟨write, present, rfl⟩ | same
    · exact .inl ⟨journalFile write, List.mem_map_of_mem present, rfl⟩
    · right
      cases held : save.start.bytes target.name with
      | none => simp [Disk.hashOf, held] at same
      | some bytes =>
          rw [Disk.hashOf, held] at same
          rw [injective (Option.some.inj same)]
  metadata := rfl
  sized := fun target member => ⟨small target member, planned.sized target member⟩

/-- The journal holds the old bytes of these files and no manifest yet. -/
structure Save.Opening (save : Save Hash Config) (names : List String) (disk : Disk Hash Config) : Prop where
  files : disk.files = save.start.files
  selections : disk.selections = save.start.selections
  misread : disk.misread = save.start.misread
  marked : disk.marked = save.start.marked
  journal : ∃ journal, disk.journals save.own = some journal ∧ journal.manifest = none ∧
    journal.committed = false ∧
    ∀ name ∈ names, ∀ bytes, save.start.bytes name = some bytes → journal.before name = some bytes
  others : save.OthersUnrelated disk

theorem Save.Opening.selectedOld {names : List String} (opening : save.Opening names disk)
    (sound : save.Sound) : save.SelectedOld disk := by
  intro _ metadata same
  rw [opening.selections]
  exact sound.selected metadata same

theorem Save.Opening.undone {names : List String} (opening : save.Opening names disk)
    (sound : save.Sound) : save.Undone sha256 disk where
  old := by
    intro target _
    rw [Disk.bytes, opening.files]
    rfl
  selected := opening.selectedOld sound
  unmarked := opening.marked ▸ sound.unmarked
  journal := by
    intro found held
    obtain ⟨journal, same, unplanned, uncommitted, _⟩ := opening.journal
    rw [same] at held
    cases held
    exact ⟨uncommitted, fun manifest planned => by simp [unplanned] at planned⟩
  others := opening.others

theorem Save.Opening.onOwn {names next : List String} (opening : save.Opening names disk)
    (change : Journal Hash Config → Journal Hash Config)
    (same : ∀ journal, (change journal).manifest = journal.manifest ∧
      (change journal).committed = journal.committed)
    (before : ∀ journal, (∀ name ∈ names, ∀ bytes, save.start.bytes name = some bytes →
        journal.before name = some bytes) →
      ∀ name ∈ next, ∀ bytes, save.start.bytes name = some bytes →
        (change journal).before name = some bytes) :
    save.Opening next (disk.onJournal save.own change) where
  files := opening.files
  selections := opening.selections
  misread := opening.misread
  marked := opening.marked
  journal := by
    obtain ⟨journal, held, unplanned, uncommitted, kept⟩ := opening.journal
    exact ⟨change journal, by simp [held], (same journal).1.trans unplanned,
      (same journal).2.trans uncommitted, before journal kept⟩
  others := opening.others.onOwn change

theorem journalBefore_ensures {names : List String} {write : PendingWrite Hash}
    (opening : save.Opening names disk) (sound : save.Sound)
    (bytes : write.state.bytes = save.start.bytes write.target.name) :
    Ensures Atomic (journalBefore save.own write) disk
      (fun _ => save.Opening (names ++ [write.target.name])) (fun _ => save.Undone sha256)
      (save.Undone sha256) := by
  unfold journalBefore
  split
  · rename_i old held
    have taken : save.Opening (names ++ [write.target.name]) (disk.onJournal save.own fun journal =>
        { journal with before := Function.update journal.before write.target.name (some old) }) := by
      refine opening.onOwn _ (fun _ => ⟨rfl, rfl⟩) ?_
      intro journal kept name member found same
      by_cases named : name = write.target.name
      · rw [named, ← bytes, held] at same
        simp [named, ← Option.some.inj same]
      · have earlier : name ∈ names := by simpa [named] using member
        simpa [Function.update_of_ne named] using kept name earlier found same
    exact perform_ensures atomic_ok taken (opening.undone sound) fun _ => taken.undone sound
  · rename_i absent
    refine Ensures.pure { opening with journal := ?_ }
    obtain ⟨journal, held, unplanned, uncommitted, kept⟩ := opening.journal
    refine ⟨journal, held, unplanned, uncommitted, ?_⟩
    intro name member found same
    by_cases named : name = write.target.name
    · rw [named, ← bytes, absent] at same
      cases same
    · exact kept name (by simpa [named] using member) found same

theorem journalVersions_ensures {names : List String} {write : PendingWrite Hash}
    (opening : save.Opening names disk) (sound : save.Sound)
    (bytes : write.state.bytes = save.start.bytes write.target.name) :
    Ensures Atomic (journalVersions save.own write) disk
      (fun _ => save.Opening (names ++ [write.target.name])) (fun _ => save.Undone sha256)
      (save.Undone sha256) := by
  refine Ensures.bind _ (journalBefore_ensures opening sound bytes) ?_
  intro _ disk opening
  have taken := opening.onOwn (fun journal => { journal with
    after := Function.update journal.after write.target.name
      (some (encodeUtf8 write.target.content.toList)) }) (fun _ => ⟨rfl, rfl⟩) fun _ kept => kept
  exact perform_ensures atomic_ok taken (opening.undone sound) fun _ => taken.undone sound

theorem openJournal_ensures {pending : List (PendingWrite Hash)} (sound : save.Sound)
    (planned : Planned sha256 save.start save.targets pending)
    (describes : save.Describes sha256 (journalManifest pending save.metadata)) :
    Ensures Atomic (openJournal pending save.metadata) save.start
      (fun opened disk => opened = (save.own, journalManifest pending save.metadata) ∧
        save.Committing sha256 (journalManifest pending save.metadata) [] false disk)
      (fun _ => save.Undone sha256) (save.Undone sha256) := by
  unfold openJournal
  refine Ensures.bind (fun value reached => save.start = value ∧ save.start = reached)
    (Ensures.look ⟨rfl, rfl⟩) ?_
  rintro _ _ ⟨rfl, rfl⟩
  have made : save.Opening [] { save.start.setJournal save.own (some {}) with nextId := save.own + 1 } :=
    ⟨rfl, rfl, rfl, rfl, ⟨{}, by simp [Disk.setJournal], rfl, rfl, by simp⟩, sound.others.setOwn _⟩
  refine Ensures.bind (fun _ => save.Opening [])
    (perform_ensures atomic_ok made sound.undone fun _ => made.undone sound) ?_
  intro _ disk made
  refine Ensures.bind (fun _ => save.Opening [])
    (ask_ensures atomic_ok (fun _ _ => made) (made.undone sound)) ?_
  intro _ disk made
  refine Ensures.bind (fun _ => save.Opening (pending.map fun write => write.target.name)) ?_ ?_
  · refine Ensures.forEach (fun done : List (PendingWrite Hash) => save.Opening (done.map fun write => write.target.name)) made ?_
    intro before write after disk same opening
    have bytes := (planned.each write (by simp [same])).2.1
    exact (journalVersions_ensures opening sound bytes).mono (fun _ _ next => by simpa using next)
      (fun _ _ => id) fun _ => id
  intro _ disk opening
  have taken : save.Committing sha256 (journalManifest pending save.metadata) [] false
      (disk.onJournal save.own fun journal =>
        { journal with manifest := some (journalManifest pending save.metadata) }) := by
    obtain ⟨journal, held, _, uncommitted, before⟩ := opening.journal
    have undone : save.Undone sha256 disk := opening.undone sound
    refine ⟨by simp, fun target member _ => undone.old target member, opening.selectedOld sound,
      undone.unmarked, ?_, opening.others.onOwn _⟩
    refine ⟨{ journal with manifest := some (journalManifest pending save.metadata) }, by simp [held],
      rfl, describes, uncommitted, ?_⟩
    intro file member
    obtain ⟨write, present, rfl⟩ := List.mem_map.mp member
    exact before _ (List.mem_map_of_mem present)
  refine Ensures.bind (fun _ => save.Committing sha256 (journalManifest pending save.metadata) [] false)
    (perform_ensures atomic_ok taken (opening.undone sound) fun late => absurd late Atomic.not_late) ?_
  intro _ disk committing
  exact Ensures.pure ⟨rfl, committing⟩

/-! ### The commit -/

theorem Save.same_target (distinct : (save.targets.map (·.name)).Nodup) {one other : StackFileTarget Hash}
    (member : one ∈ save.targets) (member' : other ∈ save.targets) (same : one.name = other.name) :
    one = other :=
  List.inj_on_of_nodup_map distinct member member' same

/-- A failed commit tells exactly what it did. -/
abbrev Save.Failed (sha256 : Bytes → Hash) (save : Save Hash Config)
    (manifest : JournalManifest Hash Config) (error : WriteError × WriteProgress)
    (disk : Disk Hash Config) : Prop :=
  save.Committing sha256 manifest error.2.written error.2.metadataApplied disk

theorem during_ensures {α : Type} {task : DiskTask Hash Config α} {returned : α → Disk Hash Config → Prop}
    (each : Ensures Atomic task disk returned
      (fun _ => save.Committing sha256 manifest written stored)
      (save.Committing sha256 manifest written stored)) :
    Ensures Atomic (during { written, metadataApplied := stored } task) disk returned
      (save.Failed sha256 manifest) (save.Reverting sha256) := by
  refine Ensures.orElse _ (each.mono (fun _ _ => id) (fun _ _ => id) fun _ held => held.reverting) ?_
  intro error disk failed
  exact Ensures.fail failed

theorem Save.Committing.replace {target : StackFileTarget Hash} {mode : Nat}
    (committing : save.Committing sha256 manifest written stored disk)
    (distinct : (save.targets.map (·.name)).Nodup) (member : target ∈ save.targets) :
    save.Committing sha256 manifest (written ++ [target.name]) stored
      (disk.setFile target.name (some ⟨encodeUtf8 target.content.toList, mode⟩)) := by
  refine committing.setFile ?_ ?_ ?_
  · intro other different
    simp [different]
  · intro other present same _
    rw [Save.same_target distinct present member same]
    rfl
  · intro _ _ _ absent
    simp at absent

section
variable [DecidableEq Hash]

theorem replaceFiles_ensures (distinct : (save.targets.map (·.name)).Nodup)
    (pending : List (PendingWrite Hash)) (asked : ∀ write ∈ pending, write.target ∈ save.targets)
    (committing : save.Committing sha256 manifest written false disk) :
    Ensures Atomic (replaceFiles sha256 pending written) disk
      (fun names reached => names = written ++ pending.map (·.target.name) ∧
        save.Committing sha256 manifest names false reached)
      (save.Failed sha256 manifest) (save.Reverting sha256) := by
  induction pending generalizing written disk with
  | nil => exact Ensures.pure ⟨by simp, committing⟩
  | cons write rest ih =>
      obtain ⟨target, state, afterHash⟩ := write
      have member := asked _ List.mem_cons_self
      refine Ensures.bind (fun _ => save.Committing sha256 manifest (written ++ [target.name]) false)
        (during_ensures ?_) ?_
      · refine Ensures.bind (fun _ reached => disk = reached)
          (ask_ensures atomic_ok (fun _ _ => rfl) committing) ?_
        rintro _ _ rfl
        refine Ensures.bind (fun _ reached => disk = reached)
          (readStackFileState_ensures atomic_ok (fun _ _ _ _ => rfl) committing) ?_
        rintro _ _ rfl
        refine Ensures.bind (fun _ reached => disk = reached)
          (refuseIf_ensures (fun _ => rfl) fun _ => committing) ?_
        rintro _ _ rfl
        exact perform_ensures atomic_ok (committing.replace distinct member) committing
          fun late => absurd late Atomic.not_late
      intro _ disk committing
      refine Ensures.bind (fun _ => save.Committing sha256 manifest (written ++ [target.name]) false)
        (during_ensures ?_) ?_
      · refine Ensures.bind (fun _ reached => disk = reached)
          (readStackFileState_ensures atomic_ok (fun _ _ _ _ => rfl) committing) ?_
        rintro _ _ rfl
        exact refuseIf_ensures (fun _ => committing) fun _ => committing
      intro _ disk committing
      exact (ih (fun write present => asked write (List.mem_cons_of_mem _ present)) committing).mono
        (fun _ _ held => by simpa using held) (fun _ _ => id) fun _ => id

omit [DecidableEq Hash] in
/-- The selection goes in while the files can still be put back. -/
theorem applyOptions_ensures {Kept : Disk Hash Config → Prop} {metadata : Option (StackWriteMetadata Config)}
    {returned : Unit → Disk Hash Config → Prop} (none_returned : metadata = none → returned () disk)
    (took : ∀ belongs, metadata = some belongs → ∀ all wiped,
      returned () { disk with selections := Function.update all belongs.stack (some belongs.after), wiped })
    (kept : Kept disk) (unread : Kept { disk with wiped := true }) : Ensures Atomic (applyOptions metadata) disk returned (fun _ => Kept) Kept := by
  cases metadata with
  | none => exact Ensures.pure (none_returned rfl)
  | some metadata =>
      refine Ensures.orElse (fun _ => Kept) (setSelection_ensures atomic_ok
        (fun all wiped _ => took metadata rfl all wiped) kept unread fun late => absurd late Atomic.not_late) ?_
      intro _ _ kept
      exact Ensures.fail kept

theorem commitWrite_ensures {pending : List (PendingWrite Hash)}
    (distinct : (save.targets.map (·.name)).Nodup) (asked : ∀ write ∈ pending, write.target ∈ save.targets)
    (committing : save.Committing sha256 (journalManifest pending save.metadata) [] false disk) :
    Ensures Atomic (commitWrite sha256 pending save.own save.metadata) disk (fun _ => save.Done sha256)
      (save.Failed sha256 (journalManifest pending save.metadata)) (save.Reverting sha256) := by
  refine Ensures.bind _ (replaceFiles_ensures distinct pending asked committing) ?_
  rintro written disk ⟨all, committing⟩
  refine Ensures.bind (fun _ reached =>
    save.Committing sha256 (journalManifest pending save.metadata) written save.metadata.isSome reached ∧
      save.SelectedNew reached) (during_ensures ?_) ?_
  · refine Ensures.bind (fun _ reached => disk = reached)
      (ask_ensures atomic_ok (fun _ _ => rfl) committing) ?_
    rintro _ _ rfl
    refine applyOptions_ensures ?_ ?_ committing { committing with }
    · intro absent
      refine ⟨by simpa [absent] using committing, ?_⟩
      intro metadata same
      simp [absent] at same
    · intro metadata same all wiped
      have stored : save.SelectedNew
          { disk with selections := Function.update all metadata.stack (some metadata.after), wiped } := by
        intro found held
        rw [same] at held
        cases held
        simp
      have belongs : save.metadata.isSome = true := by simp [same]
      refine ⟨?_, stored⟩
      rw [belongs]
      exact committing.setSelections _ disk.misread wiped stored
  rintro _ disk ⟨committing, stored⟩
  refine during_ensures (perform_ensures atomic_ok ?_ committing fun late => absurd late Atomic.not_late)
  have complete : ∀ file ∈ (journalManifest pending save.metadata).files, file.name ∈ written := by
    intro file member
    obtain ⟨write, present, rfl⟩ := List.mem_map.mp member
    rw [all]
    simpa using ⟨write, present, rfl⟩
  have marking : save.Committing sha256 (journalManifest pending save.metadata) written true disk :=
    { committing with selected := stored }
  exact marking.mark complete

/-! ### The compensation -/

theorem undoFile_ensures {name : String} (sound : save.Sound)
    (committing : save.Committing sha256 manifest written false disk) :
    Ensures Atomic (undoFile sha256 save.own manifest name) disk
      (fun _ => save.Committing sha256 manifest (written.filter (· ≠ name)) false)
      (fun _ => save.Underway sha256) (save.Underway sha256) := by
  unfold undoFile
  split
  · exact Ensures.fail committing.underway
  rename_i entry found
  obtain ⟨journal, held, restores⟩ := committing.journal
  have present := List.mem_of_find?_eq_some found
  have named : entry.name = name := by simpa using List.find?_some found
  obtain ⟨target, member, same, beforeHash, _⟩ := restores.describes.each entry present
  -- Putting the old bytes back
  have undone {file : Option File} (old : file.map (·.bytes) = save.start.bytes name) :
      save.Committing sha256 manifest (written.filter (· ≠ name)) false (disk.setFile name file) := by
    refine committing.setFile ?_ ?_ ?_
    · intro other different
      simp [different]
    · intro _ _ _ there
      simp at there
    · intro _ _ _ _
      exact old
  refine Ensures.bind (fun _ reached => disk = reached)
    (readStackFileState_ensures atomic_ok (fun _ _ _ _ => rfl) committing.underway) ?_
  rintro current _ rfl
  refine Ensures.bind (fun _ reached => disk = reached)
    (refuseIf_ensures (fun _ => rfl) fun _ => committing.underway) ?_
  rintro _ _ rfl
  rw [← same, named] at beforeHash
  split
  · rename_i absent
    have gone : save.start.bytes name = none := by
      simpa [Disk.hashOf, absent] using beforeHash.symm
    exact perform_ensures atomic_ok (undone gone.symm) committing.underway
      fun late => absurd late Atomic.not_late
  · rename_i hash there
    obtain ⟨old, oldHeld⟩ : ∃ old, save.start.bytes name = some old := by
      cases oldHeld : save.start.bytes name with
      | none => simp [Disk.hashOf, oldHeld, there] at beforeHash
      | some old => exact ⟨old, rfl⟩
    have kept := restores.before entry present old (named ▸ oldHeld)
    have survives : transcode old = old := sound.survives target member old (by rw [← same, named, oldHeld])
    refine Ensures.bind (fun text reached => disk = reached ∧ text = decodeUtf8 old)
      (ask_ensures atomic_ok ?_ committing.underway) ?_
    · intro text read
      simp only [held, Option.bind_some, ← named, kept, Except.ok.injEq] at read
      exact ⟨rfl, read.symm⟩
    rintro _ _ ⟨rfl, rfl⟩
    refine perform_ensures atomic_ok (undone ?_) committing.underway fun late => absurd late Atomic.not_late
    rw [oldHeld]
    exact congrArg some survives

/-- A write that was refused took no effect, unless it says that a journal of it is left. -/
def Save.Refused (sha256 : Bytes → Hash) (save : Save Hash Config) (error : WriteError)
    (disk : Disk Hash Config) : Prop :=
  save.Undone sha256 disk ∨ (∃ backup cause, error = .recoveryIncomplete backup cause) ∧ save.Underway sha256 disk

omit [DecidableEq Hash] in
theorem Save.Refused.reverting {error : WriteError} (refused : save.Refused sha256 error disk) :
    save.Reverting sha256 disk := by
  rcases refused with undone | ⟨_, underway⟩
  · exact .undone undone
  · exact .underway underway

theorem undoWrite_ensures {parts : List Part} {cause : WriteError} (sound : save.Sound)
    (committing : save.Committing sha256 manifest written false disk) :
    Ensures Atomic (undoWrite sha256 save.own manifest written parts cause) disk
      (fun _ => save.Undone sha256) (save.Refused sha256) (save.Reverting sha256) := by
  unfold undoWrite
  refine Ensures.bind (fun _ => save.Undone sha256) ?_ ?_
  · refine Ensures.orElse (fun _ => save.Underway sha256) ?_
      fun _ _ underway => Ensures.fail (.inr ⟨⟨_, _, rfl⟩, underway⟩)
    refine Ensures.mono (Ensures.forEach (fun done : List String => save.Committing sha256 manifest
      (written.filter (· ∉ done)) false) (by simpa using committing) ?_) ?_ (fun _ _ => id) fun _ => .underway
    · intro before name after disk _ committing
      refine (undoFile_ensures sound committing).mono (fun _ _ next => ?_) (fun _ _ => id) fun _ => id
      rw [List.filter_filter] at next
      simpa [and_comm, or_comm, not_or] using next
    · intro _ disk all
      have none_left : written.filter (· ∉ written.reverse) = [] := by simp
      rw [none_left] at all
      exact all.undone
  · intro _ disk undone
    exact (undone.removeJournal atomic_ok).mono (fun _ _ both => both.1) (fun _ _ => .inl)
      fun _ => .undone

omit [DecidableEq Hash] in
theorem revertOptions_ensures {error : WriteError} {progress : WriteProgress}
    (failed : save.Failed sha256 manifest (error, progress) disk) :
    Ensures Atomic (revertOptions save.own save.metadata error progress) disk
      (fun _ => save.Committing sha256 manifest progress.written false) (save.Refused sha256)
      (save.Reverting sha256) := by
  obtain ⟨written, applied⟩ := progress
  cases metadata : save.metadata with
  | none =>
      refine Ensures.pure { failed with selected := ?_ }
      intro _ found held
      simp [metadata] at held
  | some belongs =>
      refine Ensures.onlyIf ?_ ?_
      · intro stored
        change applied = true at stored
        subst stored
        have back (all : String → Option Config) (wiped : Bool) : save.SelectedOld
            { disk with selections := Function.update all belongs.stack belongs.before, wiped } := by
          intro _ found held
          rw [metadata] at held
          cases held
          simp
        refine Ensures.bind (fun reverted reached =>
          save.Committing sha256 manifest written (!reverted) reached) ?_ ?_
        · have unread : save.Committing sha256 manifest written true { disk with wiped := true } := { failed with }
          refine putSelection_ensures atomic_ok ?_ ?_ ?_ ⟨failed, failed.reverting⟩ ⟨unread, unread.reverting⟩
            fun late => absurd late Atomic.not_late
          · exact fun all wiped _ => failed.setSelections _ disk.misread wiped (back all wiped)
          · intro wanted absent
            refine { failed with selected := ?_ }
            intro _ found held
            rw [metadata] at held
            cases held
            rw [absent, wanted]
          · intro _
            exact failed.setSelections disk.selections true disk.wiped fun read => by cases read
        · intro reverted disk committing
          cases reverted with
          | true => exact Ensures.pure committing
          | false => exact Ensures.fail (.inr ⟨⟨_, _, rfl⟩, committing.underway⟩)
      · intro unstored
        change applied = false at unstored
        subst unstored
        exact failed

theorem compensate_ensures {parts : List Part} {error : WriteError} {progress : WriteProgress}
    {returned : Unit → Disk Hash Config → Prop} (sound : save.Sound)
    (failed : save.Failed sha256 manifest (error, progress) disk) :
    Ensures Atomic (compensate sha256 save.own manifest { metadata := save.metadata, parts } error progress)
      disk returned (save.Refused sha256) (save.Reverting sha256) := by
  unfold compensate
  refine Ensures.bind _ (revertOptions_ensures failed) ?_
  intro _ disk committing
  refine Ensures.bind _ (undoWrite_ensures sound committing) ?_
  intro _ disk undone
  exact Ensures.fail (.inl undone)

/-! ### The call -/

omit [DecidableEq Hash] in
theorem validateTargets_ensures {allowed : Fate → Prop} {threw : WriteError → Disk Hash Config → Prop}
    {stopped : Disk Hash Config → Prop} (targets : List (StackFileTarget Hash))
    (kept : ∀ error, threw error disk) :
    Ensures allowed (Program.forEach targets validateTarget) disk
      (fun _ reached => disk = reached ∧ ∀ target ∈ targets, target.bytes.length ≤ maxFileBytes)
      threw stopped := by
  refine Ensures.forEach (fun (done : List (StackFileTarget Hash)) reached => disk = reached ∧
    ∀ target ∈ done, target.bytes.length ≤ maxFileBytes) ⟨rfl, by simp⟩ ?_
  rintro before target after _ _ ⟨rfl, small⟩
  refine Ensures.bind (fun _ reached => disk = reached) (refuseIf_ensures (fun _ => rfl) kept) ?_
  rintro _ _ rfl
  refine refuseIf_ensures (fun passed => ⟨rfl, ?_⟩) kept
  intro other member
  rcases List.mem_append.mp member with earlier | last
  · exact small other earlier
  · rw [List.mem_singleton.mp last]
    simpa [StackFileTarget.bytes] using passed

/-- What a call that took effect answers, and what it found. -/
structure Save.Answered (sha256 : Bytes → Hash) (save : Save Hash Config) (result : StackWriteResult Hash) :
    Prop where
  hashes : result.hashes = save.targets.map fun target => (target.name, sha256 target.bytes)
  expected : ∀ target ∈ save.targets, ∀ hash, target.expectedHash = some hash →
    hash = save.start.hashOf sha256 target.name

theorem writeLocked_ensures (parts : List Part) (injective : Function.Injective sha256) (sound : save.Sound)
    (small : ∀ target ∈ save.targets, target.bytes.length ≤ maxFileBytes)
    (distinct : (save.targets.map (·.name)).Nodup) :
    Ensures Atomic (writeLocked sha256 save.targets { metadata := save.metadata, parts }) save.start
      (fun written disk => save.Done sha256 disk ∧ save.Answered sha256 written.1 ∧
        (written.2 = some save.own ∨ written.2 = none ∧ disk.journals save.own = none))
      (save.Refused sha256) (save.Reverting sha256) := by
  have start : save.Undone sha256 save.start := sound.undone
  unfold writeLocked
  refine Ensures.bind _ ((planWrite_ensures atomic_ok save.targets start).mono (fun _ _ => id)
    (fun _ _ => .inl) fun _ => .undone) ?_
  rintro ⟨hashes, pending⟩ _ ⟨rfl, planned, hashed⟩
  have describes := planned.describes injective small
  have asked : ∀ write ∈ pending, write.target ∈ save.targets := fun write member =>
    planned.sub.subset (List.mem_map_of_mem member)
  dsimp only
  split
  · -- Every file holds its bytes already
    rename_i empty
    have nothing : pending = [] := by simpa using empty
    have new : save.HoldsNew save.start := by
      intro target member
      rcases describes.rest target member with ⟨file, present, _⟩ | same
      · simp [journalManifest, nothing] at present
      · exact same
    refine Ensures.bind (fun _ reached => save.Done sha256 reached ∧ reached.journals save.own = none) ?_ ?_
    swap
    · intro _ disk done
      exact Ensures.pure ⟨done.1, ⟨hashed, planned.expected⟩, .inr ⟨rfl, done.2⟩⟩
    refine (applyOptions_ensures ?_ ?_ start { start with }).mono (fun _ _ => id) (fun _ _ => .inl)
      fun _ => .undone
    · intro absent
      exact ⟨⟨new, fun _ held => by simp [absent] at held, by simp [sound.fresh], sound.others⟩, sound.fresh⟩
    · intro metadata same all wiped
      refine ⟨⟨new, ?_, by simp [sound.fresh], sound.others⟩, sound.fresh⟩
      intro found held
      rw [same] at held
      cases held
      simp
  · refine Ensures.bind _ ((openJournal_ensures sound planned describes).mono (fun _ _ => id)
      (fun _ _ => .inl) fun _ => .undone) ?_
    rintro ⟨_, _⟩ disk ⟨⟨⟩, committing⟩
    refine Ensures.bind (fun _ => save.Done sha256) ?_ ?_
    · refine Ensures.orElse _ (commitWrite_ensures distinct asked committing) ?_
      rintro ⟨error, progress⟩ disk failed
      exact compensate_ensures sound failed
    intro _ disk done
    exact Ensures.pure ⟨done, ⟨hashed, planned.expected⟩, .inl rfl⟩

/-- A call that returns has saved everything; one that throws has not, unless it says so or was
about to remove its journal. -/
theorem writeStackFiles_ensures {parts : List Part} (injective : Function.Injective sha256)
    (sound : save.Sound) :
    Ensures Atomic (writeStackFiles sha256 save.targets { metadata := save.metadata, parts }) save.start
      (fun result disk => save.Done sha256 disk ∧ disk.journals save.own = none ∧ save.Answered sha256 result)
      (fun error disk => save.Refused sha256 error disk ∨ save.Done sha256 disk) (save.Lands sha256) := by
  have start : save.Undone sha256 save.start := sound.undone
  rw [writeStackFiles_eq]
  refine Ensures.bind _ ((validateTargets_ensures save.targets fun _ => start).mono (fun _ _ => id)
    (fun _ _ undone => .inl (.inl undone)) fun _ => .undone) ?_
  rintro _ _ ⟨rfl, small⟩
  refine Ensures.bind (fun _ reached => save.start = reached ∧ (save.targets.map (·.name)).Nodup)
    (refuseIf_ensures (fun passed => ⟨rfl, by simpa using passed⟩) fun _ => .inl (.inl start)) ?_
  rintro _ _ ⟨rfl, distinct⟩
  refine Ensures.bind _ ((writeLocked_ensures _ injective sound small distinct).mono (fun _ _ => id)
    (fun _ _ => .inl) fun _ => Save.Reverting.lands) ?_
  rintro ⟨result, journal⟩ disk ⟨done, answered, opened⟩
  refine Ensures.bind (fun _ reached => save.Done sha256 reached ∧ reached.journals save.own = none) ?_ ?_
  · rcases opened with same | ⟨same, gone⟩
    · change journal = some save.own at same
      subst same
      exact (done.removeJournal atomic_ok).mono (fun _ _ => id) (fun _ _ => .inr) fun _ => .done
    · change journal = none at same
      subst same
      exact Ensures.pure ⟨done, gone⟩
  · rintro _ disk ⟨done, gone⟩
    exact Ensures.pure ⟨done, gone, answered⟩

/-- Wherever a call is stopped, and however it ends, it lands. -/
theorem writeStackFiles_lands {parts : List Part} (injective : Function.Injective sha256)
    (sound : save.Sound) :
    Ensures Atomic (writeStackFiles sha256 save.targets { metadata := save.metadata, parts }) save.start
      (fun _ => save.Lands sha256) (fun _ => save.Lands sha256) (save.Lands sha256) := by
  refine (writeStackFiles_ensures injective sound).mono (fun _ _ saved => .done saved.1) ?_ fun _ => id
  intro error disk rejected
  rcases rejected with refused | done
  · exact refused.reverting.lands
  · exact .done done

end

end Dockge.StackWrite
