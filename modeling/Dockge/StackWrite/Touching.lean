import Dockge.StackWrite.Landing

namespace Dockge.StackWrite

open Dockge.Data

/-! What a write leaves alone, whatever happens to it. -/

variable {Hash Config : Type} {sha256 : Bytes → Hash} {disk : Disk Hash Config}
  {Kept : Disk Hash Config → Prop}

theorem during_keeps {α : Type} {progress : WriteProgress} {task : DiskTask Hash Config α}
    {returned : α → Disk Hash Config → Prop} {Failed : Disk Hash Config → Prop}
    (each : Ensures Fate.Any task disk returned (fun _ => Failed) Kept) :
    Ensures Fate.Any (during progress task) disk returned (fun _ => Failed) Kept := by
  refine Ensures.orElse (fun _ => Failed) each ?_
  intro _ disk failed
  exact Ensures.fail failed

/-- The operations of a write with this journal keep it: those on the journal, on the files of these
names and, where a selection belongs to the write, on the selections. -/
structure Disk.Closed (own : Nat) (names : List String) (metadata : Option (StackWriteMetadata Config))
    (Kept : Disk Hash Config → Prop) : Prop where
  committed : ∀ disk, Kept disk → Kept (disk.onJournal own fun journal => { journal with committed := true })
  dropped : ∀ disk part, Kept disk → Kept (disk.onJournal own fun journal => journal.drop part)
  removed : ∀ disk, Kept disk → Kept (disk.setJournal own none)
  marked : ∀ disk, Kept disk → Kept { disk with marked := own :: disk.marked }
  replaced : ∀ disk file, ∀ name ∈ names, Kept disk → Kept (disk.setFile name file)
  selected : ∀ belongs, metadata = some belongs → ∀ disk all wiped value, disk.ReadAs all wiped → Kept disk →
    Kept { disk with selections := Function.update all belongs.stack value, wiped }
  misread : metadata.isSome → ∀ disk, Kept disk → Kept { disk with misread := true }
  wiped : metadata.isSome → ∀ disk, Kept disk → Kept { disk with wiped := true }

/-- So do the entries this write puts into the journal. -/
structure Disk.Entered (own : Nat) (pending : List (PendingWrite Hash))
    (metadata : Option (StackWriteMetadata Config)) (Kept : Disk Hash Config → Prop) : Prop where
  before : ∀ disk, ∀ write ∈ pending, ∀ bytes, write.state.bytes = some bytes → Kept disk →
    Kept (disk.onJournal own fun journal =>
      { journal with before := Function.update journal.before write.target.name (some bytes) })
  after : ∀ disk, ∀ write ∈ pending, Kept disk → Kept (disk.onJournal own fun journal =>
    { journal with
      after := Function.update journal.after write.target.name (some (encodeUtf8 write.target.content.toList)) })
  manifest : ∀ disk, Kept disk → Kept (disk.onJournal own fun journal =>
    { journal with manifest := some (journalManifest pending metadata) })

section
variable {own : Nat} {names : List String} {metadata : Option (StackWriteMetadata Config)}

theorem applyOptions_keeps {Start : Disk Hash Config → Prop} (start : Start disk)
    (stored : ∀ belongs, metadata = some belongs → ∀ all wiped value, disk.ReadAs all wiped →
      Start { disk with selections := Function.update all belongs.stack value, wiped })
    (unread : metadata.isSome → Start { disk with wiped := true }) :
    Ensures Fate.Any (applyOptions metadata) disk (fun _ => Start) (fun _ => Start) Start := by
  cases metadata with
  | none => exact Ensures.pure start
  | some metadata =>
      refine Ensures.orElse (fun _ => Start)
        (setSelection_ensures any_ok (fun all wiped => stored metadata rfl all wiped _) start (unread rfl)
          fun _ all wiped => stored metadata rfl all wiped _) ?_
      intro _ disk kept
      exact Ensures.fail kept

theorem revertOptions_keeps {allowed : Fate → Prop} (undisturbed : allowed .ok) {error : WriteError} {progress : WriteProgress}
    (closed : Disk.Closed own names metadata Kept) (kept : Kept disk) :
    Ensures allowed (revertOptions own metadata error progress) disk (fun _ => Kept) (fun _ => Kept) Kept := by
  cases belongs : metadata with
  | none => exact Ensures.pure kept
  | some metadata =>
      have stored : ∀ all wiped, disk.ReadAs all wiped →
          Kept { disk with selections := Function.update all metadata.stack metadata.before, wiped } :=
        fun all wiped reads => closed.selected metadata belongs disk all wiped _ reads kept
      have unread := closed.wiped (by simp [belongs]) disk kept
      refine Ensures.onlyIf (fun _ => ?_) fun _ => kept
      refine Ensures.bind (fun _ => Kept) (putSelection_ensures undisturbed stored (fun _ _ => kept)
        (fun _ => closed.misread (by simp [belongs]) disk kept) ⟨kept, kept⟩ ⟨unread, unread⟩
        fun _ all wiped reads => ⟨stored all wiped reads, stored all wiped reads⟩) ?_
      intro _ disk kept
      exact refuseIf_ensures (fun _ => kept) fun _ => kept

theorem removeJournal_keeps {parts : List Part} (closed : Disk.Closed own names metadata Kept)
    (kept : Kept disk) :
    Ensures Fate.Any (removeJournal parts own) disk (fun _ => Kept) (fun _ => Kept) Kept := by
  refine (removeJournal_ensures any_ok kept closed.dropped closed.removed).mono
    (fun _ _ both => both.1) (fun _ _ => id) fun _ => id

section
variable [DecidableEq Hash]

theorem replaceFiles_keeps (closed : Disk.Closed own names metadata Kept)
    (pending : List (PendingWrite Hash)) (asked : ∀ write ∈ pending, write.target.name ∈ names)
    {written : List String} (kept : Kept disk) :
    Ensures Fate.Any (replaceFiles sha256 pending written) disk (fun _ => Kept) (fun _ => Kept) Kept := by
  induction pending generalizing written disk with
  | nil => exact Ensures.pure kept
  | cons write rest ih =>
      obtain ⟨target, state, afterHash⟩ := write
      have member := asked _ List.mem_cons_self
      refine Ensures.bind (fun _ => Kept) (during_keeps ?_) ?_
      · refine Ensures.bind (fun _ => Kept) (ask_ensures any_ok (fun _ _ => kept) kept) ?_
        intro _ disk kept
        refine Ensures.bind (fun _ => Kept) (readStackFileState_ensures any_ok (fun _ _ _ _ => kept) kept) ?_
        intro _ disk kept
        refine Ensures.bind (fun _ => Kept) (refuseIf_ensures (fun _ => kept) fun _ => kept) ?_
        intro _ disk kept
        have replaced := closed.replaced disk (some ⟨encodeUtf8 target.content.toList,
          state.mode.getD defaultFileMode⟩) target.name member kept
        exact perform_ensures any_ok replaced kept fun _ => replaced
      intro _ disk kept
      refine Ensures.bind (fun _ => Kept) (during_keeps ?_) ?_
      · refine Ensures.bind (fun _ => Kept) (readStackFileState_ensures any_ok (fun _ _ _ _ => kept) kept) ?_
        intro _ disk kept
        exact refuseIf_ensures (fun _ => kept) fun _ => kept
      intro _ disk kept
      exact ih (fun write present => asked write (List.mem_cons_of_mem _ present)) kept

theorem commitWrite_keeps (sha256 : Bytes → Hash) (closed : Disk.Closed own names metadata Kept)
    {pending : List (PendingWrite Hash)} (asked : ∀ write ∈ pending, write.target.name ∈ names)
    (kept : Kept disk) :
    Ensures Fate.Any (commitWrite sha256 pending own metadata) disk (fun _ => Kept) (fun _ => Kept) Kept := by
  refine Ensures.bind (fun _ => Kept) (replaceFiles_keeps closed pending asked kept) ?_
  intro written disk kept
  refine Ensures.bind (fun _ => Kept) (during_keeps ?_) ?_
  · refine Ensures.bind (fun _ => Kept) (ask_ensures any_ok (fun _ _ => kept) kept) ?_
    intro _ disk kept
    refine applyOptions_keeps kept ?_ fun belongs => closed.wiped belongs disk kept
    intro metadata same all wiped value reads
    exact closed.selected metadata same disk all wiped value reads kept
  intro _ disk kept
  have marked := closed.marked _ (closed.committed disk kept)
  exact during_keeps (perform_ensures any_ok marked kept fun _ => marked)

theorem undoFile_keeps {manifest : JournalManifest Hash Config} {name : String}
    (closed : Disk.Closed own names metadata Kept) (planned : ∀ file ∈ manifest.files, file.name ∈ names)
    (kept : Kept disk) :
    Ensures Fate.Any (undoFile sha256 own manifest name) disk (fun _ => Kept) (fun _ => Kept) Kept := by
  unfold undoFile
  split
  · exact Ensures.fail kept
  rename_i entry found
  have member : name ∈ names := by
    have same : entry.name = name := by simpa using List.find?_some found
    exact same ▸ planned entry (List.mem_of_find?_eq_some found)
  have put (file : Option File) : Kept (disk.setFile name file) := closed.replaced disk file name member kept
  refine Ensures.bind (fun _ reached => disk = reached)
    (readStackFileState_ensures any_ok (fun _ _ _ _ => rfl) kept) ?_
  rintro _ _ rfl
  refine Ensures.bind (fun _ reached => disk = reached) (refuseIf_ensures (fun _ => rfl) fun _ => kept) ?_
  rintro _ _ rfl
  split
  · exact perform_ensures any_ok (put _) kept fun _ => put _
  · refine Ensures.bind (fun _ reached => disk = reached) (ask_ensures any_ok (fun _ _ => rfl) kept) ?_
    rintro _ _ rfl
    exact perform_ensures any_ok (put _) kept fun _ => put _

theorem compensate_keeps {manifest : JournalManifest Hash Config} {parts : List Part} {error : WriteError}
    {progress : WriteProgress} {returned : Unit → Disk Hash Config → Prop}
    (closed : Disk.Closed own names metadata Kept) (planned : ∀ file ∈ manifest.files, file.name ∈ names)
    (kept : Kept disk) :
    Ensures Fate.Any (compensate sha256 own manifest { metadata, parts } error progress) disk returned
      (fun _ => Kept) Kept := by
  refine Ensures.bind (fun _ => Kept) (revertOptions_keeps any_ok closed kept) ?_
  intro _ disk kept
  refine Ensures.bind (fun _ => Kept) ?_ ?_
  · refine Ensures.bind (fun _ => Kept) ?_ ?_
    · refine Ensures.orElse (fun _ => Kept) (Ensures.forEach (fun _ => Kept) kept ?_)
        fun _ _ kept => Ensures.fail kept
      intro _ name _ disk _ kept
      exact undoFile_keeps closed planned kept
    · intro _ disk kept
      exact removeJournal_keeps closed kept
  intro _ disk kept
  exact Ensures.fail kept

end

theorem openJournal_keeps {allowed : Fate → Prop} (undisturbed : allowed .ok) {pending : List (PendingWrite Hash)} {Start : Disk Hash Config → Prop}
    (entered : Disk.Entered disk.nextId pending metadata Kept) (start : Start disk)
    (opened : Kept { disk.setJournal disk.nextId (some {}) with nextId := disk.nextId + 1 })
    (settled : ∀ reached, Kept reached → Start reached) :
    Ensures allowed (openJournal pending metadata) disk
      (fun found reached => found = (disk.nextId, journalManifest pending metadata) ∧ Kept reached)
      (fun _ => Start) Start := by
  unfold openJournal
  refine Ensures.bind (fun value reached => disk = value ∧ disk = reached) (Ensures.look ⟨rfl, rfl⟩) ?_
  rintro _ _ ⟨rfl, rfl⟩
  refine Ensures.bind (fun _ => Kept) (perform_ensures undisturbed opened start fun _ => settled _ opened) ?_
  intro _ reached kept
  refine Ensures.bind (fun _ => Kept) (ask_ensures undisturbed (fun _ _ => kept) (settled _ kept)) ?_
  intro _ reached kept
  have entries : Ensures allowed (Program.forEach pending (journalVersions disk.nextId)) reached
      (fun _ => Kept) (fun _ => Kept) Kept := by
    refine Ensures.forEach (fun _ => Kept) kept ?_
    intro _ write _ reached same kept
    have member : write ∈ pending := by simp [same]
    refine Ensures.bind (fun _ => Kept) ?_ ?_
    · unfold journalBefore
      split
      · rename_i bytes held
        have taken := entered.before reached write member bytes held kept
        exact perform_ensures undisturbed taken kept fun _ => taken
      · exact Ensures.pure kept
    · intro _ reached kept
      have taken := entered.after reached write member kept
      exact perform_ensures undisturbed taken kept fun _ => taken
  refine Ensures.bind (fun _ => Kept) (entries.mono (fun _ _ => id) (fun _ => settled) settled) ?_
  intro _ reached kept
  have taken := entered.manifest reached kept
  refine Ensures.bind (fun _ => Kept)
    (perform_ensures undisturbed taken (settled _ kept) fun _ => settled _ taken) ?_
  intro _ reached kept
  exact Ensures.pure ⟨rfl, kept⟩

/-- What holds of the disk a write finds, and of the disk with a journal for it, still holds when the
write lets the lock go. -/
theorem writeLocked_keeps [DecidableEq Hash] {targets : List (StackFileTarget Hash)} {parts : List Part}
    {Start : Disk Hash Config → Prop}
    (closed : Disk.Closed disk.nextId (targets.map (·.name)) metadata Kept)
    (entered : ∀ pending, Planned sha256 disk targets pending →
      Disk.Entered disk.nextId pending metadata Kept) (start : Start disk)
    (opened : Kept { disk.setJournal disk.nextId (some {}) with nextId := disk.nextId + 1 })
    (settled : ∀ reached, Kept reached → Start reached)
    (stored : ∀ belongs, metadata = some belongs → ∀ all wiped value, disk.ReadAs all wiped →
      Start { disk with selections := Function.update all belongs.stack value, wiped })
    (unread : metadata.isSome → Start { disk with wiped := true }) :
    Ensures Fate.Any (writeLocked sha256 targets { metadata, parts }) disk (fun _ => Start) (fun _ => Start)
      Start := by
  unfold writeLocked
  refine Ensures.bind _ (planWrite_ensures any_ok targets start) ?_
  rintro ⟨hashes, pending⟩ _ ⟨rfl, plan, _⟩
  have asked : ∀ write ∈ pending, write.target.name ∈ targets.map (·.name) := fun write member =>
    List.mem_map_of_mem (plan.sub.subset (List.mem_map_of_mem member))
  have planned : ∀ file ∈ (journalManifest pending metadata).files, file.name ∈ targets.map (·.name) := by
    intro file member
    obtain ⟨write, present, rfl⟩ := List.mem_map.mp member
    exact asked write present
  dsimp only
  split
  · refine Ensures.bind (fun _ => Start) (applyOptions_keeps start stored unread) ?_
    intro _ reached kept
    exact Ensures.pure kept
  · refine Ensures.bind _ (openJournal_keeps any_ok (entered pending plan) start opened settled) ?_
    rintro ⟨_, _⟩ reached ⟨⟨⟩, kept⟩
    refine Ensures.bind (fun _ => Kept) ?_ ?_
    · have committed := commitWrite_keeps sha256 closed asked kept
      refine Ensures.orElse (fun _ => Kept) (committed.mono (fun _ _ => id) (fun _ _ => id) settled) ?_
      intro failed reached kept
      exact (compensate_keeps closed planned kept).mono (fun _ _ => id) (fun _ => settled) settled
    intro _ reached kept
    exact Ensures.pure (settled reached kept)

/-! ### The frame of a write -/

/-- The disk a write leaves, but for its own files, its journal and its selection. -/
structure Save.Framed (save : Save Hash Config) (disk : Disk Hash Config) : Prop where
  selections : save.metadata = none → disk.selections = save.start.selections
  beside : disk.wiped = false → ∀ stack, (∀ metadata, save.metadata = some metadata → stack ≠ metadata.stack) →
    disk.selections stack = save.start.selections stack
  journals : ∀ id, id ≠ save.own → disk.journals id = save.start.journals id
  marked : ∀ id ∈ disk.marked, id ∈ save.start.marked ∨ id = save.own
  files : ∀ name, name ∉ save.targets.map (·.name) → disk.files name = save.start.files name
  named : disk.nextId = save.own ∧ disk.journals = save.start.journals ∧ disk.marked = save.start.marked ∨
    disk.nextId = save.own + 1

/-- A change of the selection of this stack leaves those of the others. -/
theorem beside_updated {save : Save Hash Config} {belongs : StackWriteMetadata Config} {wiped : Bool}
    {all : String → Option Config} {value : Option Config} (same : save.metadata = some belongs)
    (reads : disk.ReadAs all wiped)
    (beside : disk.wiped = false → ∀ stack, (∀ metadata, save.metadata = some metadata → stack ≠ metadata.stack) →
      disk.selections stack = save.start.selections stack) :
    wiped = false → ∀ stack, (∀ metadata, save.metadata = some metadata → stack ≠ metadata.stack) →
      Function.update all belongs.stack value stack = save.start.selections stack := by
  intro read stack other
  rw [Function.update_of_ne (other belongs same)]
  rcases reads with ⟨rfl, rfl⟩ | rfl
  · exact beside read stack other
  · cases read

theorem writeLocked_framed [DecidableEq Hash] (sha256 : Bytes → Hash) {save : Save Hash Config} (parts : List Part) :
    Ensures Fate.Any (writeLocked sha256 save.targets { metadata := save.metadata, parts }) save.start
      (fun _ => save.Framed) (fun _ => save.Framed) save.Framed := by
  let Opened (disk : Disk Hash Config) : Prop := save.Framed disk ∧ disk.nextId = save.own + 1
  have changed (change : Journal Hash Config → Journal Hash Config) (disk : Disk Hash Config)
      (opened : Opened disk) : Opened (disk.onJournal save.own change) := by
    obtain ⟨framed, named⟩ := opened
    refine ⟨{ framed with journals := ?_, named := .inr named }, named⟩
    intro id different
    rw [onJournal_other change different]
    exact framed.journals id different
  have closed : Disk.Closed save.own (save.targets.map (·.name)) save.metadata Opened := by
    constructor
    · exact changed _
    · exact fun disk part => changed _ disk
    · intro disk opened
      obtain ⟨framed, named⟩ := opened
      refine ⟨{ framed with journals := ?_, named := .inr named }, named⟩
      intro id different
      simpa [Disk.setJournal, Function.update_of_ne different] using framed.journals id different
    · intro disk opened
      obtain ⟨framed, named⟩ := opened
      refine ⟨{ framed with marked := ?_, named := .inr named }, named⟩
      intro id member
      rcases List.mem_cons.mp member with same | earlier
      · exact .inr same
      · exact framed.marked id earlier
    · intro disk file name member opened
      obtain ⟨framed, named⟩ := opened
      refine ⟨{ framed with files := ?_ }, named⟩
      intro other absent
      have different : other ≠ name := fun same => absent (same ▸ member)
      simpa [Disk.setFile, Function.update_of_ne different] using framed.files other absent
    · intro belongs same disk all wiped value reads opened
      obtain ⟨framed, named⟩ := opened
      refine ⟨{ framed with selections := ?_, beside := beside_updated same reads framed.beside }, named⟩
      intro absent
      simp [absent] at same
    · intro _ disk opened
      exact ⟨{ opened.1 with }, opened.2⟩
    · intro _ disk opened
      exact ⟨{ opened.1 with beside := fun read => by cases read }, opened.2⟩
  have start : save.Framed save.start :=
    ⟨fun _ => rfl, fun _ _ _ => rfl, fun _ _ => rfl, fun _ => .inl, fun _ _ => rfl, .inl ⟨rfl, rfl, rfl⟩⟩
  have entered (pending : List (PendingWrite Hash)) :
      Disk.Entered save.own pending save.metadata Opened :=
    ⟨fun disk _ _ _ _ => changed _ disk, fun disk _ _ => changed _ disk, changed _⟩
  refine writeLocked_keeps closed (fun pending _ => entered pending) start ⟨?_, rfl⟩ (fun _ opened => opened.1) ?_ ?_
  · refine { start with journals := ?_, named := .inr rfl }
    intro id different
    have different : id ≠ save.start.nextId := different
    simp [Disk.setJournal, Function.update_of_ne different]
  · intro belongs same all wiped value reads
    refine { start with selections := ?_, beside := beside_updated same reads start.beside }
    intro absent
    simp [absent] at same
  · intro _
    exact { start with beside := fun read => by cases read }

end

end Dockge.StackWrite
