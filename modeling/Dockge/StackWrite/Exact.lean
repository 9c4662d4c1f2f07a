import Dockge.StackWrite.Answered

namespace Dockge.StackWrite

open Dockge.Data

/-! A failed write is undone exactly where the bytes it found survive being read as text. -/

variable {Hash Config : Type}

/-- The call gets as far as the files: its names and sizes pass, and every file holds what the caller
expects. -/
structure Save.Accepted (sha256 : Bytes → Hash) (save : Save Hash Config) : Prop where
  safe : ∀ target ∈ save.targets, isSafeStackFileName target.name = true
  small : ∀ target ∈ save.targets, target.bytes.length ≤ maxFileBytes
  distinct : (save.targets.map (·.name)).Nodup
  found : ∀ target ∈ save.targets, ∀ bytes, save.start.bytes target.name = some bytes →
    bytes.length ≤ maxFileBytes
  expected : Expected sha256 save.targets save.start

/-- Every old version survives being read as text and written again. -/
def Save.Survives (save : Save Hash Config) : Prop :=
  ∀ target ∈ save.targets, ∀ bytes, save.start.bytes target.name = some bytes → transcode bytes = bytes

section
variable [DecidableEq Hash] (sha256 : Bytes → Hash)

/-- A call up to its commit. -/
def prepareWrite (targets : List (StackFileTarget Hash)) (metadata : Option (StackWriteMetadata Config)) :
    DiskTask Hash Config (List (PendingWrite Hash) × Nat × JournalManifest Hash Config) := do
  Program.forEach targets validateTarget
  refuseIf (if (targets.map (·.name)).Nodup then none else some .duplicate)
  let (_, pending) ← planWrite sha256 targets
  let opened ← openJournal pending metadata
  pure (pending, opened)

/-- The commit of the call failed, and `undoWrite` succeeded after it. -/
inductive Save.Undid (save : Save Hash Config) (parts : List Part) (fates : List Fate)
    (final : Disk Hash Config) : Prop where
  | intro {pending : List (PendingWrite Hash)} {journal : Nat} {manifest : JournalManifest Hash Config}
      {opened failed reverted : Disk Hash Config} {error : WriteError} {progress : WriteProgress}
      {commitFates revertFates undoFates rest : List Fate}
      (prepared : prepareWrite sha256 save.targets save.metadata fates save.start =
        ⟨.done (pending, journal, manifest), opened, commitFates⟩)
      (changing : pending ≠ [])
      (committed : commitWrite sha256 pending journal save.metadata commitFates opened =
        ⟨.threw (error, progress), failed, revertFates⟩)
      (selection : revertOptions journal save.metadata error progress revertFates failed =
        ⟨.done (), reverted, undoFates⟩)
      (undone : undoWrite sha256 journal manifest progress.written parts error undoFates reverted =
        ⟨.done (), final, rest⟩)

/-- The call throws the error of its commit, and leaves what the undoing left. -/
theorem Save.Undid.threw {save : Save Hash Config} {parts : List Part} {fates : List Fate}
    {final : Disk Hash Config} (undid : save.Undid sha256 parts fates final) :
    ∃ error rest, writeStackFiles sha256 save.targets { metadata := save.metadata, parts } fates save.start =
      ⟨.threw error, final, rest⟩ := by
  obtain ⟨prepared, changing, committed, selection, undone⟩ := undid
  rename_i pending journal manifest opened failed reverted error progress commitFates revertFates undoFates rest
  obtain ⟨_, _, _, validated, prepared⟩ := Program.bind_done prepared
  obtain ⟨_, _, _, distinct, prepared⟩ := Program.bind_done prepared
  obtain ⟨⟨hashes, planned⟩, _, _, plan, prepared⟩ := Program.bind_done prepared
  obtain ⟨_, _, _, journaled, prepared⟩ := Program.bind_done prepared
  cases prepared
  refine ⟨error, rest, ?_⟩
  unfold writeStackFiles
  rw [Program.bind_run validated, Program.bind_run distinct, Program.bind_run plan]
  have some_change : pending.isEmpty = false := by simpa using changing
  simp only [some_change, Bool.false_eq_true, if_false]
  rw [Program.bind_run journaled]
  refine Program.bind_threw ?_
  rw [Program.orElse_threw committed]
  unfold compensate
  rw [Program.bind_run selection, Program.bind_run undone]
  rfl

end

/-! ### What a journal says of the files -/

/-- A manifest names files of the write, with the hashes they had. -/
abbrev Save.Records (sha256 : Bytes → Hash) (save : Save Hash Config) (file : JournalFile Hash) : Prop :=
  file.name ∈ save.targets.map (·.name) ∧ file.beforeHash = save.start.hashOf sha256 file.name

/-- The journal tells what the files held before the write, as far as it tells anything. -/
structure Save.Faithful (sha256 : Bytes → Hash) (save : Save Hash Config) (journal : Journal Hash Config) :
    Prop where
  planned : ∀ manifest, journal.manifest = some manifest → ∀ file ∈ manifest.files, save.Records sha256 file
  before : ∀ name bytes, journal.before name = some bytes → save.start.bytes name = some bytes

def Save.Owned (sha256 : Bytes → Hash) (save : Save Hash Config) (disk : Disk Hash Config) : Prop :=
  ∀ journal, disk.journals save.own = some journal → save.Faithful sha256 journal

section
variable {sha256 : Bytes → Hash} {save : Save Hash Config} {disk : Disk Hash Config}

theorem Save.Faithful.drop {journal : Journal Hash Config} (faithful : save.Faithful sha256 journal) (part : Part) :
    save.Faithful sha256 (journal.drop part) where
  planned := fun manifest held => faithful.planned manifest (drop_manifest held)
  before := by
    intro name bytes held
    cases part with
    | before dropped =>
        by_cases same : name = dropped
        · simp [Journal.drop, same] at held
        · exact faithful.before name bytes (by simpa [Journal.drop, Function.update_of_ne same] using held)
    | manifest => exact faithful.before name bytes held
    | committed => exact faithful.before name bytes held
    | after _ => exact faithful.before name bytes held

theorem Save.Owned.onOwn {change : Journal Hash Config → Journal Hash Config} (owned : save.Owned sha256 disk)
    (kept : ∀ journal, save.Faithful sha256 journal → save.Faithful sha256 (change journal)) :
    save.Owned sha256 (disk.onJournal save.own change) := by
  intro found held
  rw [onJournal_own, Option.map_eq_some_iff] at held
  obtain ⟨journal, same, rfl⟩ := held
  exact kept journal (owned journal same)

theorem Save.Owned.closed {names : List String} {metadata : Option (StackWriteMetadata Config)} :
    Disk.Closed save.own names metadata (save.Owned sha256) where
  committed := fun _ owned => owned.onOwn fun _ faithful => { faithful with }
  dropped := fun _ part owned => owned.onOwn fun _ faithful => faithful.drop part
  removed := fun _ _ => by simp [Save.Owned, Disk.setJournal]
  marked := fun _ owned => owned
  replaced := fun _ _ _ _ owned => owned
  selected := fun _ _ _ _ _ _ _ owned => owned
  misread := fun _ _ owned => owned
  wiped := fun _ _ owned => owned

theorem Planned.records {pending : List (PendingWrite Hash)}
    (planned : Planned sha256 save.start save.targets pending) :
    ∀ file ∈ (journalManifest pending save.metadata).files, save.Records sha256 file := by
  intro file member
  obtain ⟨write, present, rfl⟩ := List.mem_map.mp member
  have asked : write.target ∈ save.targets := planned.sub.subset (List.mem_map_of_mem present)
  exact ⟨List.mem_map_of_mem asked, (planned.each write present).1⟩

theorem Save.Owned.entered {pending : List (PendingWrite Hash)}
    (planned : Planned sha256 save.start save.targets pending) :
    Disk.Entered save.own pending save.metadata (save.Owned sha256) where
  before := by
    intro disk write member bytes held owned
    refine owned.onOwn ?_
    intro journal faithful
    refine { faithful with before := ?_ }
    intro name found same
    by_cases ours : name = write.target.name
    · rw [ours] at same ⊢
      rw [← (planned.each write member).2.1, held]
      simpa using same
    · exact faithful.before name found (by simpa [Function.update_of_ne ours] using same)
  after := fun _ _ _ owned => owned.onOwn fun _ faithful => { faithful with }
  manifest := by
    intro disk owned
    refine owned.onOwn ?_
    intro journal faithful
    refine { faithful with planned := ?_ }
    intro manifest same
    exact Option.some.inj same ▸ planned.records

/-- A removal, of whichever journal. -/
theorem Save.Owned.removeJournal {parts : List Part} {id : Nat} (owned : save.Owned sha256 disk) :
    Ensures Fate.Any (removeJournal parts id) disk (fun _ => save.Owned sha256) (fun _ => save.Owned sha256)
      (save.Owned sha256) := by
  refine (removeJournal_ensures any_ok owned ?_ ?_).mono (fun _ _ both => both.1) (fun _ _ owned => owned)
    fun _ owned => owned
  · intro disk part owned journal held
    by_cases same : id = save.own
    · subst same
      exact owned.onOwn (fun _ faithful => faithful.drop part) journal held
    · exact owned journal (by rwa [onJournal_other _ (Ne.symm same)] at held)
  · intro disk owned journal held
    by_cases same : save.own = id
    · simp [Disk.setJournal, same] at held
    · exact owned journal (by simpa [Disk.setJournal, Function.update_of_ne same] using held)

theorem validateTargets_accept {allowed : Fate → Prop} {targets : List (StackFileTarget Hash)}
    {Kept : Disk Hash Config → Prop} (kept : ∀ reached, disk = reached → Kept reached) :
    Ensures allowed (Program.forEach targets validateTarget) disk
      (fun _ reached => disk = reached ∧ ∀ target ∈ targets,
        isSafeStackFileName target.name = true ∧ target.bytes.length ≤ maxFileBytes)
      (fun _ => Kept) Kept := by
  refine Ensures.forEach (fun (done : List (StackFileTarget Hash)) reached => disk = reached ∧
    ∀ target ∈ done, isSafeStackFileName target.name = true ∧ target.bytes.length ≤ maxFileBytes)
    ⟨rfl, by simp⟩ ?_
  rintro before target after _ _ ⟨rfl, valid⟩
  refine Ensures.bind (fun _ reached => disk = reached ∧ isSafeStackFileName target.name = true)
    (refuseIf_ensures (fun passed => ⟨rfl, by simpa using passed⟩) fun _ => kept _ rfl) ?_
  rintro _ _ ⟨rfl, safe⟩
  refine refuseIf_ensures (fun passed => ⟨rfl, ?_⟩) fun _ => kept _ rfl
  intro other member
  rcases List.mem_append.mp member with earlier | last
  · exact valid other earlier
  · rw [List.mem_singleton.mp last]
    exact ⟨safe, by simpa [StackFileTarget.bytes] using passed⟩

/-- A call that is not accepted leaves no journal. -/
theorem writeStackFiles_unaccepted [DecidableEq Hash] (parts : List Part)
    (fresh : save.start.journals save.own = none) (unaccepted : ¬ save.Accepted sha256) :
    Ensures Fate.Any (writeStackFiles sha256 save.targets { metadata := save.metadata, parts }) save.start
      (fun _ reached => reached.journals save.own = none) (fun _ reached => reached.journals save.own = none)
      fun reached => reached.journals save.own = none := by
  unfold writeStackFiles
  refine Ensures.bind _ (validateTargets_accept ?_) ?_
  · rintro _ rfl
    exact fresh
  rintro _ _ ⟨rfl, valid⟩
  refine Ensures.bind (fun _ reached => save.start = reached ∧ (save.targets.map (·.name)).Nodup)
    (refuseIf_ensures (fun passed => ⟨rfl, by simpa using passed⟩) fun _ => fresh) ?_
  rintro _ _ ⟨rfl, distinct⟩
  refine Ensures.bind _ (planWrite_ensures any_ok save.targets fresh) ?_
  rintro ⟨hashes, pending⟩ _ ⟨rfl, planned, _⟩
  exact absurd ⟨fun target member => (valid target member).1, fun target member => (valid target member).2,
    distinct, planned.sized, planned.expected⟩ unaccepted

/-- Whatever happens to a call, its journal tells what the files held before it. -/
theorem writeStackFiles_owned [DecidableEq Hash] (parts : List Part) (fresh : save.start.journals save.own = none) :
    Ensures Fate.Any (writeStackFiles sha256 save.targets { metadata := save.metadata, parts }) save.start
      (fun _ => save.Owned sha256) (fun _ => save.Owned sha256) (save.Owned sha256) := by
  have start : save.Owned sha256 save.start := by simp [Save.Owned, fresh]
  rw [writeStackFiles_eq]
  refine Ensures.bind _ (validateTargets_accept ?_) ?_
  · rintro _ rfl
    exact start
  rintro _ _ ⟨rfl, _⟩
  refine Ensures.bind (fun _ reached => save.start = reached) (refuseIf_ensures (fun _ => rfl) fun _ => start) ?_
  rintro _ _ rfl
  have opened : save.Owned sha256
      { save.start.setJournal save.own (some {}) with nextId := save.start.nextId + 1 } := by
    intro journal held
    obtain rfl : ({} : Journal Hash Config) = journal := by simpa [Disk.setJournal] using held
    exact ⟨by simp, by simp⟩
  refine Ensures.bind (fun _ => save.Owned sha256) (writeLocked_keeps Save.Owned.closed
    (fun _ planned => Save.Owned.entered planned) start opened (fun _ owned => owned)
    (fun _ _ _ _ _ _ => start) fun _ => start) ?_
  intro written disk owned
  refine Ensures.bind (fun _ => save.Owned sha256) ?_ fun _ _ owned => Ensures.pure owned
  unfold removeOpened
  split
  · exact owned.removeJournal
  · exact Ensures.pure owned

/-! ### Recovery -/

section
variable [DecidableEq Hash] {found : Disk Hash Config}

/-- Each file is as it was found, or as it was before the write. -/
def Save.Rolls (save : Save Hash Config) (found disk : Disk Hash Config) : Prop :=
  ∀ name, disk.bytes name = found.bytes name ∨ disk.bytes name = save.start.bytes name

omit [DecidableEq Hash] in
theorem Save.Rolls.setFile {name : String} {file : Option File} (rolls : save.Rolls found disk)
    (old : file.map (·.bytes) = save.start.bytes name) : save.Rolls found (disk.setFile name file) := by
  intro other
  by_cases same : other = name
  · subst same
    exact .inr (by simpa [Disk.bytes, Disk.setFile] using old)
  · simpa [Disk.bytes, Disk.setFile, Function.update_of_ne same] using rolls other

/-- What recovery has seen of the disk, and the files it left in order. -/
structure Save.PutBack (sha256 : Bytes → Hash) (save : Save Hash Config) (found : Disk Hash Config)
    (names : List String) (disk : Disk Hash Config) : Prop where
  rolls : save.Rolls found disk
  owned : save.Owned sha256 disk
  back : ∀ name ∈ names, disk.bytes name = save.start.bytes name

omit [DecidableEq Hash] in
theorem Save.PutBack.put {names : List String} {name : String} {file : Option File}
    (recovered : save.PutBack sha256 found names disk) (old : file.map (·.bytes) = save.start.bytes name) :
    save.PutBack sha256 found (names ++ [name]) (disk.setFile name file) where
  rolls := recovered.rolls.setFile old
  owned := recovered.owned
  back := by
    intro other member
    by_cases same : other = name
    · subst same
      simpa [Disk.bytes, Disk.setFile] using old
    · have earlier : other ∈ names := by simpa [same] using member
      simpa [Disk.bytes, Disk.setFile, Function.update_of_ne same] using recovered.back other earlier

omit [DecidableEq Hash] in
theorem Save.PutBack.less {names : List String} {name : String}
    (recovered : save.PutBack sha256 found (names ++ [name]) disk) : save.PutBack sha256 found names disk :=
  { recovered with back := fun other member => recovered.back other (List.mem_append_left _ member) }

omit [DecidableEq Hash] in
/-- Put a file back; where that fails late it is back as well. -/
theorem Save.PutBack.perform {names : List String} {name : String} {file : Option File}
    (recovered : save.PutBack sha256 found names disk) (old : file.map (·.bytes) = save.start.bytes name) :
    Ensures Fate.Any (perform fun disk => disk.setFile name file) disk
      (fun _ => save.PutBack sha256 found (names ++ [name])) (fun _ => save.PutBack sha256 found names)
      (save.Rolls found) := by
  have next := recovered.put old
  refine Ensures.operation any_ok ?_
  intro fate _
  cases fate with
  | ok => exact next
  | fail => exact recovered
  | late => exact next.less
  | kill => exact recovered.rolls

omit [DecidableEq Hash] in
/-- The old version that a journal still has is what the file held. -/
theorem Save.Owned.readText {allowed : Fate → Prop} (undisturbed : allowed .ok) (name : String)
    (owned : save.Owned sha256 disk) :
    Ensures allowed (readText save.own fun journal => journal.before name) disk
      (fun text reached => disk = reached ∧ ∃ bytes, save.start.bytes name = some bytes ∧ text = decodeUtf8 bytes)
      (fun _ reached => disk = reached) fun reached => disk = reached := by
  refine ask_ensures undisturbed ?_ rfl
  intro text answered
  refine ⟨rfl, ?_⟩
  split at answered
  · cases answered
  · rename_i bytes held
    obtain ⟨journal, present, kept⟩ := Option.bind_eq_some_iff.mp held
    cases answered
    exact ⟨bytes, (owned journal present).before _ _ kept, rfl⟩

theorem restoreJournalFile_exact {names : List String} {file : JournalFile Hash}
    (injective : Function.Injective sha256) (survives : save.Survives)
    (planned : save.Records sha256 file)
    (recovered : save.PutBack sha256 found names disk) :
    Ensures Fate.Any (restoreJournalFile sha256 save.own false file) disk
      (fun unresolved reached => save.PutBack sha256 found names reached ∧
        (unresolved = false → save.PutBack sha256 found (names ++ [file.name]) reached))
      (fun _ => save.Rolls found) (save.Rolls found) := by
  obtain ⟨asked, before⟩ := planned
  unfold restoreJournalFile
  have read : Ensures Fate.Any (readStackFileState sha256 file.name) disk
      (fun state reached => disk = reached ∧ state.hash = disk.hashOf sha256 file.name)
      (fun _ reached => disk = reached) fun reached => disk = reached :=
    readStackFileState_ensures any_ok (fun _ hash _ _ => ⟨rfl, hash⟩) rfl
  refine Ensures.bind (fun tried reached => disk = reached ∧ ∀ state, tried = .ok state →
    state.hash = disk.hashOf sha256 file.name) (Ensures.attempt (read.mono ?_ ?_ ?_)) ?_
  · rintro state _ ⟨rfl, hash⟩
    refine ⟨rfl, ?_⟩
    rintro _ ⟨⟩
    exact hash
  · exact fun _ _ same => ⟨same, fun _ held => by cases held⟩
  · rintro _ rfl
    exact recovered.rolls
  rintro tried _ ⟨rfl, hash⟩
  cases tried with
  | error _ => exact Ensures.pure ⟨recovered, by simp⟩
  | ok current =>
      have hash := hash current rfl
      dsimp only
      split
      · rename_i wanted
        have same : disk.bytes file.name = save.start.bytes file.name := by
          have hashes : disk.hashOf sha256 file.name = save.start.hashOf sha256 file.name :=
            hash.symm.trans (wanted.trans before)
          exact Option.map_injective injective hashes
        refine Ensures.pure ⟨recovered, fun _ => { recovered with back := ?_ }⟩
        intro name member
        rcases List.mem_append.mp member with earlier | last
        · exact recovered.back name earlier
        · rw [List.mem_singleton.mp last]
          exact same
      split
      · exact Ensures.pure ⟨recovered, by simp⟩
      refine Ensures.bind (fun tried reached => save.PutBack sha256 found names reached ∧
        (tried.isOk = true → save.PutBack sha256 found (names ++ [file.name]) reached)) (Ensures.attempt ?_) ?_
      · refine Ensures.mono (?_ : Ensures Fate.Any _ disk
            (fun _ => save.PutBack sha256 found (names ++ [file.name]))
            (fun _ => save.PutBack sha256 found names) (save.Rolls found))
          (fun _ _ next => ⟨next.less, fun _ => next⟩) (fun _ _ kept => ⟨kept, fun held => by cases held⟩)
          fun _ rolls => rolls
        split
        · rename_i absent
          have gone : save.start.bytes file.name = none := by
            have without : file.beforeHash = none := absent
            simpa [Disk.hashOf, without] using before.symm
          exact recovered.perform gone.symm
        · have text := Save.Owned.readText any_ok file.name recovered.owned
          refine Ensures.bind _ (text.mono (fun _ _ read => read) (fun _ _ same => same ▸ recovered)
            fun _ same => same ▸ recovered.rolls) ?_
          rintro _ _ ⟨rfl, bytes, held, rfl⟩
          obtain ⟨target, member, same⟩ := List.mem_map.mp asked
          refine recovered.perform ?_
          rw [held]
          exact congrArg some (survives target member bytes (by rw [same, held]))
      · rintro tried disk ⟨recovered, back⟩
        cases tried with
        | ok _ => exact Ensures.pure ⟨recovered, fun _ => back rfl⟩
        | error _ => exact Ensures.pure ⟨recovered, by simp⟩

theorem restoreJournalFiles_exact {names : List String} {files : List (JournalFile Hash)}
    (injective : Function.Injective sha256) (survives : save.Survives)
    (planned : ∀ file ∈ files, save.Records sha256 file)
    (recovered : save.PutBack sha256 found names disk) :
    Ensures Fate.Any (restoreJournalFiles sha256 save.own false files) disk
      (fun unresolved reached => save.Rolls found reached ∧
        (unresolved = false → save.PutBack sha256 found (names ++ files.map (·.name)) reached))
      (fun _ => save.Rolls found) (save.Rolls found) := by
  induction files generalizing names disk with
  | nil => exact Ensures.pure ⟨recovered.rolls, fun _ => by simpa using recovered⟩
  | cons file rest ih =>
      have later := fun other member => planned other (List.mem_cons_of_mem file member)
      refine Ensures.bind _ (restoreJournalFile_exact injective survives
        (planned file List.mem_cons_self) recovered) ?_
      intro unresolved disk visited
      obtain ⟨recovered, back⟩ := visited
      cases unresolved with
      | true =>
          refine Ensures.bind _ (ih later recovered) ?_
          intro others disk seen
          exact Ensures.pure ⟨seen.1, fun held => by cases held⟩
      | false =>
          refine Ensures.bind _ (ih later (back rfl)) ?_
          intro others disk seen
          exact Ensures.pure ⟨seen.1, fun held => by simpa using seen.2 held⟩

end

/-! ### The call undoes itself -/

/-- Only these files changed. -/
structure Save.Changed (sha256 : Bytes → Hash) (save : Save Hash Config) (written : List String)
    (disk : Disk Hash Config) : Prop where
  kept : ∀ name, name ∉ written → disk.bytes name = save.start.bytes name
  owned : save.Owned sha256 disk

section
variable [DecidableEq Hash] {written : List String}

omit [DecidableEq Hash] in
theorem Save.Changed.closed {metadata : Option (StackWriteMetadata Config)} :
    Disk.Closed save.own [] metadata (save.Changed sha256 written) := by
  have owned : Disk.Closed save.own [] metadata (save.Owned sha256) := Save.Owned.closed
  constructor
  · exact fun disk changed => ⟨changed.kept, owned.committed disk changed.owned⟩
  · exact fun disk part changed => ⟨changed.kept, owned.dropped disk part changed.owned⟩
  · exact fun disk changed => ⟨changed.kept, owned.removed disk changed.owned⟩
  · exact fun _ changed => ⟨changed.kept, changed.owned⟩
  · exact fun _ _ _ member => absurd member List.not_mem_nil
  · exact fun _ _ _ _ _ _ _ changed => ⟨changed.kept, changed.owned⟩
  · exact fun _ _ changed => ⟨changed.kept, changed.owned⟩
  · exact fun _ _ changed => ⟨changed.kept, changed.owned⟩

omit [DecidableEq Hash] in
theorem Save.Changed.setFile {name : String} {file : Option File} {next : List String}
    (changed : save.Changed sha256 written disk) (more : ∀ other, other ≠ name → other ∈ written → other ∈ next)
    (old : name ∉ next → file.map (·.bytes) = save.start.bytes name) :
    save.Changed sha256 next (disk.setFile name file) where
  kept := by
    intro other absent
    by_cases same : other = name
    · subst same
      simpa [Disk.bytes, Disk.setFile] using old absent
    · have kept := changed.kept other fun present => absent (more other same present)
      simpa [Disk.bytes, Disk.setFile, Function.update_of_ne same] using kept
  owned := changed.owned

theorem prepareWrite_ensures {allowed : Fate → Prop} (undisturbed : allowed .ok) :
    Ensures allowed (prepareWrite sha256 save.targets save.metadata) save.start
      (fun prepared disk => Planned sha256 save.start save.targets prepared.1 ∧ prepared.2.1 = save.own ∧
        prepared.2.2 = journalManifest prepared.1 save.metadata ∧ disk.files = save.start.files ∧
        save.Owned sha256 disk ∧ save.Accepted sha256) (fun _ _ => True) fun _ => True := by
  unfold prepareWrite
  refine Ensures.bind _ (validateTargets_accept fun _ _ => trivial) ?_
  rintro _ _ ⟨rfl, valid⟩
  refine Ensures.bind (fun _ reached => save.start = reached ∧ (save.targets.map (·.name)).Nodup)
    (refuseIf_ensures (fun passed => ⟨rfl, by simpa using passed⟩) fun _ => trivial) ?_
  rintro _ _ ⟨rfl, distinct⟩
  have plans := @planWrite_ensures _ _ allowed save.start sha256 (fun _ => True) _ undisturbed save.targets trivial
  refine Ensures.bind _ plans ?_
  rintro ⟨hashes, pending⟩ _ ⟨rfl, planned, _⟩
  have accepted : save.Accepted sha256 :=
    ⟨fun target member => (valid target member).1, fun target member => (valid target member).2, distinct,
      planned.sized, planned.expected⟩
  let Kept (disk : Disk Hash Config) : Prop := disk.files = save.start.files ∧ save.Owned sha256 disk
  have owned := Save.Owned.entered planned
  have entered : Disk.Entered save.own pending save.metadata Kept :=
    ⟨fun disk write member bytes held kept => ⟨kept.1, owned.before disk write member bytes held kept.2⟩,
      fun disk write member kept => ⟨kept.1, owned.after disk write member kept.2⟩,
      fun disk kept => ⟨kept.1, owned.manifest disk kept.2⟩⟩
  have opened : Kept { save.start.setJournal save.own (some {}) with nextId := save.start.nextId + 1 } := by
    refine ⟨rfl, ?_⟩
    intro journal held
    obtain rfl : ({} : Journal Hash Config) = journal := by simpa [Disk.setJournal] using held
    exact ⟨by simp, by simp⟩
  refine Ensures.bind _ (openJournal_keeps undisturbed entered trivial opened fun _ _ => trivial) ?_
  rintro ⟨_, _⟩ disk ⟨⟨⟩, files, owned⟩
  exact Ensures.pure ⟨planned, rfl, rfl, files, owned, accepted⟩

theorem replaceFiles_changes (pending : List (PendingWrite Hash)) (changed : save.Changed sha256 written disk) :
    Ensures Atomic (replaceFiles sha256 pending written) disk
      (fun names => save.Changed sha256 names) (fun failed => save.Changed sha256 failed.2.written) fun _ => True := by
  induction pending generalizing written disk with
  | nil => exact Ensures.pure changed
  | cons write rest ih =>
      obtain ⟨target, state, afterHash⟩ := write
      refine Ensures.bind (fun _ => save.Changed sha256 (written ++ [target.name])) ?_ ?_
      · refine Ensures.orElse (fun _ => save.Changed sha256 written) ?_ fun _ _ kept => Ensures.fail kept
        refine Ensures.bind (fun _ reached => disk = reached)
          (ask_ensures atomic_ok (fun _ _ => rfl) changed).unstopped ?_
        rintro _ _ rfl
        refine Ensures.bind (fun _ reached => disk = reached)
          (readStackFileState_ensures atomic_ok (fun _ _ _ _ => rfl) changed).unstopped ?_
        rintro _ _ rfl
        refine Ensures.bind (fun _ reached => disk = reached) (refuseIf_ensures (fun _ => rfl) fun _ => changed) ?_
        rintro _ _ rfl
        have replaced : save.Changed sha256 (written ++ [target.name])
            (disk.setFile target.name (some ⟨encodeUtf8 target.content.toList, state.mode.getD defaultFileMode⟩)) :=
          changed.setFile (fun _ _ present => List.mem_append_left _ present) fun absent => by simp at absent
        exact (perform_ensures atomic_ok replaced changed fun late => absurd late Atomic.not_late).unstopped
      intro _ disk changed
      refine Ensures.bind (fun _ => save.Changed sha256 (written ++ [target.name])) ?_ fun _ _ changed => ih changed
      refine Ensures.orElse (fun _ => save.Changed sha256 (written ++ [target.name])) ?_
        fun _ _ kept => Ensures.fail kept
      refine Ensures.bind (fun _ => save.Changed sha256 (written ++ [target.name]))
        (readStackFileState_ensures atomic_ok (fun _ _ _ _ => changed) changed).unstopped ?_
      intro _ disk changed
      exact refuseIf_ensures (fun _ => changed) fun _ => changed

theorem commitWrite_changes {pending : List (PendingWrite Hash)} (changed : save.Changed sha256 [] disk) :
    Ensures Atomic (commitWrite sha256 pending save.own save.metadata) disk
      (fun _ _ => True) (fun failed => save.Changed sha256 failed.2.written) fun _ => True := by
  refine Ensures.bind _ (replaceFiles_changes pending changed) ?_
  intro written disk changed
  refine Ensures.bind (fun _ => save.Changed sha256 written) ?_ ?_
  · refine Ensures.orElse (fun _ => save.Changed sha256 written) ?_ fun _ _ kept => Ensures.fail kept
    refine Ensures.bind (fun _ reached => disk = reached)
      (ask_ensures atomic_ok (fun _ _ => rfl) changed).unstopped ?_
    rintro _ _ rfl
    exact (applyOptions_ensures (fun _ => changed) (fun _ _ _ _ => ⟨changed.kept, changed.owned⟩) changed
      ⟨changed.kept, changed.owned⟩).unstopped
  intro _ disk changed
  refine Ensures.orElse (fun _ => save.Changed sha256 written) ?_ fun _ _ kept => Ensures.fail kept
  exact (perform_ensures atomic_ok trivial changed fun late => absurd late Atomic.not_late).unstopped

theorem undoFile_changes {manifest : JournalManifest Hash Config} {name : String} (survives : save.Survives)
    (planned : ∀ file ∈ manifest.files, save.Records sha256 file) (changed : save.Changed sha256 written disk) :
    Ensures Atomic (undoFile sha256 save.own manifest name) disk
      (fun _ => save.Changed sha256 (written.filter (· ≠ name))) (fun _ _ => True) fun _ => True := by
  unfold undoFile
  split
  · exact Ensures.fail trivial
  rename_i entry found
  have named : entry.name = name := by simpa using List.find?_some found
  obtain ⟨asked, before⟩ := planned entry (List.mem_of_find?_eq_some found)
  rw [named] at asked before
  have put {file : Option File} (old : file.map (·.bytes) = save.start.bytes name) :
      Ensures Atomic (perform fun disk => disk.setFile name file) disk
        (fun _ => save.Changed sha256 (written.filter (· ≠ name))) (fun _ _ => True) fun _ => True := by
    refine perform_ensures atomic_ok (changed.setFile ?_ fun _ => old) trivial fun _ => trivial
    intro other different present
    simpa [different] using present
  refine Ensures.bind (fun _ reached => disk = reached)
    (readStackFileState_ensures atomic_ok (fun _ _ _ _ => rfl) trivial) ?_
  rintro _ _ rfl
  refine Ensures.bind (fun _ reached => disk = reached) (refuseIf_ensures (fun _ => rfl) fun _ => trivial) ?_
  rintro _ _ rfl
  split
  · rename_i absent
    have gone : save.start.bytes name = none := by simpa [Disk.hashOf, absent] using before.symm
    exact put gone.symm
  · have text := Save.Owned.readText atomic_ok name changed.owned
    refine Ensures.bind _ (text.mono (fun _ _ read => read) (fun _ _ _ => trivial) fun _ _ => trivial) ?_
    rintro _ _ ⟨rfl, bytes, held, rfl⟩
    obtain ⟨target, member, same⟩ := List.mem_map.mp asked
    refine put ?_
    rw [held]
    exact congrArg some (survives target member bytes (by rw [same, held]))

theorem undoWrite_changes {manifest : JournalManifest Hash Config} {parts : List Part} {cause : WriteError}
    (survives : save.Survives) (planned : ∀ file ∈ manifest.files, save.Records sha256 file)
    (changed : save.Changed sha256 written disk) :
    Ensures Atomic (undoWrite sha256 save.own manifest written parts cause) disk
      (fun _ => save.Changed sha256 []) (fun _ _ => True) fun _ => True := by
  unfold undoWrite
  refine Ensures.bind (fun _ => save.Changed sha256 []) ?_ ?_
  · refine Ensures.orElse (fun _ _ => True) ?_ fun _ _ _ => Ensures.fail trivial
    refine Ensures.mono (Ensures.forEach (fun done : List String =>
      save.Changed sha256 (written.filter (· ∉ done))) (by simpa using changed) ?_) ?_
      (fun _ _ held => held) fun _ held => held
    · intro before name after disk _ changed
      refine (undoFile_changes survives planned changed).mono (fun _ _ next => ?_) (fun _ _ held => held)
        fun _ held => held
      rw [List.filter_filter] at next
      simpa [and_comm, or_comm, not_or] using next
    · intro _ disk all
      have none_left : written.filter (· ∉ written.reverse) = [] := by simp
      rwa [none_left] at all
  · intro _ disk changed
    have closed : Disk.Closed save.own [] none (save.Changed sha256 []) := Save.Changed.closed
    exact (removeJournal_ensures atomic_ok changed closed.dropped closed.removed).mono
      (fun _ _ both => both.1) (fun _ _ _ => trivial) fun _ _ => trivial

theorem Save.Undid.planned {parts : List Part} {fates : List Fate} {final : Disk Hash Config}
    (undid : save.Undid sha256 parts fates final) :
    ∃ pending, pending ≠ [] ∧ Planned sha256 save.start save.targets pending ∧ save.Accepted sha256 := by
  obtain ⟨prepared, changing, _, _, _⟩ := undid
  obtain ⟨held, _⟩ := @prepareWrite_ensures Hash Config sha256 save _ Fate.Any any_ok fates fun _ _ => trivial
  rw [prepared] at held
  obtain ⟨planned, _, _, _, _, accepted⟩ := held
  exact ⟨_, changing, planned, accepted⟩

theorem Save.Undid.accepted {parts : List Part} {fates : List Fate} {final : Disk Hash Config}
    (undid : save.Undid sha256 parts fates final) : save.Accepted sha256 := by
  obtain ⟨_, _, _, accepted⟩ := undid.planned
  exact accepted

/-- A write that had something to undo was to change some file. -/
theorem Save.Undid.changes {parts : List Part} {fates : List Fate} {final : Disk Hash Config}
    (undid : save.Undid sha256 parts fates final) :
    ¬ ∀ target ∈ save.targets, save.start.bytes target.name = some target.bytes := by
  obtain ⟨pending, changing, planned, _⟩ := undid.planned
  intro still
  obtain ⟨write, member⟩ := List.exists_mem_of_ne_nil pending changing
  obtain ⟨hash, _, after, differs⟩ := planned.each write member
  have asked : write.target ∈ save.targets := planned.sub.subset (List.mem_map_of_mem member)
  refine differs ?_
  rw [hash, Disk.hashOf, still write.target asked, after]
  rfl

/-- Where the old versions survive, a write that was undone changed nothing. -/
theorem Save.Undid.exact {parts : List Part} {fates : List Fate} {final : Disk Hash Config}
    (survives : save.Survives) (atomic : ∀ fate ∈ fates, Atomic fate)
    (undid : save.Undid sha256 parts fates final) : ∀ name, final.bytes name = save.start.bytes name := by
  obtain ⟨prepared, changing, committed, selection, undone⟩ := undid
  rename_i pending journal manifest opened failed reverted error progress commitFates revertFates undoFates rest
  obtain ⟨held, commitAtomic⟩ := @prepareWrite_ensures Hash Config sha256 save _ Atomic atomic_ok fates atomic
  rw [prepared] at held commitAtomic
  obtain ⟨planned, own, same, files, owned, _⟩ := held
  change journal = save.own at own
  change manifest = journalManifest pending save.metadata at same
  subst own same
  have start : save.Changed sha256 [] opened := by
    refine ⟨?_, owned⟩
    intro name _
    change (opened.files name).map _ = _
    rw [files]
    rfl
  obtain ⟨changed, revertAtomic⟩ := @commitWrite_changes _ _ _ _ _ _ pending start commitFates commitAtomic
  rw [committed] at changed revertAtomic
  obtain ⟨changed, undoAtomic⟩ :=
    @revertOptions_keeps _ _ _ _ _ _ save.metadata Atomic atomic_ok error progress Save.Changed.closed changed
      revertFates revertAtomic
  rw [selection] at changed undoAtomic
  obtain ⟨changed, _⟩ :=
    @undoWrite_changes _ _ _ _ _ _ _ _ parts error survives planned.records changed undoFates undoAtomic
  rw [undone] at changed
  intro name
  exact changed.kept name List.not_mem_nil

end

end

end Dockge.StackWrite
