import Dockge.StackWrite.Exact

namespace Dockge.StackWrite

open Dockge.Data

/-! Where an old version does not survive, some failure is undone with other bytes. -/

variable {Hash Config : Type} {allowed : Fate → Prop} {disk : Disk Hash Config}

/-- Nothing happens to an operation. -/
def Undisturbed (fate : Fate) : Prop := fate = .ok

theorem perform_reaches (effect : Disk Hash Config → Disk Hash Config) :
    Reaches Undisturbed (perform effect) disk (.done ()) (effect disk) :=
  Reaches.operation .ok rfl rfl

theorem perform_late (effect : Disk Hash Config → Disk Hash Config) (late : allowed .late) :
    Reaches allowed (perform effect) disk (.threw .io) (effect disk) :=
  Reaches.operation .late late rfl

theorem ask_reaches {α : Type} {answer : Disk Hash Config → Except WriteError α} {value : α}
    (answers : answer disk = .ok value) : Reaches Undisturbed (ask answer) disk (.done value) disk := by
  refine Reaches.operation .ok rfl ?_
  simp only [answers]

theorem refuseIf_reaches {σ : Type} {state : σ} {error : Option WriteError} (passed : error = none) :
    Reaches Undisturbed (refuseIf error : Program σ WriteError Unit) state (.done ()) state := by
  subst passed
  exact Reaches.pure

theorem removeJournal_reaches (parts : List Part) (id : Nat) :
    ∃ reached, Reaches Undisturbed (removeJournal parts id) disk (.done ()) reached ∧
      reached.files = disk.files := by
  obtain ⟨middle, dropped, same⟩ := @Reaches.forEach (Disk Hash Config) WriteError Part Undisturbed disk
    (fun part => perform fun disk => disk.onJournal id fun journal => journal.drop part) parts
    (fun _ reached => reached.files = disk.files) rfl
    fun _ part _ state _ same => ⟨_, perform_reaches _, same⟩
  exact ⟨_, dropped.bind (perform_reaches _), same⟩

section
variable {sha256 : Bytes → Hash} {save : Save Hash Config}

theorem readStackFileState_reaches {name : String}
    (small : ∀ bytes, disk.bytes name = some bytes → bytes.length ≤ maxFileBytes) :
    ∃ state, Reaches Undisturbed (readStackFileState sha256 name) disk (.done state) disk ∧
      state.hash = disk.hashOf sha256 name := by
  cases found : disk.files name with
  | none =>
      refine ⟨{ hash := none, bytes := none, mode := none }, ask_reaches ?_, ?_⟩
      · simp only [found]
      · simp [Disk.hashOf, Disk.bytes, found]
  | some file =>
      have fits : ¬ maxFileBytes < file.bytes.length := Nat.not_lt.mpr (small _ (by simp [Disk.bytes, found]))
      refine ⟨{ hash := some (sha256 file.bytes), bytes := some file.bytes, mode := some file.mode },
        ask_reaches ?_, ?_⟩
      · simp only [found, if_neg fits]
      · simp [Disk.hashOf, Disk.bytes, found]

/-! ### The call up to its commit -/

/-- The journal has every old version that was there. -/
def Complete (pending : List (PendingWrite Hash)) (own : Nat) (disk : Disk Hash Config) : Prop :=
  ∃ journal, disk.journals own = some journal ∧
    ∀ write ∈ pending, ∀ bytes, write.state.bytes = some bytes → journal.before write.target.name = some bytes

theorem journalVersions_reaches {done : List (PendingWrite Hash)} {write : PendingWrite Hash} {own : Nat}
    (same : ∀ other ∈ done, other.target.name = write.target.name → other.state.bytes = write.state.bytes)
    (complete : Complete done own disk) :
    ∃ reached, Reaches Undisturbed (journalVersions own write) disk (.done ()) reached ∧
      reached.files = disk.files ∧ Complete (done ++ [write]) own reached := by
  obtain ⟨journal, held, before⟩ := complete
  cases old : write.state.bytes with
  | none =>
      have entered : Reaches Undisturbed (journalBefore own write) disk (.done ()) disk := by
        unfold journalBefore
        rw [old]
        exact Reaches.pure
      refine ⟨_, entered.bind (perform_reaches _), rfl, { journal with after := _ }, by simp [held]; rfl, ?_⟩
      intro other member bytes taken
      rcases List.mem_append.mp member with earlier | last
      · exact before other earlier bytes taken
      · rw [List.mem_singleton.mp last, old] at taken
        cases taken
  | some bytes =>
      have entered : Reaches Undisturbed (journalBefore own write) disk (.done ())
          (disk.onJournal own fun journal =>
            { journal with before := Function.update journal.before write.target.name (some bytes) }) := by
        unfold journalBefore
        rw [old]
        exact perform_reaches _
      refine ⟨_, entered.bind (perform_reaches _), rfl, { journal with
        before := Function.update journal.before write.target.name (some bytes), after := _ },
        by simp [held]; rfl, ?_⟩
      intro other member taken found
      by_cases named : other.target.name = write.target.name
      · have equal : other.state.bytes = write.state.bytes := by
          rcases List.mem_append.mp member with earlier | last
          · exact same other earlier named
          · rw [List.mem_singleton.mp last]
        rw [equal, old] at found
        simp [named, Option.some.inj found]
      · rcases List.mem_append.mp member with earlier | last
        · simpa [Function.update_of_ne named] using before other earlier taken found
        · exact absurd (congrArg (fun write => write.target.name) (List.mem_singleton.mp last)) named

theorem openJournal_reaches {pending : List (PendingWrite Hash)} {metadata : Option (StackWriteMetadata Config)}
    (found : ∀ write ∈ pending, write.state.bytes = disk.bytes write.target.name) :
    ∃ reached, Reaches Undisturbed (openJournal pending metadata) disk
      (.done (disk.nextId, journalManifest pending metadata)) reached ∧
      reached.files = disk.files ∧ Complete pending disk.nextId reached := by
  let Through (done : List (PendingWrite Hash)) (reached : Disk Hash Config) : Prop :=
    reached.files = disk.files ∧ Complete done disk.nextId reached
  have start : Through [] { disk.setJournal disk.nextId (some {}) with nextId := disk.nextId + 1 } :=
    ⟨rfl, {}, by simp [Disk.setJournal], by simp⟩
  have entries : ∃ reached, Reaches Undisturbed (Program.forEach pending (journalVersions disk.nextId))
      { disk.setJournal disk.nextId (some {}) with nextId := disk.nextId + 1 } (.done ()) reached ∧
        Through pending reached := by
    refine Reaches.forEach Through start ?_
    intro before write after state same through
    obtain ⟨files, complete⟩ := through
    have equal : ∀ other ∈ before, other.target.name = write.target.name →
        other.state.bytes = write.state.bytes := by
      intro other member named
      rw [found other (by simp [same, member]), found write (by simp [same]), named]
    obtain ⟨reached, entered, kept, complete⟩ := journalVersions_reaches equal complete
    exact ⟨reached, entered, kept.trans files, complete⟩
  obtain ⟨middle, entered, files, journal, held, complete⟩ := entries
  refine ⟨_, Reaches.look.bind ((perform_reaches _).bind (Reaches.bind (ask_reaches rfl)
    (entered.bind ((perform_reaches _).bind Reaches.pure)))), files, ?_⟩
  exact ⟨{ journal with manifest := some (journalManifest pending metadata) }, by simp [held], complete⟩

section
variable [DecidableEq Hash]

theorem planWrite_reaches {targets : List (StackFileTarget Hash)}
    (small : ∀ target ∈ targets, ∀ bytes, disk.bytes target.name = some bytes → bytes.length ≤ maxFileBytes)
    (expected : Expected sha256 targets disk) :
    ∃ plan, Reaches Undisturbed (planWrite sha256 targets) disk (.done plan) disk := by
  induction targets with
  | nil => exact ⟨_, Reaches.pure⟩
  | cons target rest ih =>
      obtain ⟨state, read, hash⟩ := @readStackFileState_reaches _ _ _ sha256 _ (small target List.mem_cons_self)
      obtain ⟨plan, planned⟩ := ih (fun other member => small other (List.mem_cons_of_mem _ member))
        fun other member => expected other (List.mem_cons_of_mem _ member)
      have matching : target.expectedHash.all (· = state.hash) = true := by
        cases asked : target.expectedHash with
        | none => rfl
        | some wanted => simp [expected target List.mem_cons_self wanted asked, hash]
      refine ⟨_, read.bind (Reaches.bind (refuseIf_reaches ?_) (planned.bind Reaches.pure))⟩
      rw [if_pos matching]

theorem prepareWrite_reaches (accepted : save.Accepted sha256) :
    ∃ pending opened, Reaches Undisturbed (prepareWrite sha256 save.targets save.metadata) save.start
      (.done (pending, save.own, journalManifest pending save.metadata)) opened ∧
      Planned sha256 save.start save.targets pending ∧ opened.files = save.start.files ∧
      Complete pending save.own opened := by
  have validated : ∃ reached, Reaches Undisturbed (Program.forEach save.targets validateTarget) save.start
      (.done ()) reached ∧ reached = save.start := by
    refine Reaches.forEach (fun _ reached => reached = save.start) rfl ?_
    intro before target after state same kept
    have member : target ∈ save.targets := by simp [same]
    refine ⟨state, Reaches.bind (refuseIf_reaches ?_) (refuseIf_reaches ?_), kept⟩
    · rw [if_pos (accepted.safe target member)]
    · have fits := accepted.small target member
      exact if_neg (Nat.not_lt.mpr fits)
  obtain ⟨_, validated, rfl⟩ := validated
  obtain ⟨⟨hashes, pending⟩, plans⟩ := planWrite_reaches accepted.found accepted.expected
  have planned := (plans.mono fun _ _ => trivial).done_of
    (@planWrite_ensures _ _ Fate.Any save.start sha256 (fun _ => True) _ any_ok save.targets trivial)
  obtain ⟨_, planned, _⟩ := planned
  obtain ⟨opened, opens, files, complete⟩ := @openJournal_reaches _ _ save.start pending save.metadata
    fun write member => (planned.each write member).2.1
  refine ⟨pending, opened, ?_, planned, files, complete⟩
  refine Reaches.bind validated (Reaches.bind (refuseIf_reaches ?_) (plans.bind (opens.bind Reaches.pure)))
  rw [if_pos accepted.distinct]

/-! ### A commit that fails once every file was replaced -/

theorem replaceFiles_reaches {pending : List (PendingWrite Hash)} {written : List String}
    (accepted : save.Accepted sha256)
    (asked : ∀ write ∈ pending, write.target ∈ save.targets ∧ write.afterHash = sha256 write.target.bytes ∧
      write.state.hash = save.start.hashOf sha256 write.target.name)
    (fresh : ∀ write ∈ pending, write.target.name ∉ written) (each : (pending.map (·.target.name)).Nodup)
    (replaced : Replaced save.targets save.start written disk.files) :
    ∃ reached, Reaches Undisturbed (replaceFiles sha256 pending written) disk
      (.done (written ++ pending.map (·.target.name))) reached ∧
      Replaced save.targets save.start (written ++ pending.map (·.target.name)) reached.files ∧
      reached.journals = disk.journals := by
  induction pending generalizing written disk with
  | nil =>
      simp only [List.map_nil, List.append_nil]
      exact ⟨disk, Reaches.pure, replaced, rfl⟩
  | cons write rest ih =>
      obtain ⟨target, state, afterHash⟩ := write
      obtain ⟨member, after, before⟩ := asked _ List.mem_cons_self
      change afterHash = sha256 target.bytes at after
      change state.hash = save.start.hashOf sha256 target.name at before
      have absent : target.name ∉ written := fresh _ List.mem_cons_self
      have holds : disk.bytes target.name = save.start.bytes target.name := by
        have held := replaced target member
        rwa [if_neg absent] at held
      obtain ⟨current, read, hash⟩ := @readStackFileState_reaches _ _ disk sha256 target.name
        (holds ▸ accepted.found target member)
      let put := disk.setFile target.name
        (some ⟨encodeUtf8 target.content.toList, state.mode.getD defaultFileMode⟩)
      have next : Replaced save.targets save.start (written ++ [target.name]) put.files :=
        replaced.step accepted.distinct member
      have newBytes : put.bytes target.name = some target.bytes := by simp [put, Disk.bytes, Disk.setFile]; rfl
      obtain ⟨verified, checked, hash'⟩ := @readStackFileState_reaches _ _ put sha256 target.name (by
        intro bytes held
        rw [newBytes] at held
        cases held
        exact accepted.small target member)
      have once : target.name ∉ rest.map (·.target.name) := (List.nodup_cons.mp each).1
      obtain ⟨reached, later, done, journals⟩ := ih (fun write present => asked write (List.mem_cons_of_mem _ present))
        (by
          intro other present
          have different : other.target.name ≠ target.name := fun same =>
            once (same ▸ List.mem_map_of_mem present)
          simpa [different] using fresh other (List.mem_cons_of_mem _ present))
        (List.nodup_cons.mp each).2 next
      have whole : written ++ List.map (·.target.name) ({ target, state, afterHash } :: rest) =
          written ++ [target.name] ++ rest.map (·.target.name) := by simp
      rw [whole]
      refine ⟨reached, ?_, done, journals⟩
      refine Reaches.seq put (Reaches.orElse ?_) (Reaches.seq put (Reaches.orElse ?_) later)
      · refine Reaches.seq disk (ask_reaches rfl) (Reaches.bind read (Reaches.seq disk (refuseIf_reaches ?_) ?_))
        · rw [if_pos (by rw [hash, before, Disk.hashOf, holds, Disk.hashOf])]
        · exact perform_reaches _
      · refine Reaches.bind checked (refuseIf_reaches ?_)
        rw [if_pos (by rw [hash', Disk.hashOf, newBytes, after]; rfl)]

/-- The call is stopped right before the selection is stored. -/
theorem commitWrite_stops {pending : List (PendingWrite Hash)} {own : Nat}
    (accepted : save.Accepted sha256) (planned : Planned sha256 save.start save.targets pending)
    (files : disk.files = save.start.files) (undisturbed : allowed .ok) (fails : allowed .fail) :
    ∃ reached, Reaches allowed (commitWrite sha256 pending own save.metadata) disk
      (.threw (.io, { written := pending.map (·.target.name), metadataApplied := false })) reached ∧
      Replaced save.targets save.start (pending.map (·.target.name)) reached.files ∧
      reached.journals = disk.journals := by
  have asked : ∀ write ∈ pending, write.target ∈ save.targets := fun write member =>
    planned.sub.subset (List.mem_map_of_mem member)
  have named : (pending.map (·.target.name)).Nodup := by
    have sub := (planned.sub.map (·.name)).nodup accepted.distinct
    rwa [List.map_map] at sub
  have start : Replaced save.targets save.start [] disk.files := by
    intro target _
    simp [files, Disk.bytes]
  obtain ⟨reached, replaces, replaced, journals⟩ := replaceFiles_reaches accepted
    (fun write member => ⟨asked write member, (planned.each write member).2.2.1, (planned.each write member).1⟩)
    (by simp) named start
  rw [List.nil_append] at replaces replaced
  refine ⟨reached, ?_, replaced, journals⟩
  have wider : ∀ fate, Undisturbed fate → allowed fate := by
    rintro _ rfl
    exact undisturbed
  refine Reaches.bind (replaces.mono wider) (Reaches.bind_threw (Reaches.orElse_threw ?_ Reaches.fail))
  exact Reaches.bind_threw (Reaches.operation .fail fails rfl)

/-! ### What the undoing writes -/

omit [DecidableEq Hash] in
/-- The selection was not stored yet. -/
theorem revertOptions_reaches {own : Nat} {metadata : Option (StackWriteMetadata Config)} {error : WriteError}
    {written : List String} :
    Reaches Undisturbed (revertOptions own metadata error { written, metadataApplied := false }) disk (.done ()) disk := by
  cases metadata with
  | none => exact Reaches.pure
  | some _ => exact Reaches.pure

/-- These files were put back from their text, the others hold the new version. -/
structure PutBack (save : Save Hash Config) (pending : List (PendingWrite Hash)) (done : List String)
    (disk : Disk Hash Config) : Prop where
  files : ∀ write ∈ pending, disk.bytes write.target.name =
    if write.target.name ∈ done then (save.start.bytes write.target.name).map transcode
    else some write.target.bytes
  complete : Complete pending save.own disk

omit [DecidableEq Hash] in
theorem find_journalFile {pending : List (PendingWrite Hash)} {metadata : Option (StackWriteMetadata Config)}
    {write : PendingWrite Hash} (named : (pending.map (·.target.name)).Nodup) (member : write ∈ pending) :
    (journalManifest pending metadata).files.find? (·.name = write.target.name) = some (journalFile write) := by
  cases found : pending.find? (fun other => other.target.name = write.target.name) with
  | none => exact absurd (List.find?_eq_none.mp found write member) (by simp)
  | some other =>
      have same : other.target.name = write.target.name := by simpa using List.find?_some found
      have one : other = write :=
        List.inj_on_of_nodup_map named (List.mem_of_find?_eq_some found) member same
      subst one
      simp only [journalManifest, List.find?_map]
      exact congrArg (Option.map journalFile) found

theorem undoFile_reaches {pending : List (PendingWrite Hash)} {done : List String} {write : PendingWrite Hash}
    (accepted : save.Accepted sha256) (planned : Planned sha256 save.start save.targets pending)
    (named : (pending.map (·.target.name)).Nodup) (member : write ∈ pending) (fresh : write.target.name ∉ done)
    (back : PutBack save pending done disk) :
    ∃ reached, Reaches Undisturbed (undoFile sha256 save.own (journalManifest pending save.metadata)
      write.target.name) disk (.done ()) reached ∧ PutBack save pending (done ++ [write.target.name]) reached := by
  obtain ⟨hash, bytes, after, _⟩ := planned.each write member
  have asked : write.target ∈ save.targets := planned.sub.subset (List.mem_map_of_mem member)
  have new : disk.bytes write.target.name = some write.target.bytes := by
    rw [back.files write member, if_neg fresh]
  have put {file : Option File}
      (old : file.map (·.bytes) = (save.start.bytes write.target.name).map transcode) :
      PutBack save pending (done ++ [write.target.name]) (disk.setFile write.target.name file) := by
    refine ⟨?_, back.complete⟩
    intro other present
    by_cases same : other.target.name = write.target.name
    · simpa [same, Disk.bytes, Disk.setFile] using old
    · simpa [same, Disk.bytes, Disk.setFile, Function.update_of_ne same] using back.files other present
  obtain ⟨current, read, hash'⟩ := @readStackFileState_reaches _ _ disk sha256 write.target.name (by
    intro found held
    rw [new] at held
    cases held
    exact accepted.small write.target asked)
  have current_after : current.hash = some (journalFile write).afterHash := by
    rw [hash', Disk.hashOf, new]
    exact congrArg some after.symm
  have before : (journalFile write).beforeHash = save.start.hashOf sha256 write.target.name := hash
  let file : Option File := (save.start.bytes write.target.name).map fun old =>
    ⟨encodeUtf8 (decodeUtf8 old), (journalFile write).mode⟩
  have restored : file.map (·.bytes) = (save.start.bytes write.target.name).map transcode := by
    simp only [file, Option.map_map]
    rfl
  refine ⟨disk.setFile write.target.name file, ?_, put restored⟩
  unfold undoFile
  rw [find_journalFile named member]
  refine Reaches.bind read (Reaches.seq disk (refuseIf_reaches (if_pos current_after)) ?_)
  cases old : save.start.bytes write.target.name with
  | none =>
      have absent : (journalFile write).beforeHash = none := by simp [before, Disk.hashOf, old]
      simp only [absent, file, old]
      exact perform_reaches _
  | some held =>
      have there : (journalFile write).beforeHash = some (sha256 held) := by simp [before, Disk.hashOf, old]
      obtain ⟨journal, present, complete⟩ := back.complete
      have kept := complete write member held (bytes.trans old)
      simp only [there, file, old]
      refine Reaches.bind (ask_reaches ?_) (perform_reaches _)
      simp [present, kept]

theorem undoWrite_reaches {pending : List (PendingWrite Hash)} {parts : List Part} {cause : WriteError}
    (accepted : save.Accepted sha256) (planned : Planned sha256 save.start save.targets pending)
    (back : PutBack save pending [] disk) :
    ∃ reached, Reaches Undisturbed (undoWrite sha256 save.own (journalManifest pending save.metadata)
      (pending.map (·.target.name)) parts cause) disk (.done ()) reached ∧
      ∀ write ∈ pending, reached.bytes write.target.name =
        (save.start.bytes write.target.name).map transcode := by
  have named : (pending.map (·.target.name)).Nodup := by
    have sub := (planned.sub.map (·.name)).nodup accepted.distinct
    rwa [List.map_map] at sub
  let names := (pending.map (·.target.name)).reverse
  have each : ∃ reached, Reaches Undisturbed (Program.forEach names
      (undoFile sha256 save.own (journalManifest pending save.metadata))) disk (.done ()) reached ∧
      PutBack save pending names reached := by
    refine Reaches.forEach (PutBack save pending) back ?_
    intro before name after disk same back
    have member : name ∈ pending.map (·.target.name) := List.mem_reverse.mp (by
      change name ∈ names
      simp [same])
    obtain ⟨write, present, rfl⟩ := List.mem_map.mp member
    have fresh : write.target.name ∉ before := by
      have distinct : names.Nodup := List.nodup_reverse.mpr named
      rw [same] at distinct
      exact fun earlier => (List.disjoint_of_nodup_append distinct) earlier List.mem_cons_self
    exact undoFile_reaches accepted planned named present fresh back
  obtain ⟨middle, undone, back⟩ := each
  obtain ⟨reached, removed, files⟩ := @removeJournal_reaches _ _ middle parts save.own
  refine ⟨reached, Reaches.seq middle (Reaches.orElse undone) removed, ?_⟩
  intro write member
  have put := back.files write member
  rw [if_pos (List.mem_reverse.mpr (List.mem_map_of_mem member))] at put
  rw [← put]
  exact congrArg (Option.map _) (congrFun files _)

/-! ### Exactly when -/

/-- Every failure that is followed by a successful undoing leaves every file as it was. -/
def Save.Undoes (sha256 : Bytes → Hash) (save : Save Hash Config) (allowed : Fate → Prop) : Prop :=
  ∀ parts fates final, (∀ fate ∈ fates, allowed fate) → save.Undid sha256 parts fates final →
    ∀ target ∈ save.targets, final.bytes target.name = save.start.bytes target.name

/-- A recovery that rolls the call back, wherever it was stopped and whatever has become of the files
since, leaves each file as it found it or as it was before the call; where nothing is left to the user
every file of the journal is as it was before. -/
def Save.RollsBack (sha256 : Bytes → Hash) (save : Save Hash Config) : Prop :=
  ∀ parts fates found manifest later,
    found.journals save.own = (writeStackFiles sha256 save.targets { metadata := save.metadata, parts } fates
      save.start).state.journals save.own →
    (found.journals save.own).bind (·.manifest) = some manifest →
    let outcome := restoreJournalFiles sha256 save.own false manifest.files later found
    save.Rolls found outcome.state ∧ (outcome.ending = .done false →
      ∀ file ∈ manifest.files, outcome.state.bytes file.name = save.start.bytes file.name)

theorem Save.Survives.rollsBack (injective : Function.Injective sha256)
    (fresh : save.start.journals save.own = none) (survives : save.Accepted sha256 → save.Survives) :
    save.RollsBack sha256 := by
  intro parts fates found manifest later same planned
  obtain ⟨journal, held, planned⟩ := Option.bind_eq_some_iff.mp planned
  have accepted : save.Accepted sha256 := by
    by_contra unaccepted
    have every := writeStackFiles_unaccepted parts fresh unaccepted
    have gone := (every.mono (fun _ _ held => held) (fun _ _ held => held) fun _ held => held).state_of
      fun fate (_ : fate ∈ fates) => trivial
    rw [← same, held] at gone
    cases gone
  have owned : save.Owned sha256 found := by
    intro journal held
    exact (writeStackFiles_owned parts fresh).state_of (fun _ _ => trivial) journal (same ▸ held)
  have start : save.PutBack sha256 found [] found := ⟨fun _ => .inl rfl, owned, by simp⟩
  have each := restoreJournalFiles_exact injective (survives accepted)
    ((owned journal held).planned manifest planned) start
  refine ⟨?_, ?_⟩
  · exact (each.mono (fun _ _ both => both.1) (fun _ _ held => held) fun _ held => held).state_of
      fun _ _ => trivial
  · intro done file member
    have recovered := (each.done_of (fun _ _ => trivial) done).2 rfl
    exact recovered.back file.name (by simpa using ⟨file, member, rfl⟩)

/-- The runs of the parts make one of the call. -/
theorem Save.Undid.of_reaches {pending : List (PendingWrite Hash)} {opened failed final : Disk Hash Config}
    {error : WriteError} {written : List String} {parts : List Part} (changing : pending ≠ [])
    (undisturbed : allowed .ok)
    (prepared : Reaches Undisturbed (prepareWrite sha256 save.targets save.metadata) save.start
      (.done (pending, save.own, journalManifest pending save.metadata)) opened)
    (committed : Reaches allowed (commitWrite sha256 pending save.own save.metadata) opened
      (.threw (error, { written, metadataApplied := false })) failed)
    (undone : Reaches Undisturbed (undoWrite sha256 save.own (journalManifest pending save.metadata) written
      parts error) failed (.done ()) final) :
    ∃ fates, (∀ fate ∈ fates, allowed fate) ∧ save.Undid sha256 parts fates final := by
  have wider : ∀ fate, Undisturbed fate → allowed fate := by
    rintro _ rfl
    exact undisturbed
  obtain ⟨first, firstWithin, prepares⟩ := prepared.mono wider
  obtain ⟨second, secondWithin, commits⟩ := committed
  obtain ⟨third, thirdWithin, reverts⟩ :=
    (@revertOptions_reaches _ _ failed save.own save.metadata error written).mono wider
  obtain ⟨fourth, fourthWithin, undoes⟩ := undone.mono wider
  refine ⟨first ++ (second ++ (third ++ fourth)), ?_,
    .intro (prepares _) changing (commits _) (reverts _) (by simpa using undoes [])⟩
  intro fate member
  simp only [List.mem_append] at member
  rcases member with one | two | three | four
  · exact firstWithin fate one
  · exact secondWithin fate two
  · exact thirdWithin fate three
  · exact fourthWithin fate four

/-- Some failure is undone from the text of every file. -/
theorem undid_transcoded (accepted : save.Accepted sha256) (undisturbed : allowed .ok) (fails : allowed .fail)
    (changing : ∃ target ∈ save.targets, save.start.hashOf sha256 target.name ≠ some (sha256 target.bytes)) :
    ∃ fates final, (∀ fate ∈ fates, allowed fate) ∧ save.Undid sha256 [] fates final ∧
      ∀ target ∈ save.targets, save.start.hashOf sha256 target.name ≠ some (sha256 target.bytes) →
        final.bytes target.name = (save.start.bytes target.name).map transcode := by
  obtain ⟨pending, opened, prepared, planned, files, complete⟩ := prepareWrite_reaches accepted
  obtain ⟨failed, commits, replaced, journals⟩ := @commitWrite_stops _ _ allowed opened _ _ _ pending save.own
    accepted planned files undisturbed fails
  have back : PutBack save pending [] failed := by
    refine ⟨?_, ?_⟩
    · intro write member
      have asked : write.target ∈ save.targets := planned.sub.subset (List.mem_map_of_mem member)
      have held := replaced write.target asked
      rw [if_pos (List.mem_map_of_mem member)] at held
      rw [if_neg List.not_mem_nil]
      exact held
    · obtain ⟨journal, held, each⟩ := complete
      exact ⟨journal, journals ▸ held, each⟩
  obtain ⟨final, undone, restored⟩ := @undoWrite_reaches _ _ failed _ _ _ pending [] .io accepted planned back
  have pends {target : StackFileTarget Hash} (member : target ∈ save.targets)
      (changes : save.start.hashOf sha256 target.name ≠ some (sha256 target.bytes)) :
      ∃ write ∈ pending, write.target = target :=
    (planned.rest target member).resolve_right changes
  have some_pending : pending ≠ [] := by
    obtain ⟨target, member, changes⟩ := changing
    obtain ⟨write, present, _⟩ := pends member changes
    exact List.ne_nil_of_mem present
  obtain ⟨fates, within, undid⟩ := Save.Undid.of_reaches some_pending undisturbed prepared commits undone
  refine ⟨fates, final, within, undid, ?_⟩
  intro target member changes
  obtain ⟨write, present, rfl⟩ := pends member changes
  exact restored write present

/-- Where the replacing of the first file fails late, the undoing does not know of it. -/
theorem undid_late (accepted : save.Accepted sha256) (undisturbed : allowed .ok) (late : allowed .late)
    (changing : ∃ target ∈ save.targets, save.start.hashOf sha256 target.name ≠ some (sha256 target.bytes)) :
    ∃ fates final, (∀ fate ∈ fates, allowed fate) ∧ save.Undid sha256 [] fates final ∧
      ∃ target ∈ save.targets, final.hashOf sha256 target.name ≠ save.start.hashOf sha256 target.name := by
  obtain ⟨pending, opened, prepared, planned, files, _⟩ := prepareWrite_reaches accepted
  obtain ⟨changed, asked, changes⟩ := changing
  cases pending with
  | nil => exact absurd (planned.rest changed asked) (by simp [changes])
  | cons write rest =>
      obtain ⟨hash, _, after, differs⟩ := planned.each write List.mem_cons_self
      have member : write.target ∈ save.targets := planned.sub.subset List.mem_cons_self
      have same : opened.bytes write.target.name = save.start.bytes write.target.name := by
        rw [Disk.bytes, files]
        rfl
      obtain ⟨current, read, hash'⟩ := @readStackFileState_reaches _ _ opened sha256 write.target.name
        (same ▸ accepted.found write.target member)
      have wider : ∀ fate, Undisturbed fate → allowed fate := by
        rintro _ rfl
        exact undisturbed
      let replaced := opened.setFile write.target.name
        (some ⟨encodeUtf8 write.target.content.toList, write.state.mode.getD defaultFileMode⟩)
      have stops : Reaches allowed (commitWrite sha256 (write :: rest) save.own save.metadata) opened
          (.threw (.io, { written := [], metadataApplied := false })) replaced := by
        refine Reaches.bind_threw (Reaches.bind_threw (Reaches.orElse_threw ?_ Reaches.fail))
        refine Reaches.seq opened (Reaches.mono (ask_reaches rfl) wider) (Reaches.bind (read.mono wider)
          (Reaches.seq opened (Reaches.mono (refuseIf_reaches ?_) wider) ?_))
        · rw [if_pos (by rw [hash', hash, Disk.hashOf, same, Disk.hashOf])]
        · exact perform_late _ late
      obtain ⟨final, removed, kept⟩ := @removeJournal_reaches _ _ replaced [] save.own
      have undone : Reaches Undisturbed (undoWrite sha256 save.own (journalManifest (write :: rest) save.metadata)
          [] [] .io) replaced (.done ()) final :=
        Reaches.seq replaced (Reaches.orElse Reaches.pure) removed
      obtain ⟨fates, within, undid⟩ := Save.Undid.of_reaches (List.cons_ne_nil _ _) undisturbed prepared stops undone
      refine ⟨fates, final, within, undid, write.target, member, ?_⟩
      have new : final.hashOf sha256 write.target.name = some write.afterHash := by
        rw [Disk.hashOf, Disk.bytes, kept, after]
        simp [replaced, Disk.setFile, StackFileTarget.bytes]
      rw [new, ← hash]
      exact fun equal => differs equal.symm

/-- A failed write restores the exact bytes, and so does its recovery, if and only if every old version
survives being read as text, and nothing fails after it took effect. -/
theorem undo_exact_iff (injective : Function.Injective sha256) (save : Save Hash Config)
    (fresh : save.start.journals save.own = none) (allowed : Fate → Prop) (undisturbed : allowed .ok)
    (fails : allowed .fail) :
    save.Undoes sha256 allowed ∧ save.RollsBack sha256 ↔
      (save.Accepted sha256 → save.Survives ∧
        (allowed .late → ∀ target ∈ save.targets, save.start.bytes target.name = some target.bytes)) := by
  have unchanged {target : StackFileTarget Hash}
      (same : save.start.hashOf sha256 target.name = some (sha256 target.bytes)) :
      save.start.bytes target.name = some target.bytes := by
    obtain ⟨bytes, held, equal⟩ := Option.map_eq_some_iff.mp same
    rw [held, injective equal]
  constructor
  · intro holds accepted
    obtain ⟨undoes, _⟩ := holds
    constructor
    · intro target member bytes held
      by_cases same : save.start.hashOf sha256 target.name = some (sha256 target.bytes)
      · have equal := unchanged same
        rw [held] at equal
        cases equal
        exact transcode_encodeUtf8 _
      · obtain ⟨fates, final, within, undid, restored⟩ :=
          undid_transcoded accepted undisturbed fails ⟨target, member, same⟩
        have back := undoes [] fates final within undid target member
        rw [restored target member same, held] at back
        exact Option.some.inj back
    · intro late target member
      by_contra changes
      have differs : save.start.hashOf sha256 target.name ≠ some (sha256 target.bytes) :=
        fun same => changes (unchanged same)
      obtain ⟨fates, final, within, undid, other, asked, kept⟩ :=
        undid_late accepted undisturbed late ⟨target, member, differs⟩
      exact kept (congrArg (Option.map sha256) (undoes [] fates final within undid other asked))
  · intro condition
    constructor
    · intro parts fates final within undid target member
      have accepted := undid.accepted
      obtain ⟨survives, still⟩ := condition accepted
      by_cases late : allowed .late
      · exact absurd (still late) undid.changes
      · refine undid.exact survives ?_ target.name
        rintro fate present rfl
        exact late (within _ present)
    · exact Save.Survives.rollsBack injective fresh fun accepted => (condition accepted).1

end
end

/-! One environment file is saved again, over text and over bytes that are no text. -/

theorem undo_exact_text :
    (sampleSave [0x42]).Undoes id Atomic ∧ (sampleSave [0x42]).RollsBack id := by
  have survives : (sampleSave [0x42]).Survives := (sampleSave_sound (by decide +kernel)).survives
  have exactly := undo_exact_iff Function.injective_id (sampleSave [0x42]) rfl Atomic (by simp [Atomic])
    (by simp [Atomic])
  exact exactly.mpr fun _ => ⟨survives, fun late => absurd late Atomic.not_late⟩

theorem sampleSave_accepted {old : Bytes} (small : old.length ≤ maxFileBytes) : (sampleSave old).Accepted id where
  safe := by
    intro target member
    obtain rfl : target = _ := List.mem_singleton.mp member
    decide +kernel
  small := by
    intro target member
    obtain rfl : target = _ := List.mem_singleton.mp member
    decide +kernel
  distinct := by simp [sampleSave]
  found := by
    intro target member bytes held
    obtain rfl : target = _ := List.mem_singleton.mp member
    cases held
    exact small
  expected := by
    intro target member hash asked
    obtain rfl : target = _ := List.mem_singleton.mp member
    cases asked

/-- The panel answers that nothing was saved, and the byte that was no text is three others now; a
recovery after a kill leaves the same. -/
theorem undo_not_exact :
    ¬ (sampleSave [0x61, 0xFF]).Undoes id Atomic ∧
    (let outcome := writeStackFiles id (sampleSave [0x61, 0xFF]).targets
        { metadata := (sampleSave [0x61, 0xFF]).metadata, parts := [] } (List.replicate 14 .ok ++ [.fail])
        (sampleSave [0x61, 0xFF]).start
    outcome.ending.isDone = false ∧ (outcome.state.journals 0).isNone ∧
      outcome.state.bytes ".env" = some [0x61, 0xEF, 0xBF, 0xBD]) ∧
    (let killed := writeStackFiles id (sampleSave [0x61, 0xFF]).targets
        { metadata := (sampleSave [0x61, 0xFF]).metadata, parts := [] } (List.replicate 10 .ok ++ [.kill])
        (sampleSave [0x61, 0xFF]).start
    ((killed.state.journals 0).bind (·.manifest)).map (fun manifest =>
      (restoreJournalFiles id 0 false manifest.files [] killed.state).state.bytes ".env") =
        some (some [0x61, 0xEF, 0xBF, 0xBD])) := by
  refine ⟨?_, by decide +kernel, by decide +kernel⟩
  intro undoes
  have accepted : (sampleSave [0x61, 0xFF]).Accepted id := sampleSave_accepted (by decide +kernel)
  have changing : ∃ target ∈ (sampleSave [0x61, 0xFF]).targets,
      (sampleSave [0x61, 0xFF]).start.hashOf id target.name ≠ some (id target.bytes) := by decide +kernel
  obtain ⟨fates, final, within, undid, restored⟩ :=
    @undid_transcoded _ _ Atomic _ _ _ accepted (by simp [Atomic]) (by simp [Atomic]) changing
  obtain ⟨target, member, changes⟩ := changing
  have back := undoes [] fates final within undid target member
  rw [restored target member changes] at back
  obtain rfl : target = _ := List.mem_singleton.mp member
  exact absurd back (by decide +kernel)

end Dockge.StackWrite
