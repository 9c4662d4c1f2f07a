import Dockge.StackWrite.CrashAtomic
import Dockge.StackWrite.Touching

namespace Dockge.StackWrite

open Dockge.Data

/-! What a save reported as saved outlives a restart. -/

variable {Hash Config : Type} {sha256 : Bytes → Hash} {name : String} {hash : Hash}
  {disk : Disk Hash Config}

/-- A recovery of this journal does not replace the file while it has this hash. -/
def Journal.Spares (name : String) (hash : Hash) (journal : Journal Hash Config) : Prop :=
  ∀ manifest, journal.manifest = some manifest → ∀ file ∈ manifest.files, file.name = name →
    file.other journal.committed = some hash → file.wanted journal.committed = some hash

/-- The file has this hash, and no journal takes it for a version to replace. -/
structure Disk.Guards (sha256 : Bytes → Hash) (name : String) (hash : Hash) (disk : Disk Hash Config) :
    Prop where
  hashed : disk.hashOf sha256 name = some hash
  spared : ∀ id journal, disk.journals id = some journal → journal.Spares name hash

/-- The manifest of a write that leaves the file out. -/
def Omits (name : String) (manifest : Option (JournalManifest Hash Config)) : Prop :=
  ∀ planned, manifest = some planned → ∀ file ∈ planned.files, file.name ≠ name

/-- So much is known while one journal is written or removed: of the files, of this journal and of
all others. -/
structure Disk.Holding (Files : (String → Option File) → Prop)
    (Own : Option (JournalManifest Hash Config) → Prop) (name : String) (hash : Hash) (own : Nat)
    (disk : Disk Hash Config) : Prop where
  files : Files disk.files
  journal : ∀ journal, disk.journals own = some journal → Own journal.manifest
  others : ∀ id journal, id ≠ own → disk.journals id = some journal → journal.Spares name hash

section
variable {Files : (String → Option File) → Prop} {Own : Option (JournalManifest Hash Config) → Prop}
  {own : Nat}

theorem Disk.Holding.onOwn (holding : disk.Holding Files Own name hash own)
    {change : Journal Hash Config → Journal Hash Config}
    (changed : ∀ journal, Own journal.manifest → Own (change journal).manifest) :
    (disk.onJournal own change).Holding Files Own name hash own where
  files := holding.files
  journal := by
    intro found held
    rw [onJournal_own, Option.map_eq_some_iff] at held
    obtain ⟨before, same, rfl⟩ := held
    exact changed before (holding.journal before same)
  others := by
    intro id journal different held
    rw [onJournal_other change different] at held
    exact holding.others id journal different held

theorem Disk.Holding.setOwn (holding : disk.Holding Files Own name hash own)
    {journal : Option (Journal Hash Config)} (kept : ∀ found, journal = some found → Own found.manifest) :
    (disk.setJournal own journal).Holding Files Own name hash own where
  files := holding.files
  journal := by
    intro found held
    exact kept found (by simpa [Disk.setJournal] using held)
  others := by
    intro id found different held
    exact holding.others id found different
      (by simpa [Disk.setJournal, Function.update_of_ne different] using held)

theorem Disk.Holding.setFile {Next : (String → Option File) → Prop} {place : String} {file : Option File}
    (holding : disk.Holding Files Own name hash own)
    (next : Files disk.files → Next (Function.update disk.files place file)) :
    (disk.setFile place file).Holding Next Own name hash own where
  files := next holding.files
  journal := holding.journal
  others := holding.others

theorem Disk.Holding.removeJournal {parts : List Part} (holding : disk.Holding Files Own name hash own)
    {allowed : Fate → Prop} (undisturbed : allowed .ok) (gone : Own none) :
    Ensures allowed (removeJournal parts own) disk
      (fun _ reached => reached.Holding Files Own name hash own ∧ reached.journals own = none)
      (fun _ reached => reached.Holding Files Own name hash own)
      (fun reached => reached.Holding Files Own name hash own) := by
  refine removeJournal_ensures undisturbed holding ?_ ?_
  · intro disk part holding
    refine holding.onOwn ?_
    intro journal kept
    cases part with
    | manifest => exact gone
    | _ => exact kept
  · intro disk holding
    exact holding.setOwn (by simp)

end

theorem Omits.spares {journal : Journal Hash Config} (omits : Omits name journal.manifest) :
    journal.Spares name hash :=
  fun manifest planned file member same => absurd same (omits manifest planned file member)

/-- The file has this hash. -/
abbrev Hashed (sha256 : Bytes → Hash) (name : String) (hash : Hash) (files : String → Option File) : Prop :=
  ((files name).map (·.bytes)).map sha256 = some hash

theorem hashed_update {files : String → Option File} {place : String} (other : place ≠ name)
    (file : Option File) (hashed : Hashed sha256 name hash files) :
    Hashed sha256 name hash (Function.update files place file) := by
  simpa [Hashed, Function.update_of_ne other.symm] using hashed

section
variable {own : Nat}

theorem Disk.Holding.guards (holding : disk.Holding (Hashed sha256 name hash) (Omits name) name hash own) :
    disk.Guards sha256 name hash where
  hashed := holding.files
  spared := by
    intro id journal held
    by_cases same : id = own
    · exact (holding.journal journal (same ▸ held)).spares
    · exact holding.others id journal same held

theorem Disk.Guards.holding (guards : disk.Guards sha256 name hash) (own : Nat) :
    disk.Holding (Hashed sha256 name hash) (fun _ => True) name hash own where
  files := guards.hashed
  journal := fun _ _ => trivial
  others := fun id journal _ held => guards.spared id journal held

theorem Disk.Holding.gone {Own : Option (JournalManifest Hash Config) → Prop}
    (holding : disk.Holding (Hashed sha256 name hash) Own name hash own)
    (gone : disk.journals own = none) : disk.Guards sha256 name hash where
  hashed := holding.files
  spared := by
    intro id journal held
    refine holding.others id journal ?_ held
    rintro rfl
    rw [gone] at held
    cases held

end

/-! ### A recovery -/

section
variable [DecidableEq Hash] {id : Nat} {parts : List Part}

theorem recoverJournal_guards (guards : disk.Guards sha256 name hash) :
    Ensures OrKilled (recoverJournal sha256 parts id) disk
      (fun _ reached => reached.Guards sha256 name hash)
      (fun _ reached => reached.hashOf sha256 name = some hash)
      (fun reached => reached.hashOf sha256 name = some hash) := by
  unfold recoverJournal
  refine Ensures.bind _ (readJournalManifest_ensures guards.hashed) ?_
  rintro planned _ ⟨rfl, same⟩
  cases planned with
  | none => exact Ensures.pure guards
  | some manifest =>
      obtain ⟨journal, held, planned⟩ := Option.bind_eq_some_iff.mp same.symm
      refine Ensures.bind _ (readCommitted_ensures held guards.hashed) ?_
      rintro _ _ ⟨rfl, rfl⟩
      have spares := guards.spared id journal held manifest planned
      refine Ensures.bind (fun _ reached => reached.Guards sha256 name hash)
        ((restoreJournalFiles_keeps _ guards ?_).mono (fun _ _ => fun guards => guards)
          (fun _ _ guards => guards.hashed) fun _ guards => guards.hashed) ?_
      · intro disk guards file member other unwanted content
        by_cases named : file.name = name
        · -- Recovery would have to replace what the journal spares
          rw [named, guards.hashed] at other unwanted
          exact absurd (spares file member named other.symm).symm unwanted
        · exact ⟨hashed_update named content guards.hashed, guards.spared⟩
      intro unresolved disk guards
      refine Ensures.bind (fun _ reached => reached.Guards sha256 name hash) ?_ ?_
      · unfold restoreOptions
        split
        · refine Ensures.bind (fun _ reached => reached.Guards sha256 name hash)
            (putSelection_orKilled ⟨guards.hashed, guards.spared⟩ guards.hashed) ?_
          intro _ _ guards
          exact Ensures.pure guards
        · exact Ensures.pure guards
      intro unresolved disk guards
      split
      · have moved : (disk.setJournal id none).Holding (Hashed sha256 name hash) (fun _ => True) name hash id :=
        (guards.holding id).setOwn (by simp)
        refine Ensures.bind (fun _ reached => reached.Guards sha256 name hash)
          (perform_orKilled ?_ guards.hashed) ?_
        · exact ⟨moved.files, (moved.gone (by simp [Disk.setJournal])).spared⟩
        · intro _ _ guards
          exact Ensures.pure guards
      · refine Ensures.bind (fun _ reached => reached.Guards sha256 name hash)
          (((guards.holding id).removeJournal (.inl rfl) trivial).mono
            (fun _ _ removed => removed.1.gone removed.2) (fun _ _ holding => holding.files)
            fun _ holding => holding.files) ?_
        intro _ _ guards
        exact Ensures.pure guards

theorem recoverJournals_guards {parts : Nat → List Part} (ids : List Nat)
    (guards : disk.Guards sha256 name hash) :
    Ensures OrKilled (recoverJournals sha256 parts ids) disk
      (fun _ reached => reached.hashOf sha256 name = some hash)
      (fun _ reached => reached.hashOf sha256 name = some hash)
      (fun reached => reached.hashOf sha256 name = some hash) := by
  induction ids generalizing disk with
  | nil => exact Ensures.pure guards.hashed
  | cons id rest ih =>
      refine Ensures.bind (fun value reached => disk = value ∧ disk = reached) (Ensures.look ⟨rfl, rfl⟩) ?_
      rintro _ _ ⟨rfl, rfl⟩
      split
      · exact ih guards
      · refine Ensures.bind _ (recoverJournal_guards guards) ?_
        intro outcome disk guards
        refine Ensures.bind _ (ih guards) ?_
        intro outcomes disk hashed
        exact Ensures.pure hashed

theorem runRecovery_guards {restart : Restart} (killed : ∀ fate ∈ restart.fates, OrKilled fate)
    (guards : disk.Guards sha256 name hash) :
    (runRecovery sha256 disk restart).hashOf sha256 name = some hash := by
  let Kept : Disk Hash Config → Prop := fun disk => disk.hashOf sha256 name = some hash
  have every : Ensures OrKilled (recoverStackWrites sha256 restart.listing) disk (fun _ => Kept)
      (fun _ => Kept) Kept := by
    refine Ensures.bind (fun _ reached => disk = reached)
      (ask_orKilled (fun _ _ => rfl) (fun _ held => by cases held) guards.hashed) ?_
    rintro _ _ rfl
    refine Ensures.bind _ (recoverJournals_guards restart.listing.journals guards) ?_
    intro outcomes disk hashed
    exact Ensures.pure hashed
  exact every.state_of killed

end

/-! ### A save -/

section
variable {Files : (String → Option File) → Prop} {Own : Option (JournalManifest Hash Config) → Prop}
  {own : Nat} {Kept : Disk Hash Config → Prop}

theorem journalVersions_holding {write : PendingWrite Hash}
    (settles : ∀ disk : Disk Hash Config, disk.Holding Files Own name hash own → Kept disk)
    (holding : disk.Holding Files Own name hash own) :
    Ensures Fate.Any (journalVersions own write) disk
      (fun _ reached => reached.Holding Files Own name hash own) (fun _ => Kept) Kept := by
  refine Ensures.bind (fun _ reached => reached.Holding Files Own name hash own) ?_ ?_
  · unfold journalBefore
    split
    · rename_i bytes _
      have taken : (disk.onJournal own fun journal => { journal with
          before := Function.update journal.before write.target.name (some bytes) }).Holding
          Files Own name hash own := holding.onOwn fun _ kept => kept
      exact perform_ensures any_ok taken (settles _ holding) fun _ => settles _ taken
    · exact Ensures.pure holding
  · intro _ disk holding
    have taken : (disk.onJournal own fun journal => { journal with
        after := Function.update journal.after write.target.name
          (some (encodeUtf8 write.target.content.toList)) }).Holding Files Own name hash own :=
      holding.onOwn fun _ kept => kept
    exact perform_ensures any_ok taken (settles _ holding) fun _ => settles _ taken

theorem openJournal_holding {pending : List (PendingWrite Hash)}
    {metadata : Option (StackWriteMetadata Config)}
    (settles : ∀ reached : Disk Hash Config,
      reached.Holding Files Own name hash disk.nextId → Kept reached)
    (files : Files disk.files) (empty : Own none) (planned : Own (some (journalManifest pending metadata)))
    (spared : ∀ id journal, disk.journals id = some journal → journal.Spares name hash)
    (kept : Kept disk) :
    Ensures Fate.Any (openJournal pending metadata) disk
      (fun opened reached => opened = (disk.nextId, journalManifest pending metadata) ∧
        reached.Holding Files Own name hash disk.nextId) (fun _ => Kept) Kept := by
  unfold openJournal
  refine Ensures.bind (fun value reached => disk = value ∧ disk = reached) (Ensures.look ⟨rfl, rfl⟩) ?_
  rintro _ _ ⟨rfl, rfl⟩
  have start : disk.Holding Files (fun _ => True) name hash disk.nextId :=
    ⟨files, fun _ _ => trivial, fun id journal _ held => spared id journal held⟩
  have made : { disk.setJournal disk.nextId (some {}) with nextId := disk.nextId + 1 }.Holding
      Files Own name hash disk.nextId := by
    refine ⟨files, ?_, (start.setOwn fun _ _ => trivial).others⟩
    intro journal held
    obtain rfl : {} = journal := by simpa [Disk.setJournal] using held
    exact empty
  refine Ensures.bind (fun _ reached => reached.Holding Files Own name hash disk.nextId)
    (perform_ensures any_ok made kept fun _ => settles _ made) ?_
  intro _ reached made
  refine Ensures.bind (fun _ reached => reached.Holding Files Own name hash disk.nextId)
    (ask_ensures any_ok (fun _ _ => made) (settles _ made)) ?_
  intro _ reached made
  refine Ensures.bind (fun _ reached => reached.Holding Files Own name hash disk.nextId) ?_ ?_
  · refine Ensures.forEach (fun _ (reached : Disk Hash Config) => reached.Holding Files Own name hash disk.nextId) made ?_
    intro _ write _ reached _ holding
    exact journalVersions_holding settles holding
  intro _ reached holding
  have taken : (reached.onJournal disk.nextId fun journal => { journal with
      manifest := some (journalManifest pending metadata) }).Holding Files Own name hash disk.nextId :=
    holding.onOwn fun _ _ => planned
  refine Ensures.bind (fun _ reached => reached.Holding Files Own name hash disk.nextId)
    (perform_ensures any_ok taken (settles _ holding) fun _ => settles _ taken) ?_
  intro _ reached holding
  exact Ensures.pure ⟨rfl, holding⟩

end

section
variable [DecidableEq Hash] {Files : List String → (String → Option File) → Prop}
  {Own : Option (JournalManifest Hash Config) → Prop} {own : Nat} {Kept : Disk Hash Config → Prop}
  {written : List String}

/-- The files are known by the names that were replaced. -/
theorem replaceFiles_holding
    (settles : ∀ written disk, Disk.Holding (Files written) Own name hash own disk → Kept disk)
    (pending : List (PendingWrite Hash))
    (replaced : ∀ write ∈ pending, ∀ written files mode, Files written files →
      Files (written ++ [write.target.name])
        (Function.update files write.target.name (some ⟨write.target.bytes, mode⟩)))
    (holding : disk.Holding (Files written) Own name hash own) :
    Ensures Fate.Any (replaceFiles sha256 pending written) disk
      (fun names reached => names = written ++ pending.map (·.target.name) ∧
        reached.Holding (Files names) Own name hash own)
      (fun _ reached => ∃ names, reached.Holding (Files names) Own name hash own) Kept := by
  induction pending generalizing written disk with
  | nil => exact Ensures.pure ⟨by simp, holding⟩
  | cons write rest ih =>
      obtain ⟨target, state, afterHash⟩ := write
      have kept := settles _ _ holding
      refine Ensures.bind
        (fun _ reached => Disk.Holding (Files (written ++ [target.name])) Own name hash own reached)
        (during_keeps ?_) ?_
      · let Failed : Disk Hash Config → Prop := fun reached =>
          ∃ names, reached.Holding (Files names) Own name hash own
        have failed : Failed disk := ⟨written, holding⟩
        have each : Ensures Fate.Any (do
            ask fun _ => .ok ()
            let current ← readStackFileState sha256 target.name
            refuseIf (if current.hash = state.hash then none else some (.conflict target.name))
            replaceFile target.name target.content.toList state.mode) disk
            (fun _ reached => Disk.Holding (Files (written ++ [target.name])) Own name hash own reached)
            (fun _ => Failed) Failed := by
          refine Ensures.bind (fun _ reached => disk = reached) (ask_ensures any_ok (fun _ _ => rfl) failed) ?_
          rintro _ _ rfl
          refine Ensures.bind (fun _ reached => disk = reached)
            (readStackFileState_ensures any_ok (fun _ _ _ _ => rfl) failed) ?_
          rintro _ _ rfl
          refine Ensures.bind (fun _ reached => disk = reached)
            (refuseIf_ensures (fun _ => rfl) fun _ => failed) ?_
          rintro _ _ rfl
          have next := holding.setFile (replaced _ List.mem_cons_self written disk.files
            (state.mode.getD defaultFileMode))
          exact perform_ensures any_ok next failed fun _ => ⟨_, next⟩
        exact each.mono (fun _ _ => id) (fun _ _ => id) fun _ ⟨names, held⟩ => settles names _ held
      intro _ disk holding
      refine Ensures.bind
        (fun _ reached => Disk.Holding (Files (written ++ [target.name])) Own name hash own reached)
        (during_keeps ?_) ?_
      · let Failed : Disk Hash Config → Prop := fun reached =>
          ∃ names, reached.Holding (Files names) Own name hash own
        have failed : Failed disk := ⟨_, holding⟩
        have each : Ensures Fate.Any (do
            let verified ← readStackFileState sha256 target.name
            refuseIf (if verified.hash = some afterHash then none else some (.conflict target.name))) disk
            (fun _ reached => Disk.Holding (Files (written ++ [target.name])) Own name hash own reached)
            (fun _ => Failed) Failed := by
          refine Ensures.bind (fun _ reached => disk = reached)
            (readStackFileState_ensures any_ok (fun _ _ _ _ => rfl) failed) ?_
          rintro _ _ rfl
          exact refuseIf_ensures (fun _ => holding) fun _ => failed
        exact each.mono (fun _ _ => id) (fun _ _ => id) fun _ ⟨names, held⟩ => settles names _ held
      intro _ disk holding
      exact (ih (fun write member => replaced write (List.mem_cons_of_mem _ member)) holding).mono
        (fun _ _ held => by simpa using held) (fun _ _ => id) fun _ => id

theorem commitWrite_holding
    (settles : ∀ written disk, Disk.Holding (Files written) Own name hash own disk → Kept disk)
    {pending : List (PendingWrite Hash)} {metadata : Option (StackWriteMetadata Config)}
    (replaced : ∀ write ∈ pending, ∀ written files mode, Files written files →
      Files (written ++ [write.target.name])
        (Function.update files write.target.name (some ⟨write.target.bytes, mode⟩)))
    (holding : disk.Holding (Files []) Own name hash own) :
    Ensures Fate.Any (commitWrite sha256 pending own metadata) disk
      (fun _ reached => reached.Holding (Files (pending.map (·.target.name))) Own name hash own)
      (fun _ reached => ∃ names, reached.Holding (Files names) Own name hash own) Kept := by
  refine Ensures.bind _ (replaceFiles_holding settles pending replaced holding) ?_
  rintro _ disk ⟨rfl, holding⟩
  rw [List.nil_append] at *
  let Done : Disk Hash Config → Prop := fun reached =>
    reached.Holding (Files (pending.map (·.target.name))) Own name hash own
  have keeps {progress : WriteProgress} {task : DiskTask Hash Config Unit} {disk : Disk Hash Config}
      (each : Ensures Fate.Any task disk (fun _ => Done) (fun _ => Done) Done) :
      Ensures Fate.Any (during progress task) disk (fun _ => Done)
        (fun _ reached => ∃ names, reached.Holding (Files names) Own name hash own) Kept :=
    during_keeps (each.mono (fun _ _ => id) (fun _ _ held => ⟨_, held⟩) fun _ => settles _ _)
  refine Ensures.bind (fun _ => Done) (keeps ?_) ?_
  · refine Ensures.bind (fun _ => Done) (ask_ensures any_ok (fun _ _ => holding) holding) ?_
    intro _ disk holding
    exact applyOptions_keeps holding (fun _ _ _ _ _ _ => { holding with }) fun _ => { holding with }
  intro _ disk holding
  have marked : (disk.onJournal own fun journal => { journal with committed := true }).Holding
      (Files (pending.map (·.target.name))) Own name hash own := holding.onOwn fun _ kept => kept
  have taken : Done { disk.onJournal own fun journal => { journal with committed := true } with
    marked := own :: disk.marked } := { marked with }
  exact keeps (perform_ensures any_ok taken holding fun _ => taken)

/-! ### A save that leaves the file out -/

/-- The file and the journals that spare it stay as they are. -/
abbrev Disk.Beside (sha256 : Bytes → Hash) (name : String) (hash : Hash) (own : Nat)
    (disk : Disk Hash Config) : Prop :=
  disk.Holding (Hashed sha256 name hash) (Omits name) name hash own

theorem undoWrite_beside {manifest : JournalManifest Hash Config} {written : List String}
    {parts : List Part} {cause : WriteError} (omits : Omits name (some manifest))
    (beside : disk.Beside sha256 name hash own) :
    Ensures Fate.Any (undoWrite sha256 own manifest written parts cause) disk
      (fun _ reached => reached.Beside sha256 name hash own)
      (fun _ reached => reached.Beside sha256 name hash own)
      (fun reached => reached.Beside sha256 name hash own) := by
  let Kept : Disk Hash Config → Prop := fun reached => reached.Beside sha256 name hash own
  refine Ensures.bind (fun _ => Kept) ?_ ?_
  · refine Ensures.orElse (fun _ => Kept) (Ensures.forEach (fun _ => Kept) beside ?_)
      fun _ _ kept => Ensures.fail kept
    intro _ place _ disk _ beside
    unfold undoFile
    split
    · exact Ensures.fail beside
    rename_i entry found
    have other : place ≠ name := by
      have present := omits manifest rfl entry (List.mem_of_find?_eq_some found)
      rwa [show entry.name = place by simpa using List.find?_some found] at present
    have put (file : Option File) : Kept (disk.setFile place file) :=
      beside.setFile (hashed_update other file)
    refine Ensures.bind (fun _ reached => disk = reached)
      (readStackFileState_ensures any_ok (fun _ _ _ _ => rfl) beside) ?_
    rintro _ _ rfl
    refine Ensures.bind (fun _ reached => disk = reached) (refuseIf_ensures (fun _ => rfl) fun _ => beside) ?_
    rintro _ _ rfl
    split
    · exact perform_ensures any_ok (put _) beside fun _ => put _
    · refine Ensures.bind (fun _ reached => disk = reached) (ask_ensures any_ok (fun _ _ => rfl) beside) ?_
      rintro _ _ rfl
      exact perform_ensures any_ok (put _) beside fun _ => put _
  · intro _ disk beside
    exact (beside.removeJournal any_ok (by simp [Omits])).mono (fun _ _ both => both.1)
      (fun _ _ => id) fun _ => id

theorem compensate_beside {manifest : JournalManifest Hash Config} {options : StackWriteOptions Config}
    {error : WriteError} {progress : WriteProgress} {returned : Unit → Disk Hash Config → Prop}
    (omits : Omits name (some manifest)) (beside : disk.Beside sha256 name hash own) :
    Ensures Fate.Any (compensate sha256 own manifest options error progress) disk returned
      (fun _ reached => reached.Beside sha256 name hash own)
      (fun reached => reached.Beside sha256 name hash own) := by
  let Kept : Disk Hash Config → Prop := fun reached => reached.Beside sha256 name hash own
  refine Ensures.bind (fun _ => Kept) ?_ ?_
  · unfold revertOptions
    split
    · refine Ensures.onlyIf (fun _ => ?_) fun _ => beside
      refine Ensures.bind (fun _ => Kept) (putSelection_ensures any_ok (fun _ _ _ => { beside with })
        (fun _ _ => beside) (fun _ => { beside with }) ⟨beside, beside⟩ ⟨{ beside with }, { beside with }⟩
        fun _ _ _ _ => ⟨{ beside with }, { beside with }⟩) ?_
      intro _ disk beside
      exact refuseIf_ensures (fun _ => beside) fun _ => beside
    · exact Ensures.pure beside
  intro _ disk beside
  refine Ensures.bind _ (undoWrite_beside omits beside) ?_
  intro _ disk beside
  exact Ensures.fail beside

/-- A compensation ends in the error it was called for. -/
theorem compensate_throws {manifest : JournalManifest Hash Config} {options : StackWriteOptions Config}
    {error : WriteError} {progress : WriteProgress} {returned : Unit → Disk Hash Config → Prop} :
    Ensures Fate.Any (compensate sha256 own manifest options error progress) disk returned
      (fun _ _ => True) (fun _ => True) :=
  Ensures.bind (fun _ _ => True) Ensures.trivial fun _ _ _ =>
    Ensures.bind (fun _ _ => True) Ensures.trivial fun _ _ _ => Ensures.fail trivial

/-- A later save of other files neither touches the file nor leaves a journal that names it. -/
theorem writeStackFiles_guards {targets : List (StackFileTarget Hash)} {options : StackWriteOptions Config}
    (unnamed : ∀ target ∈ targets, target.name ≠ name) (guards : disk.Guards sha256 name hash) :
    Ensures Fate.Any (writeStackFiles sha256 targets options) disk
      (fun _ reached => reached.Guards sha256 name hash) (fun _ reached => reached.Guards sha256 name hash)
      (fun reached => reached.Guards sha256 name hash) := by
  let Kept : Disk Hash Config → Prop := fun reached => reached.Guards sha256 name hash
  have settles (_ : List String) (reached : Disk Hash Config)
      (beside : reached.Beside sha256 name hash disk.nextId) : Kept reached := beside.guards
  refine Ensures.bind _ (validateTargets_ensures targets fun _ => guards) ?_
  rintro _ _ ⟨rfl, _⟩
  refine Ensures.bind (fun _ reached => disk = reached) (refuseIf_ensures (fun _ => rfl) fun _ => guards) ?_
  rintro _ _ rfl
  refine Ensures.bind _ (planWrite_ensures any_ok targets guards) ?_
  rintro ⟨hashes, pending⟩ _ ⟨rfl, planned, _⟩
  have elsewhere : ∀ write ∈ pending, write.target.name ≠ name := fun write member =>
    unnamed _ (planned.sub.subset (List.mem_map_of_mem member))
  have omits : Omits name (some (journalManifest pending options.metadata)) := by
    rintro _ ⟨⟩ file member
    obtain ⟨write, present, rfl⟩ := List.mem_map.mp member
    exact elsewhere write present
  dsimp only
  split
  · refine Ensures.bind (fun _ => Kept)
      (applyOptions_keeps guards (fun _ _ _ _ _ _ => ⟨guards.hashed, guards.spared⟩)
        fun _ => ⟨guards.hashed, guards.spared⟩) ?_
    intro _ disk guards
    exact Ensures.pure guards
  · refine Ensures.bind _ (openJournal_holding (settles []) guards.hashed (by simp [Omits]) omits
      guards.spared guards) ?_
    rintro ⟨_, _⟩ reached ⟨⟨⟩, beside⟩
    refine Ensures.bind (fun _ reached => reached.Beside sha256 name hash disk.nextId) ?_ ?_
    · refine Ensures.orElse _ (commitWrite_holding settles
        (fun write member _ _ _ hashed => hashed_update (elsewhere write member) _ hashed) beside) ?_
      rintro ⟨error, progress⟩ reached ⟨_, beside⟩
      exact (compensate_beside omits beside).mono (fun _ _ => id) (fun _ => settles [])
        (settles [])
    intro _ reached beside
    refine Ensures.bind (fun _ => Kept) ((beside.removeJournal any_ok (by simp [Omits])).mono
      (fun _ _ both => both.1.guards) (fun _ => settles []) (settles [])) ?_
    intro _ reached guards
    exact Ensures.pure guards

/-! ### The save that reported the hash -/

/-- These targets were replaced, and the others are as they were. -/
def Replaced (targets : List (StackFileTarget Hash)) (start : Disk Hash Config) (written : List String)
    (files : String → Option File) : Prop :=
  ∀ target ∈ targets, (files target.name).map (·.bytes) =
    if target.name ∈ written then some target.bytes else start.bytes target.name

omit [DecidableEq Hash] in
theorem Replaced.step {targets : List (StackFileTarget Hash)} {start : Disk Hash Config}
    {written : List String} {files : String → Option File} {target : StackFileTarget Hash} {mode : Nat}
    (distinct : (targets.map (·.name)).Nodup) (member : target ∈ targets)
    (replaced : Replaced targets start written files) :
    Replaced targets start (written ++ [target.name])
      (Function.update files target.name (some ⟨target.bytes, mode⟩)) := by
  intro other present
  by_cases same : other.name = target.name
  · rw [List.inj_on_of_nodup_map distinct present member same]
    simp
  · simpa [Function.update_of_ne same, same] using replaced other present

/-- After a save that returned, every file has the hash it reported, and no journal of its own
is left. -/
theorem writeStackFiles_reports {targets : List (StackFileTarget Hash)}
    {options : StackWriteOptions Config}
    (spared : ∀ id journal, disk.journals id = some journal → journal.Spares name hash) :
    Ensures Fate.Any (writeStackFiles sha256 targets options) disk
      (fun result reached => (name, hash) ∈ result.hashes → reached.Guards sha256 name hash)
      (fun _ _ => True) (fun _ => True) := by
  refine Ensures.bind _ (validateTargets_ensures targets fun _ => trivial) ?_
  rintro _ _ ⟨rfl, _⟩
  refine Ensures.bind (fun _ reached => disk = reached ∧ (targets.map (·.name)).Nodup)
    (refuseIf_ensures (fun passed => ⟨rfl, by simpa using passed⟩) fun _ => trivial) ?_
  rintro _ _ ⟨rfl, distinct⟩
  have always : (fun _ : Disk Hash Config => True) disk := trivial
  refine Ensures.bind _ (planWrite_ensures any_ok targets always) ?_
  rintro ⟨hashes, pending⟩ _ ⟨rfl, planned, same⟩
  dsimp only at same ⊢
  have asked : ∀ write ∈ pending, write.target ∈ targets := fun write member =>
    planned.sub.subset (List.mem_map_of_mem member)
  have reported : (name, hash) ∈ hashes →
      ∃ target ∈ targets, target.name = name ∧ sha256 target.bytes = hash := by
    intro member
    simpa [same] using member
  -- What the files hold once every pending one was replaced
  have replaced {files : String → Option File} (member : (name, hash) ∈ hashes)
      (done : Replaced targets disk (pending.map (·.target.name)) files) :
      Hashed sha256 name hash files := by
    obtain ⟨target, present, rfl, rfl⟩ := reported member
    have holds := done target present
    rcases planned.rest target present with ⟨write, found, rfl⟩ | held
    · rw [if_pos (List.mem_map_of_mem found)] at holds
      simp [Hashed, holds]
    · split at holds
      · simp [Hashed, holds]
      · rw [Hashed, holds]
        exact held
  split
  · rename_i empty
    obtain rfl : pending = [] := by simpa using empty
    let Kept : Disk Hash Config → Prop := fun reached =>
      (name, hash) ∈ hashes → reached.Guards sha256 name hash
    have start : Kept disk := fun member => ⟨replaced member fun _ _ => by simp [Disk.bytes], spared⟩
    refine Ensures.bind (fun _ => Kept) ((applyOptions_keeps start
      (fun _ _ _ _ _ _ member => ⟨(start member).hashed, spared⟩)
      fun _ member => ⟨(start member).hashed, spared⟩).mono (fun _ _ => id) (fun _ _ _ => trivial) fun _ _ => trivial) ?_
    intro _ reached kept
    exact Ensures.pure kept
  · have start : Replaced targets disk [] disk.files := fun _ _ => by simp [Disk.bytes]
    have opened := @openJournal_holding Hash Config name hash disk (Replaced targets disk [])
      (fun _ => True) (fun _ => True) pending options.metadata (fun _ _ => trivial) start trivial trivial
      spared trivial
    refine Ensures.bind _ opened ?_
    rintro ⟨_, _⟩ reached ⟨⟨⟩, holding⟩
    refine Ensures.bind (fun _ reached => reached.Holding
      (Replaced targets disk (pending.map (·.target.name))) (fun _ => True) name hash disk.nextId) ?_ ?_
    · refine Ensures.orElse _ (commitWrite_holding (fun _ _ _ => trivial)
        (fun write member _ _ _ => Replaced.step distinct (asked write member)) holding) ?_
      intro _ reached _
      exact compensate_throws
    intro _ reached holding
    refine Ensures.bind _ ((holding.removeJournal any_ok trivial).mono (fun _ _ => id)
      (fun _ _ _ => trivial) fun _ _ => trivial) ?_
    rintro _ reached ⟨holding, gone⟩
    refine Ensures.pure fun member => ?_
    have hashed : reached.Holding (Hashed sha256 name hash) (fun _ => True) name hash disk.nextId :=
      { holding with files := replaced member holding.files }
    exact hashed.gone gone

end

/-! ### Saves, and a restart after them -/

/-- One call of `writeStackFiles`, and what happens to its operations. -/
structure Call (Hash Config : Type) where
  targets : List (StackFileTarget Hash)
  options : StackWriteOptions Config
  fates : List Fate

section
variable [DecidableEq Hash]

def runCall (sha256 : Bytes → Hash) (disk : Disk Hash Config) (call : Call Hash Config) : Disk Hash Config :=
  (writeStackFiles sha256 call.targets call.options call.fates disk).state

/-- The call returned, and reported this hash of the file. -/
def Call.Reports (sha256 : Bytes → Hash) (disk : Disk Hash Config) (call : Call Hash Config)
    (name : String) (hash : Hash) : Prop :=
  ∃ result, (writeStackFiles sha256 call.targets call.options call.fates disk).ending = .done result ∧
    (name, hash) ∈ result.hashes

/-- The last save that named the file returned this hash of it.  Unless a journal that was left
before that save takes this very version for one to replace, the restart keeps it, whatever became
of the saves before and after. -/
theorem saved_survives_restart (start : Disk Hash Config) (before : List (Call Hash Config))
    (call : Call Hash Config) (after : List (Call Hash Config)) (name : String) (hash : Hash)
    (reported : call.Reports sha256 (replay (runCall sha256) start before) name hash)
    (last : ∀ later ∈ after, ∀ target ∈ later.targets, target.name ≠ name)
    (spared : ∀ id journal, (replay (runCall sha256) start before).journals id = some journal →
      journal.Spares name hash)
    (restart : Restart) (killed : ∀ fate ∈ restart.fates, OrKilled fate) :
    (runRecovery sha256 (replay (runCall sha256) start (before ++ call :: after)) restart).hashOf sha256
      name = some hash := by
  refine runRecovery_guards killed ?_
  rw [replay_append, replay_cons]
  generalize replay (runCall sha256) start before = disk at reported spared ⊢
  have saved : (runCall sha256 disk call).Guards sha256 name hash := by
    obtain ⟨result, returned, member⟩ := reported
    have every : Ensures Fate.Any (writeStackFiles sha256 call.targets call.options) disk _ _ _ :=
      writeStackFiles_reports spared
    have met := (every call.fates fun _ _ => trivial).1
    rw [Outcome.Meets, returned] at met
    exact met member
  clear reported spared
  generalize runCall sha256 disk call = disk at saved ⊢
  induction after generalizing disk with
  | nil => exact saved
  | cons later rest ih =>
      refine ih (fun later member => last later (List.mem_cons_of_mem _ member)) (runCall sha256 disk later) ?_
      exact (writeStackFiles_guards (last later List.mem_cons_self) saved).state_of fun _ _ => trivial

def sampleCall (fates : List Fate) : Call Bytes String :=
  { targets := [{ name := ".env", content := "A=1" }]
    options := { metadata := none, parts := [] }
    fates }

/-- A save that returned, alone before a restart. -/
theorem saved_survives_restart_alone :
    (runRecovery id (replay (runCall id) (sampleDisk [0x42]) ([] ++ [sampleCall []])) sampleRestart).hashOf id
      ".env" = some [0x41, 0x3D, 0x31] := by
  have reported : (sampleCall []).Reports id (replay (runCall id) (sampleDisk [0x42]) []) ".env"
      [0x41, 0x3D, 0x31] := ⟨_, rfl, by decide +kernel⟩
  have survives := @saved_survives_restart Bytes String id _ (sampleDisk [0x42]) [] (sampleCall []) []
    ".env" [0x41, 0x3D, 0x31] reported (by simp) (by simp [sampleDisk]) sampleRestart
    (by simp [sampleRestart])
  exact survives

/-- The commit marker and the undo of a first save fail, so that its journal stays; a second save of
the same text finds nothing to do and returns; the restart puts the old text back. -/
theorem saved_not_durable :
    let failed := sampleCall (List.replicate 11 .ok ++ [.fail, .ok, .ok, .fail])
    let start := sampleDisk [0x42]
    (sampleCall []).Reports id (replay (runCall id) start [failed]) ".env" [0x41, 0x3D, 0x31] ∧
      (runRecovery id (replay (runCall id) start [failed, sampleCall []]) sampleRestart).hashOf id ".env" =
        some [0x42] :=
  ⟨⟨_, rfl, by decide +kernel⟩, by decide +kernel⟩

end

end Dockge.StackWrite
