import Dockge.StackWrite.Writing

namespace Dockge.StackWrite

open Dockge.Data

/-! Recovery of one journal: of another write, or of this one. -/

variable {Hash Config : Type} [DecidableEq Hash] {sha256 : Bytes → Hash} {save : Save Hash Config}
  {disk : Disk Hash Config}

/-! ### What a recovery reads -/

omit [DecidableEq Hash] in
theorem readJournalManifest_ensures {Kept : Disk Hash Config → Prop} {id : Nat}
    {threw : WriteError → Disk Hash Config → Prop} (kept : Kept disk) :
    Ensures OrKilled (readJournalManifest id) disk
      (fun manifest reached => disk = reached ∧ manifest = (disk.journals id).bind (·.manifest))
      threw Kept := by
  refine Ensures.bind (fun tried reached => disk = reached ∧
    tried.toOption = (disk.journals id).bind (·.manifest)) (Ensures.attempt (ask_orKilled ?_ ?_ kept)) ?_
  · intro manifest held
    cases planned : (disk.journals id).bind (·.manifest) with
    | none => simp [planned] at held
    | some found =>
        simp only [planned, Except.ok.injEq] at held
        exact ⟨rfl, congrArg some held.symm⟩
  · intro error held
    cases planned : (disk.journals id).bind (·.manifest) with
    | none => exact ⟨rfl, rfl⟩
    | some found => simp [planned] at held
  · rintro tried _ ⟨rfl, same⟩
    cases tried with
    | ok manifest => exact Ensures.pure ⟨rfl, same⟩
    | error error => exact Ensures.pure ⟨rfl, same⟩

omit [DecidableEq Hash] in
theorem readCommitted_ensures {Kept : Disk Hash Config → Prop} {id : Nat} {journal : Journal Hash Config}
    {threw : WriteError → Disk Hash Config → Prop} (held : disk.journals id = some journal)
    (kept : Kept disk) :
    Ensures OrKilled (readCommitted id) disk
      (fun committed reached => disk = reached ∧ committed = journal.committed) threw Kept := by
  refine Ensures.bind (fun tried reached => disk = reached ∧ tried.isOk = journal.committed)
    (Ensures.attempt (ask_orKilled ?_ ?_ kept)) ?_
  · intro _ answered
    obtain ⟨_, committed, _, _⟩ := journal
    cases committed with
    | true => exact ⟨rfl, rfl⟩
    | false => simp [held] at answered
  · intro _ answered
    obtain ⟨_, committed, _, _⟩ := journal
    cases committed with
    | true => simp [held] at answered
    | false => exact ⟨rfl, rfl⟩
  · rintro tried _ ⟨rfl, same⟩
    cases tried with
    | ok _ => exact Ensures.pure ⟨rfl, same⟩
    | error _ => exact Ensures.pure ⟨rfl, same⟩

/-- A file is replaced only where it holds the version recovery replaces. -/
theorem restoreJournalFile_keeps {Kept : Disk Hash Config → Prop} {id : Nat} {committed : Bool}
    {file : JournalFile Hash} (kept : Kept disk)
    (writes : disk.hashOf sha256 file.name = file.other committed →
      disk.hashOf sha256 file.name ≠ file.wanted committed →
      ∀ content, Kept (disk.setFile file.name content)) :
    Ensures OrKilled (restoreJournalFile sha256 id committed file) disk (fun _ => Kept) (fun _ => Kept) Kept := by
  unfold restoreJournalFile
  refine Ensures.bind (fun tried reached => disk = reached ∧ ∀ state, tried = .ok state →
    state.hash = disk.hashOf sha256 file.name) (Ensures.attempt (ask_orKilled ?_ ?_ kept)) ?_
  · intro state held
    refine ⟨rfl, ?_⟩
    rintro _ ⟨⟩
    exact (readStackFileState_answer held).1
  · exact fun _ _ => ⟨rfl, by simp⟩
  rintro tried _ ⟨rfl, hash⟩
  cases tried with
  | error error => exact Ensures.pure kept
  | ok current =>
      have same := hash current rfl
      dsimp only
      split
      · exact Ensures.pure kept
      rename_i unwanted
      split
      · exact Ensures.pure kept
      rename_i other
      have replaced := writes (by rw [← same]; exact not_not.mp other) (by rwa [← same])
      refine Ensures.bind (fun _ => Kept) (Ensures.attempt ?_) ?_
      · split
        · exact perform_orKilled (replaced _) kept
        · refine Ensures.bind (fun _ reached => disk = reached)
            (ask_orKilled (fun _ _ => rfl) (fun _ _ => kept) kept) ?_
          rintro text _ rfl
          exact perform_orKilled (replaced _) kept
      · intro tried disk kept
        cases tried with
        | ok _ => exact Ensures.pure kept
        | error _ => exact Ensures.pure kept

theorem restoreJournalFiles_keeps {Kept : Disk Hash Config → Prop} {id : Nat} {committed : Bool}
    (files : List (JournalFile Hash)) (kept : Kept disk)
    (writes : ∀ disk, Kept disk → ∀ file ∈ files,
      disk.hashOf sha256 file.name = file.other committed →
      disk.hashOf sha256 file.name ≠ file.wanted committed →
      ∀ content, Kept (disk.setFile file.name content)) :
    Ensures OrKilled (restoreJournalFiles sha256 id committed files) disk (fun _ => Kept) (fun _ => Kept)
      Kept := by
  induction files generalizing disk with
  | nil => exact Ensures.pure kept
  | cons file rest ih =>
      refine Ensures.bind (fun _ => Kept)
        (restoreJournalFile_keeps kept (writes disk kept file List.mem_cons_self)) ?_
      intro _ disk kept
      refine Ensures.bind (fun _ => Kept) (ih kept fun disk kept file member =>
        writes disk kept file (List.mem_cons_of_mem _ member)) ?_
      intro _ disk kept
      exact Ensures.pure kept

/-! ### Journals of other writes -/

/-- The same to this write. -/
structure Save.Agrees (save : Save Hash Config) (before after : Disk Hash Config) : Prop where
  bytes : ∀ target ∈ save.targets, after.bytes target.name = before.bytes target.name
  selected : ∀ metadata, save.metadata = some metadata →
    after.selections metadata.stack = before.selections metadata.stack
  own : after.journals save.own = before.journals save.own
  marked : after.marked = before.marked
  misread : after.misread = before.misread
  others : save.OthersUnrelated after

section
variable {before : Disk Hash Config}

omit [DecidableEq Hash] in
theorem Save.Agrees.refl (others : save.OthersUnrelated disk) : save.Agrees disk disk :=
  ⟨fun _ _ => rfl, fun _ _ => rfl, rfl, rfl, rfl, others⟩

omit [DecidableEq Hash] in
theorem Save.Agrees.undone (agrees : save.Agrees before disk) (undone : save.Undone sha256 before) :
    save.Undone sha256 disk where
  old := fun target member => (agrees.bytes target member).trans (undone.old target member)
  selected := fun read metadata same => (agrees.selected metadata same).trans
    (undone.selected (agrees.misread ▸ read) metadata same)
  unmarked := agrees.marked ▸ undone.unmarked
  journal := fun journal held => undone.journal journal (agrees.own ▸ held)
  others := agrees.others

omit [DecidableEq Hash] in
theorem Save.Agrees.done (agrees : save.Agrees before disk) (done : save.Done sha256 before) :
    save.Done sha256 disk where
  new := fun target member => (agrees.bytes target member).trans (done.new target member)
  selected := fun metadata same => (agrees.selected metadata same).trans (done.selected metadata same)
  journal := fun journal held => agrees.marked ▸ done.journal journal (agrees.own ▸ held)
  others := agrees.others

omit [DecidableEq Hash] in
theorem Save.Agrees.underway (agrees : save.Agrees before disk) (underway : save.Underway sha256 before) :
    save.Underway sha256 disk where
  either := by
    intro target member
    rw [agrees.bytes target member]
    exact underway.either target member
  unmarked := agrees.marked ▸ underway.unmarked
  journal := agrees.own ▸ underway.journal
  others := agrees.others

omit [DecidableEq Hash] in
theorem Save.Agrees.setFile {name : String} (agrees : save.Agrees before disk)
    (foreign : ∀ target ∈ save.targets, name ≠ target.name) (content : Option File) :
    save.Agrees before (disk.setFile name content) :=
  { agrees with
    bytes := by
      intro target member
      have different : target.name ≠ name := fun same => foreign target member same.symm
      have kept := agrees.bytes target member
      simpa [Disk.bytes, Disk.setFile, Function.update_of_ne different] using kept }

omit [DecidableEq Hash] in
theorem Save.Agrees.setOther {id : Nat} (agrees : save.Agrees before disk) (other : id ≠ save.own)
    (journal : Option (Journal Hash Config))
    (unrelated : ∀ found, journal = some found → save.Unrelated found) :
    save.Agrees before (disk.setJournal id journal) :=
  { agrees with
    own := by
      have kept := agrees.own
      simpa [Disk.setJournal, Function.update_of_ne other.symm] using kept
    others := by
      intro place found different held
      by_cases same : place = id
      · rw [same] at held
        exact unrelated found (by simpa [Disk.setJournal] using held)
      · exact agrees.others place found different
          (by simpa [Disk.setJournal, Function.update_of_ne same] using held) }

omit [DecidableEq Hash] in
theorem Save.Unrelated.drop {journal : Journal Hash Config} (unrelated : save.Unrelated journal)
    (part : Part) : save.Unrelated (journal.drop part) :=
  fun manifest held => unrelated manifest (drop_manifest held)

omit [DecidableEq Hash] in
theorem Save.Agrees.removeOther {id : Nat} {parts : List Part} (agrees : save.Agrees before disk)
    (other : id ≠ save.own) :
    Ensures OrKilled (removeJournal parts id) disk (fun _ => save.Agrees before)
      (fun _ => save.Agrees before) (save.Agrees before) := by
  refine (removeJournal_ensures (.inl rfl) agrees ?_ ?_).mono (fun _ _ both => both.1)
    (fun _ _ held => held) fun _ held => held
  · intro disk part agrees
    refine agrees.setOther other _ ?_
    intro found held
    obtain ⟨journal, same, rfl⟩ := Option.map_eq_some_iff.mp held
    exact (agrees.others id journal other same).drop part
  · intro disk agrees
    exact agrees.setOther other none (by simp)

/-- A journal of another write is finished or undone beside this one. -/
theorem recoverJournal_agrees {id : Nat} {parts : List Part} (others : save.OthersUnrelated disk)
    (other : id ≠ save.own) :
    Ensures OrKilled (recoverJournal sha256 parts id) disk (fun _ => save.Agrees disk)
      (fun _ => save.Agrees disk) (save.Agrees disk) := by
  have start : save.Agrees disk disk := .refl others
  unfold recoverJournal
  refine Ensures.bind _ (readJournalManifest_ensures start) ?_
  rintro planned _ ⟨rfl, same⟩
  cases planned with
  | none => exact Ensures.pure start
  | some manifest =>
      obtain ⟨journal, held, planned⟩ := Option.bind_eq_some_iff.mp same.symm
      obtain ⟨foreign, elsewhere⟩ := others id journal other held manifest planned
      refine Ensures.bind _ (readCommitted_ensures held start) ?_
      rintro committed _ ⟨rfl, _⟩
      refine Ensures.bind (fun _ => save.Agrees disk) (restoreJournalFiles_keeps _ start
        fun _ agrees file member _ _ content => agrees.setFile (foreign file member) content) ?_
      intro unresolved reached agrees
      refine Ensures.bind (fun _ => save.Agrees disk) ?_ ?_
      · unfold restoreOptions
        split
        · rename_i metadata belongs
          refine Ensures.bind (fun _ => save.Agrees disk)
            (putSelection_orKilled { agrees with selected := ?_ } agrees) ?_
          · intro found same
            have different := elsewhere metadata found belongs same
            simpa [Function.update_of_ne different.symm] using agrees.selected found same
          · intro _ _ agrees
            exact Ensures.pure agrees
        · exact Ensures.pure agrees
      intro unresolved reached agrees
      split
      · refine Ensures.bind (fun _ => save.Agrees disk) (perform_orKilled ?_ agrees) ?_
        · have removed := agrees.setOther other none (by simp)
          exact { removed with }
        · intro _ _ agrees
          exact Ensures.pure agrees
      · refine Ensures.bind (fun _ => save.Agrees disk) (agrees.removeOther other) ?_
        intro _ _ agrees
        exact Ensures.pure agrees

end

/-! ### The journal of this write -/

/-- The journal of a committed write keeps its marker as long as its manifest. -/
def Save.Unharmed (save : Save Hash Config) (disk : Disk Hash Config) : Prop :=
  save.own ∈ disk.marked → ∀ journal, disk.journals save.own = some journal →
    journal.manifest.isSome → journal.committed = true

/-- The write is not under way, and no recovery takes it for one that is. -/
inductive Save.Settled (sha256 : Bytes → Hash) (save : Save Hash Config) (disk : Disk Hash Config) : Prop where
  | undone (undone : save.Undone sha256 disk)
  | done (done : save.Done sha256 disk) (unharmed : save.Unharmed disk)

/-- What a recovery may start from. -/
inductive Save.Recovering (sha256 : Bytes → Hash) (save : Save Hash Config) (disk : Disk Hash Config) : Prop where
  | settled (settled : save.Settled sha256 disk)
  | underway (underway : save.Underway sha256 disk)

section
variable {id : Nat} {parts : List Part}

omit [DecidableEq Hash] in
theorem Save.Settled.lands (settled : save.Settled sha256 disk) : save.Lands sha256 disk := by
  cases settled with
  | undone undone => exact .undone undone
  | done done _ => exact .done done

omit [DecidableEq Hash] in
theorem Save.Recovering.lands (recovering : save.Recovering sha256 disk) : save.Lands sha256 disk := by
  cases recovering with
  | settled settled => exact settled.lands
  | underway underway => exact .underway underway

omit [DecidableEq Hash] in
theorem Save.Lands.recovering (lands : save.Lands sha256 disk) (unharmed : save.Unharmed disk) :
    save.Recovering sha256 disk := by
  cases lands with
  | undone undone => exact .settled (.undone undone)
  | done done => exact .settled (.done done unharmed)
  | underway underway => exact .underway underway

omit [DecidableEq Hash] in
/-- No file changes where all hold the version recovery wants. -/
theorem Save.Describes.hash_wanted {manifest : JournalManifest Hash Config} {file : JournalFile Hash}
    {committed : Bool} (describes : save.Describes sha256 manifest) (member : file ∈ manifest.files)
    (holds : if committed then save.HoldsNew disk else save.HoldsOld disk) :
    disk.hashOf sha256 file.name = file.wanted committed := by
  obtain ⟨target, asked, same, beforeHash, afterHash, _⟩ := describes.each file member
  cases committed with
  | true =>
      have new : save.HoldsNew disk := holds
      rw [JournalFile.wanted, if_pos rfl, same, Disk.hashOf, new target asked, afterHash]
      rfl
  | false =>
      have old : save.HoldsOld disk := holds
      rw [JournalFile.wanted, if_neg (by simp), same, Disk.hashOf, old target asked, beforeHash]
      rfl

theorem restoreJournalFiles_settled {manifest : JournalManifest Hash Config} (committed : Bool)
    (describes : save.Describes sha256 manifest)
    (holds : if committed then save.HoldsNew disk else save.HoldsOld disk) :
    Ensures OrKilled (restoreJournalFiles sha256 id committed manifest.files) disk
      (fun _ reached => disk = reached) (fun _ reached => disk = reached) (disk = ·) := by
  refine restoreJournalFiles_keeps _ rfl ?_
  rintro _ rfl file member _ unwanted
  exact absurd (describes.hash_wanted member holds) unwanted

omit [DecidableEq Hash] in
theorem Save.Undone.setSelection (undone : save.Undone sha256 disk) {metadata : StackWriteMetadata Config}
    (belongs : save.metadata = some metadata) :
    save.Undone sha256
      { disk with selections := Function.update disk.selections metadata.stack metadata.before } where
  old := undone.old
  selected := by
    intro _ found same
    rw [belongs] at same
    cases same
    simp
  unmarked := undone.unmarked
  journal := undone.journal
  others := undone.others

omit [DecidableEq Hash] in
theorem Save.Done.setSelection (done : save.Done sha256 disk) {metadata : StackWriteMetadata Config}
    (belongs : save.metadata = some metadata) :
    save.Done sha256
      { disk with selections := Function.update disk.selections metadata.stack (some metadata.after) } where
  new := done.new
  selected := by
    intro found same
    rw [belongs] at same
    cases same
    simp
  journal := done.journal
  others := done.others

omit [DecidableEq Hash] in
theorem restoreOptions_ensures {metadata : Option (StackWriteMetadata Config)} {committed unresolved : Bool}
    {Kept : Disk Hash Config → Prop} {threw : WriteError → Disk Hash Config → Prop} (kept : Kept disk)
    (stored : ∀ belongs, metadata = some belongs → Kept { disk with
      selections := Function.update disk.selections belongs.stack
        (if committed then some belongs.after else belongs.before) }) :
    Ensures OrKilled (restoreOptions unresolved metadata committed) disk
      (fun left reached => left = unresolved ∧ Kept reached ∧ (unresolved = false →
        ∀ belongs, metadata = some belongs → reached = { disk with
          selections := Function.update disk.selections belongs.stack
            (if committed then some belongs.after else belongs.before) }))
      threw Kept := by
  unfold restoreOptions
  split
  · rename_i belongs
    refine Ensures.bind (fun did reached => did = true ∧ reached = { disk with
      selections := Function.update disk.selections belongs.stack
        (if committed then some belongs.after else belongs.before) })
      (putSelection_orKilled ⟨rfl, rfl⟩ kept) ?_
    rintro _ _ ⟨rfl, rfl⟩
    refine Ensures.pure ⟨rfl, stored belongs rfl, ?_⟩
    rintro _ _ ⟨⟩
    rfl
  · rename_i skipped
    refine Ensures.pure ⟨rfl, kept, ?_⟩
    intro resolved belongs same
    exact (skipped belongs resolved same).elim

omit [DecidableEq Hash] in
/-- A journal that is moved aside is gone from the directory. -/
theorem Save.Undone.moveAside (undone : save.Undone sha256 disk)
    (unresolved : Nat → Option (Journal Hash Config)) :
    save.Undone sha256 { disk.setJournal save.own none with unresolved } :=
  { undone.remove with }

omit [DecidableEq Hash] in
theorem Save.Done.moveAside (done : save.Done sha256 disk)
    (unresolved : Nat → Option (Journal Hash Config)) :
    save.Done sha256 { disk.setJournal save.own none with unresolved } :=
  { done.remove with }

/-- Where nothing of the write is left, its recovery leaves nothing of it. -/
theorem recoverJournal_undone (undone : save.Undone sha256 disk) :
    Ensures OrKilled (recoverJournal sha256 parts save.own) disk (fun _ => save.Undone sha256)
      (fun _ => save.Undone sha256) (save.Undone sha256) := by
  unfold recoverJournal
  refine Ensures.bind _ (readJournalManifest_ensures undone) ?_
  rintro planned _ ⟨rfl, same⟩
  cases planned with
  | none => exact Ensures.pure undone
  | some manifest =>
      obtain ⟨journal, held, planned⟩ := Option.bind_eq_some_iff.mp same.symm
      obtain ⟨uncommitted, described⟩ := undone.journal journal held
      have describes := described manifest planned
      refine Ensures.bind _ (readCommitted_ensures held undone) ?_
      rintro committed _ ⟨rfl, rfl⟩
      rw [uncommitted]
      refine Ensures.bind (fun _ reached => disk = reached) ((restoreJournalFiles_settled false describes
        undone.old).mono (fun _ _ => id) (fun _ _ same => same ▸ undone) fun _ same => same ▸ undone) ?_
      rintro unresolved _ rfl
      refine Ensures.bind (fun _ => save.Undone sha256) ((restoreOptions_ensures undone ?_).mono
        (fun _ _ post => post.2.1) (fun _ _ => id) fun _ => id) ?_
      · intro metadata belongs
        exact undone.setSelection (describes.metadata ▸ belongs)
      intro unresolved disk undone
      split
      · refine Ensures.bind (fun _ => save.Undone sha256) (perform_orKilled (undone.moveAside _) undone) ?_
        intro _ _ undone
        exact Ensures.pure undone
      · refine Ensures.bind _ (undone.removeJournal (.inl rfl)) ?_
        rintro _ _ ⟨undone, _⟩
        exact Ensures.pure undone

/-- A committed write is finished. -/
theorem recoverJournal_done (done : save.Done sha256 disk) (unharmed : save.Unharmed disk) :
    Ensures OrKilled (recoverJournal sha256 parts save.own) disk
      (fun _ reached => save.Done sha256 reached ∧ save.Unharmed reached) (fun _ => save.Done sha256)
      (save.Done sha256) := by
  unfold recoverJournal
  refine Ensures.bind _ (readJournalManifest_ensures done) ?_
  rintro planned _ ⟨rfl, same⟩
  cases planned with
  | none => exact Ensures.pure ⟨done, unharmed⟩
  | some manifest =>
      obtain ⟨journal, held, planned⟩ := Option.bind_eq_some_iff.mp same.symm
      obtain ⟨marked, described⟩ := done.journal journal held
      have describes := described manifest planned
      have committed := unharmed marked journal held (by simp [planned])
      refine Ensures.bind _ (readCommitted_ensures held done) ?_
      rintro _ _ ⟨rfl, rfl⟩
      rw [committed]
      refine Ensures.bind (fun _ reached => disk = reached) ((restoreJournalFiles_settled true describes
        done.new).mono (fun _ _ => id) (fun _ _ same => same ▸ done) fun _ same => same ▸ done) ?_
      rintro unresolved _ rfl
      refine Ensures.bind (fun _ => save.Done sha256) ((restoreOptions_ensures done ?_).mono
        (fun _ _ post => post.2.1) (fun _ _ => id) fun _ => id) ?_
      · intro metadata belongs
        exact done.setSelection (describes.metadata ▸ belongs)
      intro unresolved disk done
      have gone {disk : Disk Hash Config} (none_left : disk.journals save.own = none) : save.Unharmed disk := by
        intro _ journal held
        simp [none_left] at held
      split
      · refine Ensures.bind (fun _ reached => save.Done sha256 reached ∧ save.Unharmed reached)
          (perform_orKilled ⟨done.moveAside _, gone (by simp [Disk.setJournal])⟩ done) ?_
        intro _ _ both
        exact Ensures.pure both
      · refine Ensures.bind _ (done.removeJournal (.inl rfl)) ?_
        rintro _ _ ⟨done, none_left⟩
        exact Ensures.pure ⟨done, gone none_left⟩

end

end Dockge.StackWrite
