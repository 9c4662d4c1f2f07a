import Dockge.Data.History
import Dockge.StackWrite.Recovering

namespace Dockge.StackWrite

open Dockge.Data

/-! A write that was stopped anywhere, and the recoveries that follow it. -/

variable {Hash Config : Type} [DecidableEq Hash] {sha256 : Bytes → Hash} {save : Save Hash Config}
  {disk : Disk Hash Config}

/-! ### A write is rolled back -/

/-- The files of these names are back. -/
structure Save.Rolling (sha256 : Bytes → Hash) (save : Save Hash Config)
    (manifest : JournalManifest Hash Config) (names : List String) (disk : Disk Hash Config) : Prop where
  underway : save.Underway sha256 disk
  back : ∀ target ∈ save.targets, target.name ∈ names →
    disk.bytes target.name = save.start.bytes target.name
  journal : ∃ journal, disk.journals save.own = some journal ∧ save.Restores sha256 journal manifest

section
variable {manifest : JournalManifest Hash Config} {names : List String}

omit [DecidableEq Hash] in
theorem Save.Rolling.setOld {name : String} {file : Option File}
    (rolling : save.Rolling sha256 manifest names disk)
    (old : file.map (·.bytes) = save.start.bytes name) :
    save.Rolling sha256 manifest (names ++ [name]) (disk.setFile name file) where
  underway := { rolling.underway with
    either := by
      intro target member
      by_cases same : target.name = name
      · exact .inl (by simpa [Disk.bytes, Disk.setFile, same] using old)
      · simpa [Disk.bytes, Disk.setFile, Function.update_of_ne same] using
          rolling.underway.either target member }
  back := by
    intro target member present
    by_cases same : target.name = name
    · simpa [Disk.bytes, Disk.setFile, same] using old
    · simpa [Disk.bytes, Disk.setFile, Function.update_of_ne same] using
        rolling.back target member (by simpa [same] using present)
  journal := rolling.journal

omit [DecidableEq Hash] in
theorem Save.Rolling.keep {name : String} (rolling : save.Rolling sha256 manifest names disk)
    (old : disk.bytes name = save.start.bytes name) :
    save.Rolling sha256 manifest (names ++ [name]) disk where
  underway := rolling.underway
  back := by
    intro target member present
    by_cases same : target.name = name
    · rw [same]
      exact old
    · exact rolling.back target member (by simpa [same] using present)
  journal := rolling.journal

/-- One file of an uncommitted write goes back, whichever version it holds. -/
theorem restoreJournalFile_rolls {file : JournalFile Hash}
    (survives : ∀ target ∈ save.targets, ∀ bytes, save.start.bytes target.name = some bytes →
      transcode bytes = bytes)
    (rolling : save.Rolling sha256 manifest names disk) (member : file ∈ manifest.files) :
    Ensures OrKilled (restoreJournalFile sha256 save.own false file) disk
      (fun unresolved reached => unresolved = false ∧
        save.Rolling sha256 manifest (names ++ [file.name]) reached)
      (fun _ => save.Reverting sha256) (save.Reverting sha256) := by
  have lands : save.Reverting sha256 disk := .underway rolling.underway
  obtain ⟨journal, held, restores⟩ := rolling.journal
  obtain ⟨target, asked, same, beforeHash, afterHash, differs⟩ := restores.describes.each file member
  have either := rolling.underway.either target asked
  rw [← same] at either beforeHash
  obtain ⟨newSmall, oldSmall⟩ := restores.describes.sized target asked
  unfold restoreJournalFile
  refine Ensures.bind (fun tried reached => disk = reached ∧ ∃ state, tried = .ok state ∧
    state.hash = disk.hashOf sha256 file.name) (Ensures.attempt (ask_orKilled ?_ ?_ lands)) ?_
  · intro state answered
    exact ⟨rfl, state, rfl, (readStackFileState_answer answered).1⟩
  · -- Either version is small enough to be read
    intro error answered
    have small : ∀ bytes, disk.bytes file.name = some bytes → bytes.length ≤ maxFileBytes := by
      intro bytes holds
      rcases either with old | new
      · exact oldSmall bytes (by rw [← same, ← old, holds])
      · rw [new] at holds
        cases holds
        exact newSmall
    exfalso
    cases present : disk.files file.name with
    | none => simp [present] at answered
    | some found =>
        have fits := small found.bytes (by simp [Disk.bytes, present])
        simp [present, Nat.not_lt.mpr fits] at answered
  rintro _ _ ⟨rfl, current, rfl, hash⟩
  dsimp only
  split
  · -- It holds the old version: the new one has another hash
    rename_i wanted
    refine Ensures.pure ⟨rfl, rolling.keep ?_⟩
    rcases either with old | new
    · exact old
    · rw [hash, Disk.hashOf, new] at wanted
      exact absurd (wanted.symm.trans (congrArg some afterHash.symm)) differs
  rename_i unwanted
  split
  · rename_i third
    rcases either with old | new
    · refine absurd ?_ unwanted
      rw [hash, Disk.hashOf, old]
      exact beforeHash.symm
    · refine absurd ?_ third
      rw [hash, Disk.hashOf, new]
      exact congrArg some afterHash.symm
  refine Ensures.bind (fun tried reached => tried.isOk = true ∧
    save.Rolling sha256 manifest (names ++ [file.name]) reached) (Ensures.attempt ?_) ?_
  · split
    · rename_i absent
      have gone : save.start.bytes file.name = none := by
        have none_before : file.beforeHash = none := absent
        simpa [Disk.hashOf, none_before] using beforeHash.symm
      exact perform_orKilled ⟨rfl, rolling.setOld gone.symm⟩ lands
    · rename_i there
      have some_before : file.beforeHash = some _ := there
      obtain ⟨old, oldHeld⟩ : ∃ old, save.start.bytes file.name = some old := by
        cases oldHeld : save.start.bytes file.name with
        | none => simp [Disk.hashOf, oldHeld, some_before] at beforeHash
        | some old => exact ⟨old, rfl⟩
      have kept := restores.before file member old oldHeld
      refine Ensures.bind (fun text reached => disk = reached ∧ text = decodeUtf8 old)
        (ask_orKilled ?_ ?_ lands) ?_
      · intro text read
        simp only [held, Option.bind_some, Bool.false_eq_true, if_false, kept, Except.ok.injEq] at read
        exact ⟨rfl, read.symm⟩
      · intro error read
        simp [held, kept] at read
      rintro _ _ ⟨rfl, rfl⟩
      refine perform_orKilled ⟨rfl, rolling.setOld ?_⟩ lands
      rw [oldHeld]
      exact congrArg some (survives target asked old (by rw [← same, oldHeld]))
  · rintro tried disk ⟨ok, rolling⟩
    cases tried with
    | ok _ => exact Ensures.pure ⟨rfl, rolling⟩
    | error _ => cases ok

theorem restoreJournalFiles_rolls
    (survives : ∀ target ∈ save.targets, ∀ bytes, save.start.bytes target.name = some bytes →
      transcode bytes = bytes)
    (files : List (JournalFile Hash)) (members : ∀ file ∈ files, file ∈ manifest.files)
    (rolling : save.Rolling sha256 manifest names disk) :
    Ensures OrKilled (restoreJournalFiles sha256 save.own false files) disk
      (fun unresolved reached => unresolved = false ∧
        save.Rolling sha256 manifest (names ++ files.map (·.name)) reached)
      (fun _ => save.Reverting sha256) (save.Reverting sha256) := by
  induction files generalizing disk names with
  | nil => exact Ensures.pure ⟨rfl, by simpa using rolling⟩
  | cons file rest ih =>
      refine Ensures.bind _ (restoreJournalFile_rolls survives rolling (members file List.mem_cons_self)) ?_
      rintro _ disk ⟨rfl, rolling⟩
      refine Ensures.bind _ (ih (fun file member => members file (List.mem_cons_of_mem _ member)) rolling) ?_
      rintro _ disk ⟨rfl, rolling⟩
      exact Ensures.pure ⟨rfl, by simpa using rolling⟩

omit [DecidableEq Hash] in
/-- Every file the journal names is back: so are all. -/
theorem Save.Rolling.holdsOld (rolling : save.Rolling sha256 manifest (manifest.files.map (·.name)) disk) :
    save.HoldsOld disk := by
  intro target member
  obtain ⟨_, _, restores⟩ := rolling.journal
  rcases restores.describes.rest target member with ⟨file, present, same⟩ | same
  · exact rolling.back target member (same ▸ List.mem_map_of_mem present)
  · rcases rolling.underway.either target member with old | new
    · exact old
    · rw [new, same]

/-- An interrupted write is undone. -/
theorem recoverJournal_underway {parts : List Part}
    (survives : ∀ target ∈ save.targets, ∀ bytes, save.start.bytes target.name = some bytes →
      transcode bytes = bytes)
    (underway : save.Underway sha256 disk) :
    Ensures OrKilled (recoverJournal sha256 parts save.own) disk (fun _ => save.Undone sha256)
      (fun _ => save.Reverting sha256) (save.Reverting sha256) := by
  obtain ⟨journal, manifest, held, restores⟩ := underway.journal
  have lands : save.Reverting sha256 disk := .underway underway
  unfold recoverJournal
  refine Ensures.bind _ (readJournalManifest_ensures lands) ?_
  rintro planned _ ⟨rfl, same⟩
  have same : planned = some manifest := by simpa [held, restores.planned] using same
  subst same
  refine Ensures.bind _ (readCommitted_ensures held lands) ?_
  rintro committed _ ⟨rfl, rfl⟩
  rw [restores.uncommitted]
  have rolling : save.Rolling sha256 manifest [] disk := ⟨underway, by simp, journal, held, restores⟩
  refine Ensures.bind _ (restoreJournalFiles_rolls survives manifest.files (fun _ => id) rolling) ?_
  rintro _ disk ⟨rfl, rolling⟩
  simp only [List.nil_append] at rolling
  have moved : save.Reverting sha256 disk := .underway rolling.underway
  have kept : ∀ journal, disk.journals save.own = some journal → journal.committed = false ∧
      ∀ manifest, journal.manifest = some manifest → save.Describes sha256 manifest := by
    intro found foundHeld
    obtain ⟨journal, held, restores⟩ := rolling.journal
    rw [held] at foundHeld
    cases foundHeld
    refine ⟨restores.uncommitted, ?_⟩
    intro other described
    have : manifest = other := Option.some.inj (restores.planned.symm.trans described)
    exact this ▸ restores.describes
  refine Ensures.bind (fun unresolved reached => unresolved = false ∧ save.Undone sha256 reached) ?_ ?_
  · rw [restores.describes.metadata]
    cases belongs : save.metadata with
    | none =>
        refine Ensures.pure ⟨rfl, rolling.holdsOld, ?_, rolling.underway.unmarked, kept,
          rolling.underway.others⟩
        intro _ found same
        simp [belongs] at same
    | some metadata =>
        refine Ensures.bind (fun did reached => did = true ∧ reached = { disk with
          selections := Function.update disk.selections metadata.stack metadata.before })
          (putSelection_orKilled ⟨rfl, rfl⟩ moved) ?_
        rintro _ _ ⟨rfl, rfl⟩
        refine Ensures.pure ⟨rfl, rolling.holdsOld, ?_, rolling.underway.unmarked, kept,
          rolling.underway.others⟩
        intro _ found same
        rw [belongs] at same
        cases same
        simp
  · rintro _ disk ⟨rfl, undone⟩
    refine Ensures.bind (fun _ => save.Undone sha256) ((undone.removeJournal (.inl rfl)).mono
      (fun _ _ both => both.1) (fun _ _ => .undone) fun _ => .undone) ?_
    intro _ _ undone
    exact Ensures.pure undone

end

/-! ### Runs of the recovery -/

omit [DecidableEq Hash] in
theorem Save.Agrees.unharmed {before : Disk Hash Config} (agrees : save.Agrees before disk)
    (unharmed : save.Unharmed before) : save.Unharmed disk := by
  intro marked journal held
  exact unharmed (agrees.marked ▸ marked) journal (agrees.own ▸ held)

omit [DecidableEq Hash] in
theorem Save.Agrees.lands {before : Disk Hash Config} (agrees : save.Agrees before disk)
    (lands : save.Lands sha256 before) : save.Lands sha256 disk := by
  cases lands with
  | undone undone => exact .undone (agrees.undone undone)
  | done done => exact .done (agrees.done done)
  | underway underway => exact .underway (agrees.underway underway)

omit [DecidableEq Hash] in
theorem Save.Lands.others (lands : save.Lands sha256 disk) : save.OthersUnrelated disk := by
  cases lands with
  | undone undone => exact undone.others
  | done done => exact done.others
  | underway underway => exact underway.others

/-- One journal is visited. -/
theorem recoverJournal_recovering {parts : List Part} {id : Nat}
    (survives : ∀ target ∈ save.targets, ∀ bytes, save.start.bytes target.name = some bytes →
      transcode bytes = bytes)
    (recovering : save.Recovering sha256 disk) :
    Ensures OrKilled (recoverJournal sha256 parts id) disk
      (fun _ reached => save.Recovering sha256 reached ∧
        (id = save.own ∨ save.Settled sha256 disk → save.Settled sha256 reached))
      (fun _ => save.Lands sha256) (save.Lands sha256) := by
  by_cases ours : id = save.own
  · rw [ours]
    have settled {disk : Disk Hash Config} {from' : Prop} (settled : save.Settled sha256 disk) :
        save.Recovering sha256 disk ∧ (from' → save.Settled sha256 disk) := ⟨.settled settled, fun _ => settled⟩
    cases recovering with
    | settled start =>
        cases start with
        | undone undone =>
            exact (recoverJournal_undone undone).mono (fun _ _ held => settled (.undone held))
              (fun _ _ => .undone) fun _ => .undone
        | done done unharmed =>
            exact (recoverJournal_done done unharmed).mono
              (fun _ _ held => settled (.done held.1 held.2)) (fun _ _ => .done) fun _ => .done
    | underway underway =>
        exact (recoverJournal_underway survives underway).mono
          (fun _ _ held => settled (.undone held)) (fun _ _ => Save.Reverting.lands) fun _ => Save.Reverting.lands
  · refine (recoverJournal_agrees recovering.lands.others ours).mono ?_
      (fun _ _ agrees => agrees.lands recovering.lands) fun _ agrees => agrees.lands recovering.lands
    intro _ reached agrees
    have settled (settled : save.Settled sha256 disk) : save.Settled sha256 reached := by
      cases settled with
      | undone undone => exact .undone (agrees.undone undone)
      | done done unharmed => exact .done (agrees.done done) (agrees.unharmed unharmed)
    refine ⟨?_, fun which => settled (which.resolve_left ours)⟩
    cases recovering with
    | settled start => exact .settled (settled start)
    | underway underway => exact .underway (agrees.underway underway)

/-- Once its journal was visited, the write is settled. -/
theorem recoverJournals_recovering {parts : Nat → List Part}
    (survives : ∀ target ∈ save.targets, ∀ bytes, save.start.bytes target.name = some bytes →
      transcode bytes = bytes)
    (ids : List Nat) (recovering : save.Recovering sha256 disk) :
    Ensures OrKilled (recoverJournals sha256 parts ids) disk
      (fun _ reached => save.Recovering sha256 reached ∧
        (save.own ∈ ids ∨ save.Settled sha256 disk → save.Settled sha256 reached))
      (fun _ => save.Lands sha256) (save.Lands sha256) := by
  induction ids generalizing disk with
  | nil => exact Ensures.pure ⟨recovering, fun which => which.resolve_left (by simp)⟩
  | cons id rest ih =>
      refine Ensures.bind (fun value reached => disk = value ∧ disk = reached) (Ensures.look ⟨rfl, rfl⟩) ?_
      rintro _ _ ⟨rfl, rfl⟩
      split
      · rename_i absent
        refine (ih recovering).mono ?_ (fun _ _ lands => lands) fun _ lands => lands
        rintro _ reached ⟨recovered, settles⟩
        refine ⟨recovered, fun which => settles ?_⟩
        rcases which with member | settled
        · rcases List.mem_cons.mp member with same | later
          · right
            cases recovering with
            | settled settled => exact settled
            | underway underway =>
                obtain ⟨journal, _, held, _⟩ := underway.journal
                simp [← same, held] at absent
          · exact .inl later
        · exact .inr settled
      · refine Ensures.bind _ (recoverJournal_recovering survives recovering) ?_
        rintro outcome next ⟨recovering', visited⟩
        refine Ensures.bind _ (ih recovering') ?_
        rintro outcomes reached ⟨recovered, settles⟩
        refine Ensures.pure ⟨recovered, fun which => settles ?_⟩
        rcases which with member | settled
        · rcases List.mem_cons.mp member with same | later
          · exact .inr (visited (.inl same.symm))
          · exact .inl later
        · exact .inr (visited (.inr settled))

omit [DecidableEq Hash] in
/-- A write that is under way has its journal listed. -/
theorem Save.Recovering.visited_or_settled {ids : List Nat} (recovering : save.Recovering sha256 disk)
    (complete : (disk.journals save.own).isSome → save.own ∈ ids) :
    save.own ∈ ids ∨ save.Settled sha256 disk := by
  cases recovering with
  | settled settled => exact .inr settled
  | underway underway =>
      obtain ⟨journal, _, held, _⟩ := underway.journal
      exact .inl (complete (by simp [held]))

theorem recoverStackWrites_recovering {listing : Listing}
    (survives : ∀ target ∈ save.targets, ∀ bytes, save.start.bytes target.name = some bytes →
      transcode bytes = bytes)
    (recovering : save.Recovering sha256 disk) :
    Ensures OrKilled (recoverStackWrites sha256 listing) disk
      (fun _ reached => save.Lands sha256 reached ∧
        (save.own ∈ listing.journals ∨ save.Settled sha256 disk → save.Settled sha256 reached))
      (fun _ => save.Lands sha256) (save.Lands sha256) := by
  refine Ensures.bind (fun _ reached => disk = reached)
    (ask_orKilled (fun _ _ => rfl) (fun _ held => by cases held) recovering.lands) ?_
  rintro _ _ rfl
  refine Ensures.bind _ (recoverJournals_recovering survives listing.journals recovering) ?_
  rintro outcomes reached ⟨recovered, settles⟩
  exact Ensures.pure ⟨recovered.lands, settles⟩

/-- One start of the panel. -/
structure Restart where
  listing : Listing
  fates : List Fate

def runRecovery (sha256 : Bytes → Hash) (disk : Disk Hash Config) (restart : Restart) : Disk Hash Config :=
  (recoverStackWrites sha256 restart.listing restart.fates disk).state

/-- The recovery is only killed, and finds the marker of a committed write beside its manifest. -/
def Save.Restarts (save : Save Hash Config) (disk : Disk Hash Config) (restart : Restart) : Prop :=
  (∀ fate ∈ restart.fates, OrKilled fate) ∧ save.Unharmed disk

/-- A call of `writeStackFiles`, up to where it ended or was stopped, and the starts after it. -/
def Save.after (sha256 : Bytes → Hash) (save : Save Hash Config) (parts : List Part) (fates : List Fate)
    (restarts : List Restart) : Disk Hash Config :=
  replay (runRecovery sha256)
    (writeStackFiles sha256 save.targets { metadata := save.metadata, parts } fates save.start).state restarts

/-- A write that was stopped anywhere, then any number of interrupted recoveries, then one that
completes: all of the write is there, or nothing of it. -/
theorem write_crash_atomic (injective : Function.Injective sha256) (sound : save.Sound)
    (parts : List Part) (fates : List Fate) (atomic : ∀ fate ∈ fates, Atomic fate)
    (restarts : List Restart) (restart : Restart)
    (restarted : Along (runRecovery sha256) save.Restarts (save.after sha256 parts fates [])
      (restarts ++ [restart]))
    (complete : ((save.after sha256 parts fates restarts).journals save.own).isSome →
      save.own ∈ restart.listing.journals)
    (finished : (recoverStackWrites sha256 restart.listing restart.fates
      (save.after sha256 parts fates restarts)).ending.isDone = true)
    (read : (save.after sha256 parts fates (restarts ++ [restart])).misread = false) :
    let final := save.after sha256 parts fates (restarts ++ [restart])
    (save.HoldsNew final ∧ save.SelectedNew final ∨ save.HoldsOld final ∧ save.SelectedBefore final) ∧
      (save.own ∈ final.marked → save.HoldsNew final ∧ save.SelectedNew final) := by
  have lands : save.Lands sha256 (save.after sha256 parts fates restarts) := by
    refine restarted.append_left.invariant
      ((writeStackFiles_lands injective sound).state_of atomic) ?_
    rintro disk restart lands ⟨killed, unharmed⟩
    exact ((recoverStackWrites_recovering sound.survives (lands.recovering unharmed)).mono
      (fun _ _ both => both.1) (fun _ _ lands => lands) fun _ lands => lands).state_of killed
  obtain ⟨killed, unharmed⟩ := restarted.last
  have recovering := lands.recovering unharmed
  obtain ⟨_, _, settles⟩ :=
    (recoverStackWrites_recovering sound.survives recovering).returned_of killed finished
  have last : save.after sha256 parts fates (restarts ++ [restart]) =
      runRecovery sha256 (save.after sha256 parts fates restarts) restart :=
    replay_append restarts [restart]
  have settled : save.Settled sha256 (save.after sha256 parts fates (restarts ++ [restart])) :=
    last ▸ settles (recovering.visited_or_settled complete)
  cases settled with
  | undone undone =>
      exact ⟨.inr ⟨undone.old, undone.selected read⟩, fun marked => absurd marked undone.unmarked⟩
  | done done _ => exact ⟨.inl ⟨done.new, done.selected⟩, fun _ => ⟨done.new, done.selected⟩⟩

/-! One environment file is saved again, over what it held before. -/

instance (disk : Disk Hash Config) : Decidable (save.HoldsNew disk) :=
  inferInstanceAs (Decidable (∀ target ∈ save.targets, _))

instance (disk : Disk Hash Config) : Decidable (save.HoldsOld disk) :=
  inferInstanceAs (Decidable (∀ target ∈ save.targets, _))

def sampleDisk (old : Bytes) : Disk Bytes String :=
  { files := fun name => if name = ".env" then some ⟨old, defaultFileMode⟩ else none
    journals := fun _ => none
    unresolved := fun _ => none
    nextId := 0
    selections := fun _ => none
    marked := []
    misread := false }

def sampleSave (old : Bytes) : Save Bytes String :=
  { start := sampleDisk old
    targets := [{ name := ".env", content := "A=1" }]
    metadata := some { stack := "app", before := none, after := ".env" } }

def sampleRestart : Restart := { listing := { journals := [0], parts := fun _ => [] }, fates := [] }

theorem sampleSave_sound {old : Bytes} (survives : transcode old = old) : (sampleSave old).Sound where
  fresh := rfl
  unmarked := by simp [sampleSave, sampleDisk]
  others := by
    intro id journal _ held
    cases held
  selected := by
    rintro _ ⟨⟩
    rfl
  survives := by
    intro target member bytes holds
    obtain rfl : target = _ := List.mem_singleton.mp member
    cases holds
    exact survives

/-- Killed right after it replaced the file, a save of text over text is undone. -/
theorem write_crash_atomic_text :
    let final := (sampleSave [0x42]).after id [] (List.replicate 10 .ok ++ [.kill]) ([] ++ [sampleRestart])
    ((sampleSave [0x42]).HoldsNew final ∧ (sampleSave [0x42]).SelectedNew final ∨
      (sampleSave [0x42]).HoldsOld final ∧ (sampleSave [0x42]).SelectedBefore final) ∧
    ((sampleSave [0x42]).own ∈ final.marked →
      (sampleSave [0x42]).HoldsNew final ∧ (sampleSave [0x42]).SelectedNew final) := by
  have survives : transcode [0x42] = [0x42] := by decide +kernel
  have complete : (((sampleSave [0x42]).after id [] (List.replicate 10 .ok ++ [.kill]) []).journals
      (sampleSave [0x42]).own).isSome → (sampleSave [0x42]).own ∈ sampleRestart.listing.journals := by
    decide +kernel
  have unmarked : (sampleSave [0x42]).own ∉
      ((sampleSave [0x42]).after id [] (List.replicate 10 .ok ++ [.kill]) []).marked := by
    decide +kernel
  have restarted : Along (runRecovery id) (sampleSave [0x42]).Restarts
      ((sampleSave [0x42]).after id [] (List.replicate 10 .ok ++ [.kill]) []) ([] ++ [sampleRestart]) := by
    refine ⟨⟨by simp [sampleRestart], ?_⟩, trivial⟩
    intro marked
    exact absurd marked unmarked
  have atomic := @write_crash_atomic Bytes String _ id (sampleSave [0x42]) Function.injective_id
    (sampleSave_sound survives) [] (List.replicate 10 .ok ++ [.kill]) (by simp [Atomic]) [] sampleRestart
  have landed := atomic restarted complete (by decide +kernel) (by decide +kernel)
  exact landed

/-- The file holds neither version: where its old bytes are not UTF-8, the recovery puts others
back.  And a write that was killed while its journal was removed, after its commit marker went and
before its manifest did, is undone although the marker was written. -/
theorem write_not_crash_atomic :
    (let final := (sampleSave [0xFF]).after id [] (List.replicate 10 .ok ++ [.kill]) [sampleRestart]
    (final.journals 0).isNone ∧ final.bytes ".env" = some [0xEF, 0xBF, 0xBD] ∧
      ¬ (sampleSave [0xFF]).HoldsNew final ∧ ¬ (sampleSave [0xFF]).HoldsOld final) ∧
    (let final := (sampleSave [0x42]).after id [.committed, .manifest] (List.replicate 16 .ok ++ [.kill])
      [sampleRestart]
    (sampleSave [0x42]).own ∈ final.marked ∧ ¬ (sampleSave [0x42]).HoldsNew final) := by
  decide +kernel

end Dockge.StackWrite
