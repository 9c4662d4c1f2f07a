import Dockge.StackWrite.CrashAtomic

namespace Dockge.StackWrite

open Dockge.Data

/-! A write that has not taken place is taken back by the recoveries after it. -/

variable {Hash Config : Type} [DecidableEq Hash] {sha256 : Bytes → Hash} {save : Save Hash Config}
  {disk : Disk Hash Config}

omit [DecidableEq Hash] in
theorem Save.Reverting.others (reverting : save.Reverting sha256 disk) : save.OthersUnrelated disk := by
  cases reverting with
  | undone undone => exact undone.others
  | underway underway => exact underway.others

omit [DecidableEq Hash] in
theorem Save.Agrees.reverting {before : Disk Hash Config} (agrees : save.Agrees before disk)
    (reverting : save.Reverting sha256 before) : save.Reverting sha256 disk := by
  cases reverting with
  | undone undone => exact .undone (agrees.undone undone)
  | underway underway => exact .underway (agrees.underway underway)

/-- One journal is visited; where it is the one of this write, the write is taken back. -/
theorem recoverJournal_reverting {parts : List Part} {listed : Nat}
    (survives : ∀ target ∈ save.targets, ∀ bytes, save.start.bytes target.name = some bytes →
      transcode bytes = bytes)
    (reverting : save.Reverting sha256 disk) :
    Ensures OrKilled (recoverJournal sha256 parts listed) disk
      (fun _ reached => save.Reverting sha256 reached ∧
        (listed = save.own ∨ save.Undone sha256 disk → save.Undone sha256 reached))
      (fun _ => save.Reverting sha256) (save.Reverting sha256) := by
  by_cases ours : listed = save.own
  · rw [ours]
    cases reverting with
    | undone undone =>
        exact (recoverJournal_undone undone).mono (fun _ _ held => ⟨.undone held, fun _ => held⟩)
          (fun _ _ => .undone) fun _ => .undone
    | underway underway =>
        exact (recoverJournal_underway survives underway).mono
          (fun _ _ held => ⟨.undone held, fun _ => held⟩) (fun _ _ => id) fun _ => id
  · refine (recoverJournal_agrees reverting.others ours).mono ?_
      (fun _ _ agrees => agrees.reverting reverting) fun _ agrees => agrees.reverting reverting
    intro _ reached agrees
    exact ⟨agrees.reverting reverting, fun which => agrees.undone (which.resolve_left ours)⟩

theorem recoverJournals_reverting {parts : Nat → List Part}
    (survives : ∀ target ∈ save.targets, ∀ bytes, save.start.bytes target.name = some bytes →
      transcode bytes = bytes)
    (ids : List Nat) (reverting : save.Reverting sha256 disk) :
    Ensures OrKilled (recoverJournals sha256 parts ids) disk
      (fun _ reached => save.Reverting sha256 reached ∧
        (save.own ∈ ids ∨ save.Undone sha256 disk → save.Undone sha256 reached))
      (fun _ => save.Reverting sha256) (save.Reverting sha256) := by
  induction ids generalizing disk with
  | nil => exact Ensures.pure ⟨reverting, fun which => which.resolve_left (by simp)⟩
  | cons id rest ih =>
      refine Ensures.bind (fun value reached => disk = value ∧ disk = reached) (Ensures.look ⟨rfl, rfl⟩) ?_
      rintro _ _ ⟨rfl, rfl⟩
      split
      · rename_i absent
        refine (ih reverting).mono ?_ (fun _ _ => fun reverting => reverting) fun _ => fun reverting => reverting
        intro _ reached recovered
        refine ⟨recovered.1, fun which => recovered.2 ?_⟩
        rcases which with member | undone
        · rcases List.mem_cons.mp member with same | later
          · cases reverting with
            | undone undone => exact .inr undone
            | underway underway =>
                obtain ⟨journal, _, held, _⟩ := underway.journal
                simp [← same, held] at absent
          · exact .inl later
        · exact .inr undone
      · refine Ensures.bind _ (recoverJournal_reverting survives reverting) ?_
        intro outcome next visited
        refine Ensures.bind _ (ih visited.1) ?_
        intro outcomes reached recovered
        refine Ensures.pure ⟨recovered.1, fun which => recovered.2 ?_⟩
        rcases which with member | undone
        · rcases List.mem_cons.mp member with same | later
          · exact .inr (visited.2 (.inl same.symm))
          · exact .inl later
        · exact .inr (visited.2 (.inr undone))

theorem recoverStackWrites_reverting {listing : Listing}
    (survives : ∀ target ∈ save.targets, ∀ bytes, save.start.bytes target.name = some bytes →
      transcode bytes = bytes)
    (reverting : save.Reverting sha256 disk) :
    Ensures OrKilled (recoverStackWrites sha256 listing) disk
      (fun _ reached => save.Reverting sha256 reached ∧
        (save.own ∈ listing.journals ∨ save.Undone sha256 disk → save.Undone sha256 reached))
      (fun _ => save.Reverting sha256) (save.Reverting sha256) := by
  refine Ensures.bind (fun _ reached => disk = reached)
    (ask_orKilled (fun _ _ => rfl) (fun _ held => by cases held) reverting) ?_
  rintro _ _ rfl
  refine Ensures.bind _ (recoverJournals_reverting survives listing.journals reverting) ?_
  intro outcomes reached recovered
  exact Ensures.pure recovered

/-! ### What no journal names -/

/-- No journal names other files than these or carries a selection; other files and the selections are
as given. -/
structure Disk.Storing (names : List String) (files : String → Option File)
    (selections : String → Option Config) (disk : Disk Hash Config) : Prop where
  planned : ∀ id journal manifest, disk.journals id = some journal → journal.manifest = some manifest →
    manifest.metadata = none ∧ ∀ file ∈ manifest.files, file.name ∈ names
  files : ∀ name, name ∉ names → disk.files name = files name
  selections : disk.selections = selections

section
variable {names : List String} {files : String → Option File} {selections : String → Option Config}

omit [DecidableEq Hash] in
theorem Disk.Storing.setJournal {listed : Nat} {journal : Option (Journal Hash Config)}
    (storing : disk.Storing names files selections)
    (only : ∀ found, journal = some found → ∀ manifest, found.manifest = some manifest →
      manifest.metadata = none ∧ ∀ file ∈ manifest.files, file.name ∈ names) :
    (disk.setJournal listed journal).Storing names files selections where
  planned := by
    intro other found manifest held planned
    by_cases same : other = listed
    · subst same
      exact only found (by simpa [Disk.setJournal] using held) manifest planned
    · exact storing.planned other found manifest
        (by simpa [Disk.setJournal, Function.update_of_ne same] using held) planned
  files := storing.files
  selections := storing.selections

omit [DecidableEq Hash] in
theorem Disk.Storing.drop {listed : Nat} (storing : disk.Storing names files selections) (part : Part) :
    (disk.onJournal listed fun journal => journal.drop part).Storing names files selections := by
  refine storing.setJournal ?_
  intro found held manifest planned
  obtain ⟨journal, same, rfl⟩ := Option.map_eq_some_iff.mp held
  exact storing.planned listed journal manifest same (drop_manifest planned)

theorem recoverJournal_storing {parts : List Part} {listed : Nat}
    (storing : disk.Storing names files selections) :
    Ensures OrKilled (recoverJournal sha256 parts listed) disk (fun _ => Disk.Storing names files selections)
      (fun _ => Disk.Storing names files selections) (Disk.Storing names files selections) := by
  unfold recoverJournal
  refine Ensures.bind _ (readJournalManifest_ensures storing) ?_
  rintro planned _ ⟨rfl, same⟩
  cases planned with
  | none => exact Ensures.pure storing
  | some manifest =>
      obtain ⟨journal, held, planned⟩ := Option.bind_eq_some_iff.mp same.symm
      obtain ⟨without, named⟩ := storing.planned listed journal manifest held planned
      refine Ensures.bind _ (readCommitted_ensures held storing) ?_
      rintro committed _ ⟨rfl, _⟩
      refine Ensures.bind (fun _ => Disk.Storing names files selections) (restoreJournalFiles_keeps _ storing ?_) ?_
      · intro disk storing file member _ _ content
        refine ⟨storing.planned, ?_, storing.selections⟩
        intro name absent
        have other : name ≠ file.name := fun same => absent (same ▸ named file member)
        simpa [Disk.setFile, Function.update_of_ne other] using storing.files name absent
      intro unresolved disk storing
      refine Ensures.bind (fun _ => Disk.Storing names files selections) ?_ ?_
      · rw [without]
        unfold restoreOptions
        split
        · rename_i absurd
          cases absurd
        · exact Ensures.pure storing
      intro unresolved disk storing
      have gone : (disk.setJournal listed none).Storing names files selections := storing.setJournal (by simp)
      split
      · refine Ensures.bind (fun _ => Disk.Storing names files selections)
          (perform_orKilled ⟨gone.planned, gone.files, gone.selections⟩ storing) ?_
        intro _ disk storing
        exact Ensures.pure storing
      · refine Ensures.bind (fun _ => Disk.Storing names files selections) ?_ ?_
        · refine (removeJournal_ensures (.inl rfl) storing ?_ ?_).mono (fun _ _ both => both.1)
            (fun _ _ => id) fun _ => id
          · exact fun disk part storing => storing.drop part
          · exact fun disk storing => storing.setJournal (by simp)
        intro _ disk storing
        exact Ensures.pure storing

theorem recoverJournals_storing {parts : Nat → List Part}
    (ids : List Nat) (storing : disk.Storing names files selections) :
    Ensures OrKilled (recoverJournals sha256 parts ids) disk (fun _ => Disk.Storing names files selections)
      (fun _ => Disk.Storing names files selections) (Disk.Storing names files selections) := by
  induction ids generalizing disk with
  | nil => exact Ensures.pure storing
  | cons id rest ih =>
      refine Ensures.bind (fun value reached => disk = value ∧ disk = reached) (Ensures.look ⟨rfl, rfl⟩) ?_
      rintro _ _ ⟨rfl, rfl⟩
      split
      · exact ih storing
      · refine Ensures.bind _ (recoverJournal_storing storing) ?_
        intro outcome disk storing
        refine Ensures.bind _ (ih storing) ?_
        intro outcomes disk storing
        exact Ensures.pure storing

theorem runRecovery_storing {restart : Restart} (killed : ∀ fate ∈ restart.fates, OrKilled fate)
    (storing : disk.Storing names files selections) :
    (runRecovery sha256 disk restart).Storing names files selections := by
  have every : Ensures OrKilled (recoverStackWrites sha256 restart.listing) disk
      (fun _ => Disk.Storing names files selections) (fun _ => Disk.Storing names files selections)
      (Disk.Storing names files selections) := by
    refine Ensures.bind (fun _ reached => disk = reached)
      (ask_orKilled (fun _ _ => rfl) (fun _ held => by cases held) storing) ?_
    rintro _ _ rfl
    refine Ensures.bind _ (recoverJournals_storing restart.listing.journals storing) ?_
    intro outcomes disk storing
    exact Ensures.pure storing
  exact every.state_of killed

theorem replay_storing (sha256 : Bytes → Hash) {restarts : List Restart}
    (killed : ∀ each ∈ restarts, ∀ fate ∈ each.fates, OrKilled fate)
    (storing : disk.Storing names files selections) :
    (replay (runRecovery sha256) disk restarts).Storing names files selections := by
  induction restarts generalizing disk with
  | nil => exact storing
  | cons first rest ih =>
      exact ih (fun each member => killed each (List.mem_cons_of_mem _ member))
        (runRecovery_storing (killed first List.mem_cons_self) storing)

end

/-! ### The starts after a write -/

/-- Starts whose recovery is only killed, the last of which completes with every journal listed. -/
structure Recovered (sha256 : Bytes → Hash) (disk : Disk Hash Config) (restarts : List Restart)
    (restart : Restart) : Prop where
  killed : ∀ each ∈ restarts ++ [restart], ∀ fate ∈ each.fates, OrKilled fate
  listed : ∀ id, ((replay (runRecovery sha256) disk restarts).journals id).isSome → id ∈ restart.listing.journals
  finished : (recoverStackWrites sha256 restart.listing restart.fates
    (replay (runRecovery sha256) disk restarts)).ending.isDone = true

theorem Save.Reverting.recovered {restarts : List Restart} {restart : Restart}
    (survives : ∀ target ∈ save.targets, ∀ bytes, save.start.bytes target.name = some bytes →
      transcode bytes = bytes)
    (reverting : save.Reverting sha256 disk) (recovered : Recovered sha256 disk restarts restart) :
    save.HoldsOld (replay (runRecovery sha256) disk (restarts ++ [restart])) := by
  have before : save.Reverting sha256 (replay (runRecovery sha256) disk restarts) := by
    have killed : ∀ each ∈ restarts, ∀ fate ∈ each.fates, OrKilled fate :=
      fun each member => recovered.killed each (List.mem_append_left _ member)
    clear recovered
    induction restarts generalizing disk with
    | nil => exact reverting
    | cons first rest ih =>
        have next : save.Reverting sha256 (runRecovery sha256 disk first) :=
          ((recoverStackWrites_reverting survives reverting).mono (fun _ _ both => both.1)
            (fun _ _ => id) fun _ => id).state_of (killed first List.mem_cons_self)
        exact ih next fun each member => killed each (List.mem_cons_of_mem _ member)
  obtain ⟨_, _, settles⟩ := (recoverStackWrites_reverting survives before).returned_of
    (recovered.killed restart (by simp)) recovered.finished
  rw [replay_append]
  refine (settles ?_).old
  cases before with
  | undone undone => exact .inr undone
  | underway underway =>
      obtain ⟨journal, _, held, _⟩ := underway.journal
      exact .inl (recovered.listed save.own (by simp [held]))

end Dockge.StackWrite
