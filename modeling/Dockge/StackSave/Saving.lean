import Dockge.StackSave.Reading

namespace Dockge.StackSave

open Dockge.Data
open Dockge.StackConfig (Found StackFileConfig resolveConfig)
open Dockge.StackWrite

/-! What a save that returned found and did, and what one can be refused for. -/

variable {Hash : Type} {site : Site Hash} {request : Request Hash} {loaded : Loaded} {shouldWriteEnv : Bool}

/-! ### The steps around the write -/

/-- The files, the selections and the directory are as they were. -/
structure Site.Alike (site reached : Site Hash) : Prop where
  files : reached.disk.files = site.disk.files
  selections : reached.disk.selections = site.disk.selections
  directory : reached.directory = site.directory
  entries : reached.entries = site.entries

theorem Site.Alike.refl (site : Site Hash) : site.Alike site := ⟨rfl, rfl, rfl, rfl⟩

theorem Site.Alike.trans {middle reached : Site Hash} (first : site.Alike middle) (second : middle.Alike reached) :
    site.Alike reached where
  files := second.files.trans first.files
  selections := second.selections.trans first.selections
  directory := second.directory.trans first.directory
  entries := second.entries.trans first.entries

theorem removeOpened_ensures (parts : List Part) (journal : Option Nat) :
    Ensures Fate.Any (onDisk (removeOpened parts journal)) site (fun _ reached => site.Alike reached)
      (fun error reached => error.isConflict = false ∧ site.Alike reached) site.Alike := by
  let Kept (disk : Disk Hash StackFileConfig) : Prop :=
    disk.files = site.disk.files ∧ disk.selections = site.disk.selections
  have alike (disk : Disk Hash StackFileConfig) (kept : Kept disk) : site.Alike { site with disk } :=
    ⟨kept.1, kept.2, rfl, rfl⟩
  cases journal with
  | none => exact Ensures.zoom (Ensures.pure (Site.Alike.refl site))
  | some journal =>
      have each := @removeJournal_ensures Hash StackFileConfig Fate.Any site.disk Kept parts journal any_ok
        ⟨rfl, rfl⟩ (fun _ _ kept => kept) fun _ kept => kept
      refine Ensures.zoom ((each.and removeJournal_throws).mono ?_ ?_ ?_)
      · intro _ disk both
        exact alike disk both.1.1
      · intro error disk both
        refine ⟨?_, alike disk both.1⟩
        cases error with
        | conflict file => exact absurd rfl (both.2 file)
        | _ => rfl
      · intro disk both
        exact alike disk both.1

theorem chown_ensures : Ensures Fate.Any (chown : SiteTask Hash Unit) site (fun _ reached => site = reached)
    (fun error reached => error.isConflict = false ∧ site = reached) (site = ·) := by
  refine Ensures.operation any_ok ?_
  intro fate _
  cases fate with
  | ok => exact rfl
  | fail => exact ⟨rfl, rfl⟩
  | late => exact ⟨rfl, rfl⟩
  | kill => exact rfl

theorem applyOwnership_ensures (owner shouldWriteEnv : Bool) :
    Ensures Fate.Any (applyOwnership owner shouldWriteEnv) site (fun _ reached => site = reached)
      (fun error reached => error.isConflict = false ∧ site = reached) (site = ·) := by
  refine Ensures.onlyIf (fun _ => ?_) fun _ => rfl
  refine Ensures.bind _ chown_ensures ?_
  intro _ _ same
  subst same
  refine Ensures.bind _ chown_ensures ?_
  intro _ _ same
  subst same
  exact Ensures.onlyIf (fun _ => chown_ensures) fun _ => rfl

theorem edited_files (others : List (String × Option File)) {first second : Site Hash}
    (same : first.disk.files = second.disk.files) :
    (others.foldl Site.edit first).disk.files = (others.foldl Site.edit second).disk.files := by
  induction others generalizing first second with
  | nil => exact same
  | cons change rest ih => exact ih (by simp [Site.edit, Disk.setFile, same])

/-! ### The answer -/

/-- What a save answers of its texts. -/
def answered (sha256 : Bytes → Hash) (request : Request Hash) (loaded : Loaded) (shouldWriteEnv : Bool) :
    StackFileBaseline Hash :=
  { compose := some (some (hashStackFileContent sha256 request.composeYAML))
    env := some (if shouldWriteEnv then some (hashStackFileContent sha256 request.composeENV) else none)
    composeFileName := some loaded.composeFileName
    envFileName := some loaded.activeEnvFileName }

theorem savedBaseline_eq {sha256 : Bytes → Hash} {result : StackWriteResult Hash}
    (distinct : ((writeTargets request loaded shouldWriteEnv).map (·.name)).Nodup)
    (hashes : result.hashes =
      (writeTargets request loaded shouldWriteEnv).map fun target => (target.name, sha256 target.bytes)) :
    savedBaseline result loaded shouldWriteEnv = answered sha256 request loaded shouldWriteEnv := by
  cases shouldWriteEnv with
  | false => simp [savedBaseline, answered, hashes, writeTargets, StackFileTarget.bytes, hashStackFileContent]
  | true =>
      have different : loaded.composeFileName ≠ loaded.activeEnvFileName := by
        simpa [writeTargets] using distinct
      simp [savedBaseline, answered, hashes, writeTargets, StackFileTarget.bytes, hashStackFileContent,
        different]

/-- The disk a save left, over the one its write found. -/
structure Saved (sha256 : Bytes → Hash) (targets : List (StackFileTarget Hash))
    (adoption : Option (StackWriteMetadata StackFileConfig)) (held reached : Site Hash) : Prop where
  expected : Expected sha256 targets held.disk
  written : Written sha256 targets adoption held.disk reached.disk
  files : ∀ name, name ∉ targets.map (·.name) → reached.disk.files name = held.disk.files name
  directory : reached.directory = held.directory
  entries : reached.entries = targets.map (·.name) ++ held.entries

theorem Saved.alike {sha256 : Bytes → Hash} {targets : List (StackFileTarget Hash)}
    {adoption : Option (StackWriteMetadata StackFileConfig)} {held middle reached : Site Hash}
    (saved : Saved sha256 targets adoption held middle) (alike : middle.Alike reached) :
    Saved sha256 targets adoption held reached where
  expected := saved.expected
  written := by
    refine ⟨?_, ?_, ?_⟩
    · intro target member
      rw [Disk.hashOf, Disk.bytes, alike.files]
      exact saved.written.files target member
    · intro absent
      exact alike.selections.trans (saved.written.unselected absent)
    · intro belongs same
      rw [alike.selections]
      exact saved.written.selected belongs same
  files := by
    intro name other
    rw [alike.files]
    exact saved.files name other
  directory := alike.directory.trans saved.directory
  entries := alike.entries.trans saved.entries

section
variable [DecidableEq Hash] {host : Host Hash}

theorem write_ensures (targets : List (StackFileTarget Hash))
    (adoption : Option (StackWriteMetadata StackFileConfig)) (parts : List Part) :
    Ensures Fate.Any (write host targets adoption parts) site
      (fun written reached => (targets.map (·.name)).Nodup ∧
        written.1.hashes = targets.map (fun target => (target.name, host.sha256 target.bytes)) ∧
          Saved host.sha256 targets adoption site reached)
      (fun error _ => Expected host.sha256 targets site.disk → error.isConflict = false) fun _ => True := by
  have unrefused {error : WriteError} (held : error.Unrefused) : (SaveError.write error).isConflict = false := by
    cases error with
    | conflict file => exact absurd rfl (held file)
    | _ => rfl
  refine Ensures.bind (fun _ reached =>
    reached = { site with entries := targets.map (·.name) ++ site.entries }) (Ensures.modify rfl) ?_
  intro _ listed same
  subst same
  refine Ensures.zoom ?_
  refine Ensures.bind (fun _ reached => site.disk = reached) ?_ ?_
  · refine Ensures.forEach (fun _ reached => site.disk = reached) rfl ?_
    intro _ target _ disk _ same
    subst same
    refine Ensures.bind (fun _ reached => site.disk = reached) ?_ ?_
    · split
      · exact Ensures.pure rfl
      · exact Ensures.fail fun _ => rfl
    · intro _ _ same
      subst same
      split
      · exact Ensures.fail fun _ => rfl
      · exact Ensures.pure rfl
  intro _ _ same
  subst same
  refine Ensures.bind (fun _ reached => site.disk = reached ∧ (targets.map (·.name)).Nodup) ?_ ?_
  · split
    · exact Ensures.pure ⟨rfl, ‹_›⟩
    · exact Ensures.fail fun _ => rfl
  intro _ disk held
  obtain ⟨same, distinct⟩ := held
  subst same
  have framed : Ensures Fate.Any (writeLocked host.sha256 targets { metadata := adoption, parts }) site.disk _ _ _ :=
    @writeLocked_framed Hash StackFileConfig _ host.sha256 ⟨site.disk, targets, adoption⟩ parts
  refine ((writeLocked_answers distinct).and framed).mono ?_ ?_ fun _ _ => trivial
  · intro written reached both
    obtain ⟨⟨hashes, expected, wrote⟩, frame⟩ := both
    exact ⟨distinct, hashes, expected, wrote, frame.files, rfl, rfl⟩
  · intro error _ both expected
    exact unrefused (both.1 expected)

/-- The save's own checks passed, and its write found what they expect. -/
theorem writeLoaded_ensures (Checked : Loaded → Bool → Prop)
    (Adopted : Loaded → Bool → Option (StackWriteMetadata StackFileConfig) → Prop)
    (Failed : SaveError → Prop) (weather : Weather) (others : List (String × Option File)) (parts : List Part)
    (built : String)
    (checks : Ensures Fate.Any (Program.under weather.checking (check request built)) site
      (fun checked reached => site = reached ∧ Checked checked.1 checked.2) (fun error _ => Failed error)
      fun _ => True)
    (adopts : ∀ loaded shouldWriteEnv, Checked loaded shouldWriteEnv →
      Ensures Fate.Any (Program.under weather.adopting (envAdoption request.name loaded shouldWriteEnv)) site
        (fun adoption reached => site = reached ∧ Adopted loaded shouldWriteEnv adoption)
        (fun error _ => Failed error) fun _ => True)
    (gone : ∀ loaded shouldWriteEnv, Checked loaded shouldWriteEnv →
      ∀ error, envGone request loaded shouldWriteEnv = some error → Failed error)
    (refused : ∀ loaded shouldWriteEnv, Checked loaded shouldWriteEnv → ∀ error : SaveError,
      (Expected host.sha256 (writeTargets request loaded shouldWriteEnv) (others.foldl Site.edit site).disk →
        error.isConflict = false) → Failed error) :
    Ensures Fate.Any (writeLoaded host request weather others parts built) site
      (fun answer reached => ∃ loaded shouldWriteEnv adoption, Checked loaded shouldWriteEnv ∧
        Adopted loaded shouldWriteEnv adoption ∧ envGone request loaded shouldWriteEnv = none ∧
        answer = answered host.sha256 request loaded shouldWriteEnv ∧
        Saved host.sha256 (writeTargets request loaded shouldWriteEnv) adoption (others.foldl Site.edit site) reached)
      (fun error _ => Failed error) fun _ => True := by
  refine Ensures.bind _ checks ?_
  rintro ⟨loaded, shouldWriteEnv⟩ _ ⟨rfl, checked⟩
  refine Ensures.bind _ (adopts loaded shouldWriteEnv checked) ?_
  rintro adoption _ ⟨rfl, adopted⟩
  refine Ensures.bind (fun _ reached => site = reached ∧ envGone request loaded shouldWriteEnv = none) ?_ ?_
  · cases absent : envGone request loaded shouldWriteEnv with
    | none => exact Ensures.pure ⟨rfl, rfl⟩
    | some error => exact Ensures.fail (gone loaded shouldWriteEnv checked error absent)
  rintro _ _ ⟨rfl, there⟩
  refine Ensures.bind (fun _ reached => others.foldl Site.edit site = reached) (Ensures.modify rfl) ?_
  rintro _ _ rfl
  refine Ensures.bind _ (Ensures.under (fun _ _ => trivial) ((write_ensures _ _ _).mono (fun _ _ => id)
    (fun error _ => refused loaded shouldWriteEnv checked error) fun _ => id)) ?_
  rintro ⟨result, journal⟩ middle ⟨distinct, hashes, saved⟩
  have plain (error : SaveError) (held : error.isConflict = false) : Failed error :=
    refused loaded shouldWriteEnv checked error fun _ => held
  refine Ensures.bind _ (Ensures.under (fun _ _ => trivial) ((removeOpened_ensures parts journal).mono
    (fun _ _ => id) (fun error _ both => plain error both.1) fun _ _ => trivial)) ?_
  intro _ cleaned alike
  refine Ensures.bind _ (Ensures.under (fun _ _ => trivial) ((applyOwnership_ensures _ _).mono
    (fun _ _ => id) (fun error _ both => plain error both.1) fun _ _ => trivial)) ?_
  rintro _ _ rfl
  refine Ensures.pure ⟨loaded, shouldWriteEnv, adoption, checked, adopted, there, ?_, saved.alike alike⟩
  exact savedBaseline_eq distinct hashes

end

end Dockge.StackSave
