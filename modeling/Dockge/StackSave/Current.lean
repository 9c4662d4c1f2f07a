import Dockge.StackConfig.Selection
import Dockge.StackSave.Saving

namespace Dockge.StackSave

open Dockge.Data
open Dockge.StackConfig
open Dockge.StackWrite

/-! A baseline that says what the files of a stack hold, and the saves that are made from it. -/

variable {Hash : Type} {site : Site Hash} {request : Request Hash} {name : String}

/-- The operations by which a save reads what is there do not fail. -/
structure Weather.Reads (weather : Weather) : Prop where
  opening : ∀ fate ∈ weather.opening, fate = .ok
  checking : ∀ fate ∈ weather.checking, fate = .ok
  adopting : ∀ fate ∈ weather.adopting, fate = .ok

/-- The baseline names the files the stack uses, and says what they hold. -/
structure Current (sha256 : Bytes → Hash) (name : String) (site : Site Hash)
    (baseline : StackFileBaseline Hash) : Prop where
  directory : site.directory = true
  composeFileName : ∀ fileName, baseline.composeFileName = some fileName →
    fileName = (site.loaded name).composeFileName
  envFileName : ∀ fileName, baseline.envFileName = some fileName →
    fileName = (site.loaded name).activeEnvFileName
  compose : ∀ hash, baseline.compose = some hash →
    hash = site.disk.hashOf sha256 (site.loaded name).composeFileName
  env : ∀ hash, baseline.env = some hash →
    hash = site.disk.hashOf sha256 (site.loaded name).activeEnvFileName

/-- Whether this save writes the env file. -/
def Site.writesEnv (site : Site Hash) (request : Request Hash) : Bool :=
  site.present (site.loaded request.name).activeEnvFileName || !blank request.composeENV

theorem Current.asserted {sha256 : Bytes → Hash} {baseline : StackFileBaseline Hash} {shouldWriteEnv : Bool}
    (current : Current sha256 name site baseline) :
    assertBaselineSelection (some baseline) (site.loaded name) shouldWriteEnv = none := by
  have compose : ¬ baseline.composeFileName.any (· ≠ (site.loaded name).composeFileName) = true := by
    cases named : baseline.composeFileName with
    | none => simp
    | some fileName => simp [current.composeFileName fileName named]
  have env : ¬ (shouldWriteEnv && baseline.envFileName.any (· ≠ (site.loaded name).activeEnvFileName)) = true := by
    cases named : baseline.envFileName with
    | none => simp
    | some fileName => simp [current.envFileName fileName named]
  rw [assertBaselineSelection, if_neg compose, if_neg env]

theorem Current.expected {sha256 : Bytes → Hash} {baseline : StackFileBaseline Hash}
    (current : Current sha256 request.name site baseline) (asked : request.baseline = some baseline)
    (shouldWriteEnv : Bool) :
    Expected sha256 (writeTargets request (site.loaded request.name) shouldWriteEnv) site.disk := by
  intro target member hash wanted
  rw [writeTargets, asked] at member
  rcases List.mem_cons.mp member with same | later
  · subst same
    exact current.compose hash wanted
  · cases shouldWriteEnv with
    | false => cases later
    | true =>
        have same := List.mem_singleton.mp later
        subst same
        exact current.env hash wanted

theorem Current.envThere {sha256 : Bytes → Hash} {baseline : StackFileBaseline Hash}
    (current : Current sha256 request.name site baseline) (asked : request.baseline = some baseline) :
    envGone request (site.loaded request.name) (site.writesEnv request) = none := by
  by_cases there : site.writesEnv request = true
  · simp [envGone, there]
  · have absent : site.disk.files (site.loaded request.name).activeEnvFileName = none := by
      cases held : site.disk.files (site.loaded request.name).activeEnvFileName with
      | none => rfl
      | some file => exact absurd (by simp [Site.writesEnv, Site.present, held]) there
    have unhashed : (baseline.env).any (·.isSome) = false := by
      cases told : baseline.env with
      | none => rfl
      | some hash =>
          have same := current.env hash told
          simp [same, Disk.hashOf, Disk.bytes, absent]
    simp [envGone, asked, unhashed]

/-! ### The steps of a save whose reads work -/

theorem prepareDirectory_there (there : site.directory = true) (isAdd : Bool) :
    Ensures (· = .ok) (prepareDirectory isAdd) site (fun _ reached => site = reached ∧ isAdd = false)
      (fun error _ => error.isConflict = false) fun _ => True := by
  refine Ensures.bind (fun answer reached => answer = true ∧ site = reached) ?_ ?_
  · exact Ensures.mono Answers.answering (fun _ _ both => ⟨both.1.trans there, both.2⟩)
      (fun _ _ absurd => absurd.elim) fun _ _ => trivial
  intro answer _ held
  obtain ⟨rfl, rfl⟩ := held
  cases isAdd with
  | false => exact Ensures.pure ⟨rfl, rfl⟩
  | true => exact Ensures.bind (fun _ _ => False) (Ensures.fail rfl) fun _ _ absurd => absurd.elim

theorem openStack_there {host : Host Hash} (there : site.directory = true) :
    Ensures (· = .ok) (openStack host request) site
      (fun built reached => built = site.built ∧ site = reached ∧ request.isAdd = false)
      (fun error _ => error.isConflict = false) fun _ => True := by
  refine Ensures.bind _ ((constructed_answers _).mono (fun _ _ => id) (fun _ _ absurd => absurd.elim)
    fun _ absurd => absurd.elim) ?_
  intro built _ held
  obtain ⟨rfl, rfl⟩ := held
  refine Ensures.bind (fun _ reached => site = reached) ?_ ?_
  · unfold refuse Request.valid
    split
    · rename_i error invalid
      refine Ensures.fail ?_
      split at invalid
      · cases invalid
        rfl
      split at invalid
      · cases invalid
        rfl
      split at invalid
      · cases invalid
        rfl
      · cases invalid
    · exact Ensures.pure rfl
  intro _ _ same
  subst same
  refine Ensures.bind _ (prepareDirectory_there there request.isAdd) ?_
  intro _ _ held
  obtain ⟨rfl, old⟩ := held
  exact Ensures.pure ⟨rfl, rfl, old⟩

/-- The selection is checked against what is there. -/
theorem check_reads :
    Ensures (· = .ok) (check request site.built) site
      (fun checked reached => site = reached ∧ checked = (site.loaded request.name, site.writesEnv request))
      (fun error _ => assertBaselineSelection request.baseline (site.loaded request.name)
        (site.writesEnv request) = none → error.isConflict = false) fun _ => True := by
  refine Ensures.bind _ ((loadFileConfig_answers _ _).mono (fun _ _ => id) (fun _ _ absurd => absurd.elim)
    fun _ absurd => absurd.elim) ?_
  intro loaded _ held
  obtain ⟨rfl, rfl⟩ := held
  refine Ensures.bind (fun _ reached => site = reached) ?_ ?_
  · split
    · exact Ensures.pure rfl
    · exact Ensures.fail fun _ => rfl
  intro _ _ same
  subst same
  refine Ensures.bind _ (Answers.answering.mono (fun _ _ => id) (fun _ _ absurd => absurd.elim)
    fun _ absurd => absurd.elim) ?_
  intro there _ held
  obtain ⟨rfl, rfl⟩ := held
  refine Ensures.bind (fun _ reached => site = reached) ?_ ?_
  · unfold refuse
    split
    · rename_i error refused
      refine Ensures.fail fun passes => ?_
      have passes : assertBaselineSelection request.baseline (site.loaded request.name)
        (site.present (site.loaded request.name).activeEnvFileName || !blank request.composeENV) = none := passes
      rw [Site.loaded, refused] at passes
      cases passes
    · exact Ensures.pure rfl
  intro _ _ same
  subst same
  exact Ensures.pure ⟨rfl, rfl⟩

/-- The selection change of a save that reads the stored selection. -/
def Site.adoption (site : Site Hash) (name : String) (loaded : Loaded) (shouldWriteEnv : Bool) :
    Option (StackWriteMetadata StackFileConfig) :=
  if !shouldWriteEnv || loaded.activeEnvFileName ∈ loaded.config.envFileNames then none
  else some
    { stack := name
      before := site.disk.selections name
      after := { loaded.config with
        envFileNames := loaded.config.envFileNames ++ [loaded.activeEnvFileName]
        activeEnvFileName := loaded.activeEnvFileName } }

theorem envAdoption_answers (loaded : Loaded) (shouldWriteEnv : Bool) :
    Answers (envAdoption name loaded shouldWriteEnv) site (site.adoption name loaded shouldWriteEnv) := by
  unfold envAdoption Site.adoption
  split
  · exact Answers.pure
  · exact Answers.bind Answers.readAll Answers.pure

section
variable [DecidableEq Hash] {host : Host Hash}

/-- A save from such a baseline is not refused as a conflict. -/
theorem current_unrefused {baseline : StackFileBaseline Hash} (weather : Weather) (parts : List Part)
    (current : Current host.sha256 request.name site baseline) (asked : request.baseline = some baseline)
    (reads : weather.Reads) :
    Ensures Fate.Any (save host request weather [] parts) site (fun _ _ => True)
      (fun error _ => error.isConflict = false) fun _ => True := by
  refine Ensures.bind _ (Ensures.under reads.opening (openStack_there current.directory)) ?_
  intro built _ held
  obtain ⟨rfl, rfl, old⟩ := held
  refine Ensures.orElse (fun error _ => error.isConflict = false) ?_ ?_
  · refine Ensures.bind (fun _ reached => site = reached) ?_ ?_
    · rw [storeNew, old]
      exact Ensures.pure rfl
    intro _ _ same
    subst same
    have asserted : assertBaselineSelection request.baseline (site.loaded request.name)
        (site.writesEnv request) = none := by
      rw [asked]
      exact current.asserted
    let Checked (loaded : Loaded) (shouldWriteEnv : Bool) : Prop :=
      (loaded, shouldWriteEnv) = (site.loaded request.name, site.writesEnv request)
    refine (writeLoaded_ensures Checked (fun _ _ _ => True) (·.isConflict = false) weather [] parts site.built
      (Ensures.under reads.checking (check_reads.mono (fun _ _ => id) (fun _ _ held => held asserted)
        fun _ => id)) ?_ ?_ ?_).mono (fun _ _ _ => trivial)
        (fun _ _ => id) fun _ => id
    · intro loaded should _
      refine Ensures.under reads.adopting ((envAdoption_answers loaded should).mono ?_ ?_ ?_)
      · exact fun _ _ both => ⟨both.2, trivial⟩
      · exact fun _ _ absurd => absurd.elim
      · exact fun _ _ => trivial
    · intro loaded should same error gone
      cases same
      rw [current.envThere asked] at gone
      cases gone
    · intro loaded should same error spared
      cases same
      exact spared (current.expected asked _)
  · intro error reached plain
    refine Ensures.bind (fun _ _ => True) ?_ fun _ _ _ => Ensures.fail plain
    rw [giveUp, old]
    exact Ensures.pure trivial

end

end Dockge.StackSave
