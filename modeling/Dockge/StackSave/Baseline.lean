import Dockge.StackSave.Resaved

namespace Dockge.StackSave

open Dockge.Data
open Dockge.StackConfig
open Dockge.StackWrite

/-! A save respects what the editor read. -/

variable {Hash : Type} {site : Site Hash} {request : Request Hash} {name : String}

/-! ### The answer of the last save -/

theorem built_congr {reached : Site Hash} (files : reached.disk.files = site.disk.files) :
    reached.built = site.built := by
  unfold Site.built
  have same : reached.present = site.present := by
    funext fileName
    simp only [Site.present, files]
  rw [same]

theorem prepareDirectory_returns (isAdd : Bool) :
    Ensures (· = .ok) (prepareDirectory isAdd) site (fun _ reached => { site with directory := true } = reached)
      (fun _ _ => True) fun _ => True := by
  refine Ensures.bind (fun answer reached => answer = site.directory ∧ site = reached) ?_ ?_
  · exact Ensures.mono Answers.answering (fun _ _ => id) (fun _ _ absurd => absurd.elim) fun _ _ => trivial
  intro answer _ held
  obtain ⟨rfl, rfl⟩ := held
  cases isAdd with
  | true =>
      cases there : site.directory with
      | true => exact Ensures.bind (fun _ _ => False) (Ensures.fail trivial) fun _ _ absurd => absurd.elim
      | false =>
          refine Ensures.bind (fun _ reached => site = reached) (Ensures.pure rfl) ?_
          intro _ _ same
          subst same
          refine Ensures.operation rfl ?_
          intro fate same
          subst same
          simp only [there]
          exact rfl
  | false =>
      cases there : site.directory with
      | true =>
          refine Ensures.pure ?_
          rw [← there]
      | false => exact Ensures.fail trivial

theorem openStack_returns {host : Host Hash} :
    Ensures (· = .ok) (openStack host request) site
      (fun built reached => built = site.built ∧ { site with directory := true } = reached) (fun _ _ => True)
      fun _ => True := by
  refine Ensures.bind _ ((constructed_answers _).mono (fun _ _ => id) (fun _ _ _ => trivial)
    fun _ _ => trivial) ?_
  intro built _ held
  obtain ⟨rfl, rfl⟩ := held
  refine Ensures.bind (fun _ reached => site = reached) ?_ ?_
  · unfold refuse
    split
    · exact Ensures.fail trivial
    · exact Ensures.pure rfl
  intro _ _ same
  subst same
  refine Ensures.bind _ (prepareDirectory_returns request.isAdd) ?_
  intro _ _ same
  exact Ensures.pure ⟨rfl, same⟩

/-- Storing the selection of a new stack leaves its files. -/
theorem storeNew_ensures (weather : Weather) (built : String) :
    Ensures Fate.Any (storeNew request weather built) site
      (fun _ reached => reached.disk.files = site.disk.files ∧ reached.directory = site.directory ∧
        reached.entries = site.entries) (fun _ _ => True) fun _ => True := by
  refine Ensures.onlyIf (fun _ => ?_) fun _ => ⟨rfl, rfl, rfl⟩
  let Same (reached : Site Hash) : Prop := reached.disk.files = site.disk.files ∧
    reached.directory = site.directory ∧ reached.entries = site.entries
  have stores : Ensures Fate.Any (setSelection request.name (newConfig built request.composeENV)) site.disk
      (fun _ disk => disk.files = site.disk.files) (fun _ disk => disk.files = site.disk.files)
      fun disk => disk.files = site.disk.files :=
    setSelection_ensures any_ok (fun _ _ _ => rfl) rfl rfl fun _ _ _ _ => rfl
  refine Ensures.bind (fun _ => Same) (Ensures.under (fun _ _ => trivial) (Ensures.zoom ?_)) ?_
  · exact (quietly_ensures stores).mono (fun _ _ files => ⟨files, rfl, rfl⟩) (fun _ _ absurd => absurd)
      fun _ _ => trivial
  · intro _ _ same
    exact Ensures.pure same

section
variable [DecidableEq Hash] {host : Host Hash}

theorem save_current (host : Host Hash) (weather : Weather) (parts : List Part)
    (listed : ∀ fileName, site.present fileName = true → fileName ∈ site.entries) (reads : weather.Reads) :
    Ensures Fate.Any (save host request weather [] parts) site
      (fun answer reached => Current host.sha256 request.name reached answer) (fun _ _ => True)
      fun _ => True := by
  refine Ensures.bind _ (Ensures.under reads.opening openStack_returns) ?_
  intro built _ held
  obtain ⟨rfl, rfl⟩ := held
  refine Ensures.orElse (fun _ _ => True) ?_ ?_
  · refine Ensures.bind _ (storeNew_ensures weather site.built) ?_
    intro _ stored held
    obtain ⟨files, directory, entries⟩ := held
    have there : stored.present = site.present := by
      funext fileName
      simp only [Site.present, files]
    have built : site.built = stored.built := (built_congr files).symm
    have still : ∀ fileName, stored.present fileName = true → fileName ∈ stored.entries := by
      intro fileName held
      rw [entries]
      exact listed fileName (there ▸ held)
    let Checked (loaded : Loaded) (shouldWriteEnv : Bool) : Prop :=
      (loaded, shouldWriteEnv) = (stored.loaded request.name, stored.writesEnv request)
    let Adopted (loaded : Loaded) (shouldWriteEnv : Bool)
        (adoption : Option (StackWriteMetadata StackFileConfig)) : Prop :=
      adoption = stored.adoption request.name loaded shouldWriteEnv
    rw [built]
    refine (writeLoaded_ensures Checked Adopted (fun _ => True) weather [] parts stored.built
      (Ensures.under reads.checking (check_reads.mono (fun _ _ => id) (fun _ _ _ => trivial) fun _ => id))
      ?_ (fun _ _ _ _ _ => trivial) fun _ _ _ _ _ => trivial).mono ?_ (fun _ _ => id) fun _ => id
    · intro loaded shouldWriteEnv _
      refine Ensures.under reads.adopting ((envAdoption_answers loaded shouldWriteEnv).mono ?_ ?_ ?_)
      · exact fun _ _ both => ⟨both.2, both.1⟩
      · exact fun _ _ absurd => absurd.elim
      · exact fun _ _ => trivial
    · intro answer reached held
      obtain ⟨loaded, shouldWriteEnv, adoption, checked, adopted, _, rfl, saved⟩ := held
      cases checked
      rw [adopted] at saved
      refine saved.current ?_ still (directory.trans rfl)
      intro unwritten
      cases present : stored.present (stored.loaded request.name).activeEnvFileName with
      | false => rfl
      | true => simp [Site.writesEnv, present] at unwritten
  · intro error reached _
    exact Ensures.bind (fun _ _ => True) Ensures.trivial fun _ _ _ => Ensures.fail trivial

end

/-! ### The page -/

/-- The files are text: reading and writing them leaves their bytes. -/
def Site.Textual (site : Site Hash) : Prop :=
  ∀ fileName file, site.disk.files fileName = some file → transcode file.bytes = file.bytes

theorem loaded_compose_safe (wellFormed : site.WellFormed) :
    isSafeStackFileName (site.loaded name).composeFileName = true := by
  have kind : classifyStackFile (site.loaded name).composeFileName = some .compose := loaded_compose_kind
  refine isSafeStackFileName_of_kind (by rw [kind]; rfl) ?_
  unfold Site.loaded loadedFrom
  dsimp only
  split
  · have short : ∀ accepted ∈ acceptedComposeFileNames, accepted.toList.length ≤ maxFileNameLength := by decide
    exact short _ built_accepted
  · rename_i named
    cases empty : site.found.composeFileNames with
    | nil => exact absurd (resolveConfig_composeFileName_none empty) named
    | cons first rest =>
        have member : first ∈ site.found.composeFileNames := by simp [empty]
        exact wellFormed.short _ (mem_composeFileNames.mp (resolveConfig_composeFileName_mem member)).1.2

theorem loaded_env_safe (wellFormed : site.WellFormed) :
    isSafeStackFileName (site.loaded name).activeEnvFileName = true := by
  have kind : classifyStackFile (site.loaded name).activeEnvFileName = some .env := loaded_env_kind
  refine isSafeStackFileName_of_kind (by rw [kind]; rfl) ?_
  unfold Site.loaded loadedFrom Loaded.activeEnvFileName
  dsimp only
  split
  · decide
  · rename_i named
    exact wellFormed.short _ (mem_envFileNames.mp (resolveConfig_active_mem named)).1.2

theorem readSelectedFile_answers {fileName : String} (safe : isSafeStackFileName fileName = true) :
    Answers (readSelectedFile fileName) site (readStackFile site fileName) := by
  rw [readSelectedFile, if_pos safe]
  exact Answers.answering

/-- What the page of a stack shows when nothing fails. -/
def Site.page (sha256 : Bytes → Hash) (site : Site Hash) (name : String) : StackPage Hash :=
  let compose := readStackFile site (site.loaded name).composeFileName
  let env := readStackFile site (site.loaded name).activeEnvFileName
  { composeYAML := compose.content
    composeENV := env.content
    fileHashes := fileHashes sha256 (site.loaded name) compose env }

theorem toJSON_answers (sha256 : Bytes → Hash) (name : String) (wellFormed : site.WellFormed) :
    Ensures (· = .ok) (toJSON sha256 name) site
      (fun page _ => validateName name = true ∧ site.directory = true ∧ page = site.page sha256 name)
      (fun _ _ => True) fun _ => True := by
  have answers {α β : Type} {first : SiteTask Hash α} {next : α → SiteTask Hash β} {value : α}
      {returned : β → Site Hash → Prop} (before : Answers first site value)
      (after : Ensures (· = .ok) (next value) site returned (fun _ _ => True) fun _ => True) :
      Ensures (· = .ok) (first >>= next) site returned (fun _ _ => True) fun _ => True := by
    refine Ensures.bind _ (before.mono (fun _ _ => id) (fun _ _ _ => trivial) fun _ _ => trivial) ?_
    intro answer _ held
    obtain ⟨rfl, rfl⟩ := held
    exact after
  have refusing {condition : Bool} {error : SaveError} {next : Unit → SiteTask Hash (StackPage Hash)}
      {returned : StackPage Hash → Site Hash → Prop}
      (after : condition = true → Ensures (· = .ok) (next ()) site returned (fun _ _ => True) fun _ => True) :
      Ensures (· = .ok) (refuse (if condition then none else some error) >>= next) site returned
        (fun _ _ => True) fun _ => True := by
    cases condition with
    | false => exact Ensures.bind (fun _ _ => False) (Ensures.fail trivial) fun _ _ absurd => absurd.elim
    | true => exact answers Answers.pure (after rfl)
  refine refusing fun valid => answers Answers.answering (refusing fun there => ?_)
  refine answers (constructed_answers _) (answers (loadFileConfig_answers _ _) ?_)
  refine answers (readSelectedFile_answers (loaded_compose_safe wellFormed)) ?_
  refine answers (readSelectedFile_answers (loaded_env_safe wellFormed)) ?_
  exact Ensures.pure ⟨valid, there, rfl⟩

theorem hash_readStackFile {sha256 : Bytes → Hash} {fileName : String} (textual : site.Textual)
    (present : site.present fileName = true) :
    some (hashStackFileContent sha256 (readStackFile site fileName).content) =
      site.disk.hashOf sha256 fileName := by
  cases held : site.disk.files fileName with
  | none => simp [Site.present, held] at present
  | some file =>
      have survives := textual fileName file held
      rw [transcode] at survives
      simp [readStackFile, hashStackFileContent, Disk.hashOf, Disk.bytes, held, survives]

/-- The page of a stack whose compose file is there says what its files hold. -/
theorem page_current (sha256 : Bytes → Hash) (textual : site.Textual) (directory : site.directory = true)
    (compose : site.present (site.loaded name).composeFileName = true) :
    Current sha256 name site (site.page sha256 name).fileHashes := by
  have read (fileName : String) : (readStackFile site fileName).unread = false := by
    unfold readStackFile
    split <;> rfl
  refine ⟨directory, ?_, ?_, ?_, ?_⟩
  · intro fileName same
    exact (Option.some.inj same).symm
  · intro fileName same
    exact (Option.some.inj same).symm
  · intro hash same
    have same : (if (readStackFile site (site.loaded name).composeFileName).unread then none else
        some (hashStackFileContent sha256 (readStackFile site (site.loaded name).composeFileName).content)) =
          hash := Option.some.inj same
    rw [read, if_neg (by simp), hash_readStackFile textual compose] at same
    exact same.symm
  · intro hash same
    have same : (if (readStackFile site (site.loaded name).activeEnvFileName).unread ||
        (readStackFile site (site.loaded name).activeEnvFileName).missing then none else
        some (hashStackFileContent sha256 (readStackFile site (site.loaded name).activeEnvFileName).content)) =
          hash := Option.some.inj same
    rw [read, Bool.false_or] at same
    cases there : site.present (site.loaded name).activeEnvFileName with
    | true =>
        have found : (readStackFile site (site.loaded name).activeEnvFileName).missing = false := by
          cases held : site.disk.files (site.loaded name).activeEnvFileName with
          | none => simp [Site.present, held] at there
          | some file => simp [readStackFile, held]
        rw [found, if_neg (by simp), hash_readStackFile textual there] at same
        exact same.symm
    | false =>
        have absent : site.disk.files (site.loaded name).activeEnvFileName = none := by
          simpa [Site.present] using there
        have missing : (readStackFile site (site.loaded name).activeEnvFileName).missing = true := by
          simp [readStackFile, absent]
        rw [missing, if_pos rfl] at same
        simp [← same, Disk.hashOf, Disk.bytes, absent]

end Dockge.StackSave
