import Dockge.StackSave.Baseline

namespace Dockge.StackSave

open Dockge.Data
open Dockge.StackConfig
open Dockge.StackWrite

/-! What a save from a page found, and which pages cannot be saved from. -/

variable {Hash : Type} {site : Site Hash} {request : Request Hash} {name : String}

/-! ### What the page says -/

/-- A hash of the page is the one of the text it shows. -/
structure StackPage.Honest (sha256 : Bytes → Hash) (page : StackPage Hash) : Prop where
  compose : page.fileHashes.compose = some none ∨
    page.fileHashes.compose = some (some (hashStackFileContent sha256 page.composeYAML))
  env : page.fileHashes.env = some none ∨
    page.fileHashes.env = some (some (hashStackFileContent sha256 page.composeENV))
  composeFileName : page.fileHashes.composeFileName.isSome
  envFileName : page.fileHashes.envFileName.isSome

theorem toJSON_honest (sha256 : Bytes → Hash) (name : String) :
    Ensures Fate.Any (toJSON sha256 name) site (fun page _ => page.Honest sha256) (fun _ _ => True)
      fun _ => True := by
  refine Ensures.bind (fun _ _ => True) Ensures.trivial fun _ _ _ => ?_
  refine Ensures.bind (fun _ _ => True) Ensures.trivial fun _ _ _ => ?_
  refine Ensures.bind (fun _ _ => True) Ensures.trivial fun _ _ _ => ?_
  refine Ensures.bind (fun _ _ => True) Ensures.trivial fun _ _ _ => ?_
  refine Ensures.bind (fun _ _ => True) Ensures.trivial fun loaded _ _ => ?_
  refine Ensures.bind (fun _ _ => True) Ensures.trivial fun compose _ _ => ?_
  refine Ensures.bind (fun _ _ => True) Ensures.trivial fun env _ _ => ?_
  refine Ensures.pure ⟨?_, ?_, rfl, rfl⟩
  · cases unread : compose.unread with
    | true => exact .inl (by simp [fileHashes, unread])
    | false => exact .inr (by simp [fileHashes, unread])
  · cases unread : env.unread || env.missing with
    | true => exact .inl (by simp [fileHashes, unread])
    | false => exact .inr (by simp [fileHashes, unread])

/-! ### What the save found -/

theorem expected_congr {sha256 : Bytes → Hash} {targets : List (StackFileTarget Hash)}
    {disk other : Disk Hash StackFileConfig} (files : disk.files = other.files)
    (expected : Expected sha256 targets disk) : Expected sha256 targets other := by
  intro target member hash wanted
  rw [expected target member hash wanted, Disk.hashOf, Disk.hashOf, Disk.bytes, Disk.bytes, files]

theorem prepareDirectory_files (isAdd : Bool) :
    Ensures Fate.Any (prepareDirectory isAdd) site (fun _ reached => reached.disk = site.disk)
      (fun _ _ => True) fun _ => True := by
  refine Ensures.bind (fun _ reached => site = reached) ((Looks.answering _ _ site).mono (fun _ _ => id)
    (fun _ _ _ => trivial) fun _ _ => trivial) ?_
  intro there _ same
  subst same
  cases isAdd with
  | true =>
      refine Ensures.bind (fun _ reached => site = reached) ((Looks.refuse _ site).mono (fun _ _ => id)
        (fun _ _ _ => trivial) fun _ _ => trivial) ?_
      intro _ _ same
      subst same
      refine Ensures.operation any_ok ?_
      intro fate _
      cases fate with
      | ok =>
          dsimp only
          split
          · exact trivial
          · exact rfl
      | fail => exact trivial
      | late => exact trivial
      | kill => exact trivial
  | false =>
      exact (Looks.refuse _ site).mono (fun _ _ same => same ▸ rfl) (fun _ _ _ => trivial) fun _ _ => trivial

theorem openStack_files {host : Host Hash} :
    Ensures Fate.Any (openStack host request) site (fun _ reached => reached.disk = site.disk) (fun _ _ => True)
      fun _ => True := by
  refine Ensures.bind (fun _ reached => site = reached) ((constructed_looks _ site).mono (fun _ _ => id)
    (fun _ _ _ => trivial) fun _ _ => trivial) ?_
  intro _ _ same
  subst same
  refine Ensures.bind (fun _ reached => site = reached) ((Looks.refuse _ site).mono (fun _ _ => id)
    (fun _ _ _ => trivial) fun _ _ => trivial) ?_
  intro _ _ same
  subst same
  refine Ensures.bind _ (prepareDirectory_files request.isAdd) ?_
  intro _ _ same
  exact Ensures.pure same

theorem check_asserted (built : String) :
    Ensures Fate.Any (check request built) site
      (fun checked reached => site = reached ∧
        assertBaselineSelection request.baseline checked.1 checked.2 = none) (fun _ _ => True)
      fun _ => True := by
  have looks {α β : Type} {first : SiteTask Hash α} {next : α → SiteTask Hash β}
      {returned : β → Site Hash → Prop} (before : Looks first)
      (after : ∀ value, Ensures Fate.Any (next value) site returned (fun _ _ => True) fun _ => True) :
      Ensures Fate.Any (first >>= next) site returned (fun _ _ => True) fun _ => True := by
    refine Ensures.bind _ ((before site).mono (fun _ _ => id) (fun _ _ _ => trivial) fun _ _ => trivial) ?_
    intro value _ same
    subst same
    exact after value
  refine looks (loadFileConfig_looks _ _) fun loaded => ?_
  refine looks (Looks.refuse _) fun _ => looks (Looks.answering _ _) fun there => ?_
  refine Ensures.bind (fun _ reached => site = reached ∧ assertBaselineSelection request.baseline loaded
    (there || !blank request.composeENV) = none) ?_ ?_
  · unfold refuse
    split
    · exact Ensures.fail trivial
    · exact Ensures.pure ⟨rfl, ‹_›⟩
  · intro _ _ held
    exact Ensures.pure held

section
variable [DecidableEq Hash] {host : Host Hash}

/-- The save that returned passed its checks, and its write found what the baseline says. -/
theorem save_found (host : Host Hash) (weather : Weather) (others : List (String × Option File)) (parts : List Part) :
    Ensures Fate.Any (save host request weather others parts) site
      (fun answer _ => ∃ loaded shouldWriteEnv,
        answer = answered host.sha256 request loaded shouldWriteEnv ∧
        assertBaselineSelection request.baseline loaded shouldWriteEnv = none ∧
        Expected host.sha256 (writeTargets request loaded shouldWriteEnv) (others.foldl Site.edit site).disk)
      (fun _ _ => True) fun _ => True := by
  refine Ensures.bind _ (Ensures.under (fun _ _ => trivial) openStack_files) ?_
  intro built opened same
  refine Ensures.orElse (fun _ _ => True) ?_ ?_
  · refine Ensures.bind _ (storeNew_ensures weather built) ?_
    intro _ stored held
    have files : stored.disk.files = site.disk.files := held.1.trans (congrArg _ same)
    let Checked (loaded : Loaded) (shouldWriteEnv : Bool) : Prop :=
      assertBaselineSelection request.baseline loaded shouldWriteEnv = none
    refine (writeLoaded_ensures Checked (fun _ _ _ => True) (fun _ => True) weather others parts built
      (Ensures.under (fun _ _ => trivial) (check_asserted built)) ?_ (fun _ _ _ _ _ => trivial)
      fun _ _ _ _ _ => trivial).mono ?_ (fun _ _ => id) fun _ => id
    · intro loaded shouldWriteEnv _
      exact ((envAdoption_looks request.name loaded shouldWriteEnv).under stored).mono
        (fun _ _ same => ⟨same, trivial⟩) (fun _ _ _ => trivial) fun _ _ => trivial
    · intro answer _ held
      obtain ⟨loaded, shouldWriteEnv, _, checked, _, _, same, saved⟩ := held
      exact ⟨loaded, shouldWriteEnv, same, checked, expected_congr (edited_files others files) saved.expected⟩
  · intro error reached _
    exact Ensures.bind (fun _ _ => True) Ensures.trivial fun _ _ _ => Ensures.fail trivial

end

/-- The bytes a hash of the page stands for, or that there is no file. -/
def hashedBytes (hash : Option (Option Hash)) (content : String) : Option Bytes :=
  hash.bind fun hash => hash.map fun _ => encodeUtf8 content.toList

/-- When it was written, the files of a save were those of the page and held what the page had read. -/
structure FoundAs (page : StackPage Hash) (answer : StackFileBaseline Hash)
    (disk : Disk Hash StackFileConfig) : Prop where
  composeFileName : answer.composeFileName = page.fileHashes.composeFileName
  compose : ∀ fileName, answer.composeFileName = some fileName →
    disk.bytes fileName = hashedBytes page.fileHashes.compose page.composeYAML
  envFileName : answer.env ≠ some none → answer.envFileName = page.fileHashes.envFileName
  env : answer.env ≠ some none → ∀ fileName, answer.envFileName = some fileName →
    disk.bytes fileName = hashedBytes page.fileHashes.env page.composeENV

theorem bytes_of_hash {sha256 : Bytes → Hash} {disk : Disk Hash StackFileConfig} {hash : Option (Option Hash)}
    {content fileName : String} (injective : Function.Injective sha256)
    (honest : hash = some none ∨ hash = some (some (hashStackFileContent sha256 content)))
    (held : ∀ wanted, hash = some wanted → wanted = disk.hashOf sha256 fileName) :
    disk.bytes fileName = hashedBytes hash content := by
  rcases honest with absent | same
  · subst absent
    have none_there : none = disk.hashOf sha256 fileName := held none rfl
    rw [Disk.hashOf] at none_there
    simpa [hashedBytes] using none_there.symm
  · subst same
    have there : some (sha256 (encodeUtf8 content.toList)) = disk.hashOf sha256 fileName := held _ rfl
    cases bytes : disk.bytes fileName with
    | none => simp [Disk.hashOf, bytes] at there
    | some found =>
        rw [Disk.hashOf, bytes] at there
        rw [← injective (Option.some.inj there)]
        rfl

theorem asserted_names {baseline : StackFileBaseline Hash} {loaded : Loaded} {shouldWriteEnv : Bool}
    (passed : assertBaselineSelection (some baseline) loaded shouldWriteEnv = none) :
    (∀ fileName, baseline.composeFileName = some fileName → fileName = loaded.composeFileName) ∧
      (shouldWriteEnv = true → ∀ fileName, baseline.envFileName = some fileName →
        fileName = loaded.activeEnvFileName) := by
  unfold assertBaselineSelection at passed
  dsimp only at passed
  split at passed
  · cases passed
  rename_i compose
  split at passed
  · cases passed
  rename_i env
  constructor
  · intro fileName named
    simpa [named] using compose
  · intro writes fileName named
    simpa [writes, named] using env

/-- A save from what a page said found what the page had read. -/
theorem foundAs {sha256 : Bytes → Hash} {page : StackPage Hash} {loaded : Loaded} {shouldWriteEnv : Bool}
    {disk : Disk Hash StackFileConfig} (injective : Function.Injective sha256) (honest : page.Honest sha256)
    (asked : request.baseline = some page.fileHashes)
    (passed : assertBaselineSelection request.baseline loaded shouldWriteEnv = none)
    (expected : Expected sha256 (writeTargets request loaded shouldWriteEnv) disk) :
    FoundAs page (answered sha256 request loaded shouldWriteEnv) disk := by
  rw [asked] at passed
  obtain ⟨compose, env⟩ := asserted_names passed
  obtain ⟨composeName, composeNamed⟩ := Option.isSome_iff_exists.mp honest.composeFileName
  obtain ⟨envName, envNamed⟩ := Option.isSome_iff_exists.mp honest.envFileName
  refine ⟨?_, ?_, ?_, ?_⟩
  · rw [composeNamed, compose composeName composeNamed]
    rfl
  · intro fileName same
    cases same
    refine bytes_of_hash injective honest.compose ?_
    intro wanted told
    exact expected _ List.mem_cons_self wanted (by simp [asked, told])
  · intro written
    cases shouldWriteEnv with
    | false => exact absurd rfl written
    | true =>
        rw [envNamed, env rfl envName envNamed]
        rfl
  · intro written fileName same
    cases same
    cases shouldWriteEnv with
    | false => exact absurd rfl written
    | true =>
        refine bytes_of_hash injective honest.env ?_
        intro wanted told
        exact expected _ (List.mem_cons_of_mem _ List.mem_cons_self) wanted (by simp [asked, told])

/-! ### The page of a stack without a compose file -/

section
variable [DecidableEq Hash] {host : Host Hash}

theorem planWrite_conflict {sha256 : Bytes → Hash} {disk : Disk Hash StackFileConfig}
    {target : StackFileTarget Hash} {rest : List (StackFileTarget Hash)} {hash : Hash}
    (missing : disk.files target.name = none) (wanted : target.expectedHash = some (some hash)) :
    Ensures (· = .ok) (planWrite sha256 (target :: rest)) disk (fun _ _ => False)
      (fun error _ => error = .conflict target.name) fun _ => False := by
  refine Ensures.bind (fun state reached => state.hash = none ∧ disk = reached) ?_ ?_
  · unfold readStackFileState ask
    refine Ensures.operation rfl ?_
    intro fate same
    subst same
    simp only [missing]
    exact ⟨rfl, rfl⟩
  intro state _ held
  obtain ⟨unhashed, rfl⟩ := held
  have mismatch : ¬ target.expectedHash.all (· = state.hash) = true := by
    simp [wanted, unhashed]
  rw [if_neg mismatch]
  exact Ensures.bind (fun _ _ => False) (Ensures.fail rfl) fun _ _ absurd => absurd.elim

/-- The write of a file that is not there is refused where the baseline has a hash of it. -/
theorem write_conflict {targets : List (StackFileTarget Hash)} {target : StackFileTarget Hash}
    {rest : List (StackFileTarget Hash)} {hash : Hash} (shape : targets = target :: rest)
    (adoption : Option (StackWriteMetadata StackFileConfig)) (parts : List Part)
    (safe : ∀ target ∈ targets, isSafeStackFileName target.name = true ∧ target.content = "")
    (distinct : (targets.map (·.name)).Nodup) (missing : site.disk.files target.name = none)
    (wanted : target.expectedHash = some (some hash)) :
    Ensures (· = .ok) (write host targets adoption parts) site (fun _ _ => False)
      (fun error _ => error.isConflict = true) fun _ => False := by
  refine Ensures.bind (fun _ reached => reached.disk = site.disk) (Ensures.modify rfl) ?_
  intro _ listed same
  refine Ensures.zoom ?_
  rw [same]
  refine Ensures.bind (fun _ reached => site.disk = reached) ?_ ?_
  · refine Ensures.forEach (fun _ reached => site.disk = reached) rfl ?_
    intro before other after disk within same
    subst same
    obtain ⟨named, empty⟩ := safe other (by simp [within])
    refine Ensures.bind (fun _ reached => site.disk = reached) ?_ ?_
    · rw [named]
      exact Ensures.pure rfl
    · intro _ _ same
      subst same
      rw [empty]
      exact Ensures.pure rfl
  intro _ _ same
  subst same
  rw [if_pos distinct]
  refine Ensures.bind (fun _ reached => site.disk = reached) (Ensures.pure rfl) ?_
  intro _ _ same
  subst same
  rw [shape]
  refine Ensures.bind (fun _ _ => False) ((planWrite_conflict missing wanted).mono (fun _ _ => id) ?_ fun _ => id)
    fun _ _ absurd => absurd.elim
  intro error _ conflict
  rw [conflict]
  rfl

theorem page_refused (wellFormed : site.WellFormed) (valid : validateName name = true)
    (empty : host.parses "" = true) (directory : site.directory = true)
    (missing : site.present (site.loaded name).composeFileName = false) :
    ∃ request : Request Hash, request.name = name ∧
      request.baseline = some (site.page host.sha256 name).fileHashes ∧
      Ensures (· = .ok) (save host request {} [] []) site (fun _ _ => False)
        (fun error _ => error.isConflict = true) fun _ => False := by
  let request : Request Hash := ⟨name, "", "", false, some (site.page host.sha256 name).fileHashes⟩
  have acceptable : request.valid host = none := by
    have unquoted : envFormatInvalid "" = false := by decide
    simp [Request.valid, request, valid, empty, unquoted]
  refine ⟨request, rfl, rfl, ?_⟩
  have answers {α β : Type} {first : SiteTask Hash α} {next : α → SiteTask Hash β} {value : α}
      {returned : β → Site Hash → Prop} {threw : SaveError → Site Hash → Prop}
      (before : Answers first site value)
      (after : Ensures (· = .ok) (next value) site returned threw fun _ => False) :
      Ensures (· = .ok) (first >>= next) site returned threw fun _ => False := by
    refine Ensures.bind _ (before.mono (fun _ _ => id) (fun _ _ absurd => absurd.elim)
      fun _ absurd => absurd.elim) ?_
    intro answer _ held
    obtain ⟨rfl, rfl⟩ := held
    exact after
  have under {α : Type} {program : SiteTask Hash α} {value : α} (before : Answers program site value) :
      Answers (Program.under [] program) site value := Ensures.under (by simp) before
  have validates : Answers (refuse (request.valid host)) site () := by
    rw [acceptable]
    exact Answers.pure
  have prepares : Answers (prepareDirectory false) site () := by
    refine Answers.bind Answers.answering ?_
    rw [directory]
    exact Answers.pure
  have opens : Answers (openStack host request) site site.built :=
    Answers.bind (constructed_answers _) (Answers.bind validates (Answers.bind prepares Answers.pure))
  have asserted : Answers (refuse (assertBaselineSelection request.baseline (site.loaded name)
      (site.writesEnv request))) site () := by
    have composeNamed : (site.page host.sha256 name).fileHashes.composeFileName =
        some (site.loaded name).composeFileName := rfl
    have envNamed : (site.page host.sha256 name).fileHashes.envFileName =
        some (site.loaded name).activeEnvFileName := rfl
    have passes : assertBaselineSelection request.baseline (site.loaded name) (site.writesEnv request) = none := by
      simp [assertBaselineSelection, request, composeNamed, envNamed]
    rw [passes]
    exact Answers.pure
  have safe : Answers (refuse (if isSafeStackFileName (site.loaded name).activeEnvFileName then none
      else some (.stackFileNameInvalid (site.loaded name).activeEnvFileName))) site () := by
    rw [if_pos (loaded_env_safe wellFormed)]
    exact Answers.pure
  have checks : Answers (check request site.built) site (site.loaded name, site.writesEnv request) :=
    Answers.bind (loadFileConfig_answers _ _) (Answers.bind safe (Answers.bind Answers.answering
      (Answers.bind asserted Answers.pure)))
  have there : Answers (refuse (envGone request (site.loaded name) (site.writesEnv request))) site () := by
    have kept : envGone request (site.loaded name) (site.writesEnv request) = none := by
      cases writes : site.writesEnv request with
      | true => simp [envGone]
      | false =>
          have absent : site.disk.files (site.loaded name).activeEnvFileName = none := by
            cases held : site.disk.files (site.loaded name).activeEnvFileName with
            | none => rfl
            | some file => simp [Site.writesEnv, request, Site.present, held] at writes
          have unread : (site.page host.sha256 name).fileHashes.env = some none := by
            simp [Site.page, fileHashes, readStackFile, absent]
          simp [envGone, request, unread]
    rw [kept]
    exact Answers.pure
  have absent : site.disk.files (site.loaded name).composeFileName = none := by
    simpa [Site.present] using missing
  have wanted : request.baseline.bind (·.compose) = some (some (hashStackFileContent host.sha256 "")) := by
    simp [request, Site.page, fileHashes, readStackFile, absent]
  refine answers (under opens) ?_
  refine Ensures.orElse (fun error _ => error.isConflict = true) ?_ ?_
  · refine answers Answers.pure ?_
    refine answers (under checks) (answers (under (envAdoption_answers _ _)) (answers there ?_))
    refine Ensures.bind (fun _ reached => site = reached) (Ensures.modify rfl) ?_
    intro _ _ same
    subst same
    have nothing : ∀ fate ∈ ([] : List Fate), fate = .ok := by simp
    refine Ensures.bind (fun _ _ => False) (Ensures.under nothing ?_) fun _ _ absurd => absurd.elim
    refine write_conflict rfl _ [] ?_ ?_ absent wanted
    · intro target member
      rcases List.mem_cons.mp member with rfl | later
      · exact ⟨loaded_compose_safe wellFormed, rfl⟩
      · cases writes : site.writesEnv request with
        | false => simp [writes] at later
        | true =>
            rw [writes] at later
            rw [List.mem_singleton.mp later]
            exact ⟨loaded_env_safe wellFormed, rfl⟩
    · cases writes : site.writesEnv request with
      | false => simp
      | true => simpa [writeTargets] using loaded_distinct
  · intro error reached conflict
    exact Ensures.bind (fun _ _ => True) (Ensures.pure trivial) fun _ _ _ => Ensures.fail conflict

/-! ### What a save respects -/

/-- A save that returned found the files as the page had read them.  A save is not refused as a conflict
while nobody changes anything, if its baseline is the answer of the last one; if it is the page, exactly
where the compose file is there. -/
theorem saves_respect_baseline (injective : Function.Injective host.sha256) (empty : host.parses "" = true) :
    (∀ name start fates page, (toJSON host.sha256 name fates start).ending = .done page →
      ∀ request weather others parts site answer, request.baseline = some page.fileHashes →
        (save host request weather others parts [] site).ending = .done answer →
          FoundAs page answer (others.foldl Site.edit site).disk) ∧
    (∀ (site : Site Hash) request weather parts answer, site.WellFormed → weather.Reads →
      (save host request weather [] parts [] site).ending = .done answer →
        let saved := (save host request weather [] parts [] site).state
        ∀ next weather parts error, next.name = request.name → next.baseline = some answer → weather.Reads →
          (save host next weather [] parts [] saved).ending = .threw error → error.isConflict = false) ∧
    ∀ (site : Site Hash) name fates page, site.WellFormed → site.Textual → (∀ fate ∈ fates, fate = .ok) →
      (toJSON host.sha256 name fates site).ending = .done page →
        ((∀ request weather parts error, request.name = name → request.baseline = some page.fileHashes →
          weather.Reads → (save host request weather [] parts [] site).ending = .threw error →
            error.isConflict = false) ↔
          site.present (site.loaded name).composeFileName = true) := by
  refine ⟨?_, ?_, ?_⟩
  · intro name start fates page shown request weather others parts site answer asked returned
    have honest := (toJSON_honest host.sha256 name).done_of (fun _ _ => trivial) shown
    obtain ⟨loaded, shouldWriteEnv, rfl, passed, expected⟩ :=
      (save_found host weather others parts).done_of (fun _ _ => trivial) returned
    exact foundAs injective honest asked passed expected
  · intro site request weather parts answer wellFormed reads returned saved next later rest error same asked
      laterReads refused
    have current := (save_current host weather parts wellFormed.listed reads).done_of (fun _ _ => trivial) returned
    exact (current_unrefused later rest (same ▸ current) asked laterReads).threw_of (fun _ _ => trivial) refused
  · intro site name fates page wellFormed textual reads shown
    obtain ⟨valid, directory, rfl⟩ := (toJSON_answers host.sha256 name wellFormed).done_of reads shown
    constructor
    · intro unrefused
      cases there : site.present (site.loaded name).composeFileName with
      | true => rfl
      | false =>
          obtain ⟨request, named, asked, conflicts⟩ := page_refused wellFormed valid empty directory there
          obtain ⟨error, refused, conflict⟩ := conflicts.throws (fun _ member => absurd member List.not_mem_nil)
          have spared := unrefused request {} [] error named asked ⟨by simp, by simp, by simp⟩ refused
          rw [spared] at conflict
          cases conflict
    · intro there request weather parts error same asked reads refused
      have current := page_current host.sha256 textual directory there
      exact (current_unrefused weather parts (same ▸ current) asked reads).threw_of (fun _ _ => trivial) refused

end

/-! ### A stack with a compose file and one without -/

def sampleHost : Host Bytes := { sha256 := id, parses := fun _ => true, owner := false }

def bareDisk : Disk Bytes StackFileConfig :=
  { files := fun _ => none
    journals := fun _ => none
    unresolved := fun _ => none
    nextId := 0
    selections := fun _ => none
    marked := []
    misread := false }

/-- A stack directory with nothing in it. -/
def bareSite : Site Bytes := { disk := bareDisk, directory := true, entries := [] }

/-- A stack directory with this compose file and nothing else. -/
def sampleSite : Site Bytes := bareSite.edit ("compose.yaml", some ⟨encodeUtf8 "services: {}".toList, 420⟩)

def sampleRequest (baseline : StackFileBaseline Bytes) : Request Bytes :=
  { name := "shop", composeYAML := "services: {web: {}}", composeENV := "TAG=1", isAdd := false,
    baseline := some baseline }

theorem calm_reads : ({} : Weather).Reads :=
  ⟨fun _ member => absurd member List.not_mem_nil, fun _ member => absurd member List.not_mem_nil,
    fun _ member => absurd member List.not_mem_nil⟩

def isRefused {α : Type} : Ending SaveError α → Bool
  | .threw error => error.isConflict
  | _ => false

theorem shown_of_isDone {site : Site Bytes} (wellFormed : site.WellFormed)
    (done : (toJSON id "shop" [] site).ending.isDone = true) :
    (toJSON id "shop" [] site).ending = .done (site.page id "shop") := by
  cases ended : (toJSON id "shop" [] site).ending with
  | done page =>
      have answered := (toJSON_answers id "shop" wellFormed).done_of
        (fun _ member => absurd member List.not_mem_nil) ended
      rw [answered.2.2]
  | threw error => simp [ended, Ending.isDone] at done
  | killed => simp [ended, Ending.isDone] at done

theorem sampleSite_wellFormed : sampleSite.WellFormed := by
  have only (name : String) (there : sampleSite.present name = true) : name = "compose.yaml" := by
    by_contra other
    simp [sampleSite, Site.edit, Site.present, Disk.setFile, Function.update_of_ne other, bareSite, bareDisk]
      at there
  refine ⟨?_, ?_, by simp [sampleSite, Site.edit, bareSite]⟩
  · intro name there
    rw [only name there]
    exact List.mem_cons_self
  · intro name there
    rw [only name there]
    decide

theorem bareSite_wellFormed : bareSite.WellFormed :=
  ⟨by simp [Site.present, bareSite, bareDisk], by simp [Site.present, bareSite, bareDisk], by simp [bareSite]⟩

theorem saves_respect_baseline_sample :
    ∃ page answer, (toJSON id "shop" [] sampleSite).ending = .done page ∧
      (save sampleHost (sampleRequest page.fileHashes) {} [] [] [] sampleSite).ending = .done answer ∧
      FoundAs page answer sampleSite.disk ∧
      ∀ error, (save sampleHost (sampleRequest answer) {} [] [] []
        (save sampleHost (sampleRequest page.fileHashes) {} [] [] [] sampleSite).state).ending = .threw error →
          error.isConflict = false := by
  have shown := shown_of_isDone sampleSite_wellFormed (by decide +kernel)
  have saved : (save sampleHost (sampleRequest (sampleSite.page id "shop").fileHashes) {} [] [] []
    sampleSite).ending.isDone = true := by decide +kernel
  obtain ⟨found, again, _⟩ := @saves_respect_baseline Bytes _ sampleHost (fun _ _ => id) rfl
  cases ended : (save sampleHost (sampleRequest (sampleSite.page id "shop").fileHashes) {} [] [] []
    sampleSite).ending with
  | done answer =>
      refine ⟨_, answer, shown, ended, ?_, ?_⟩
      · exact found _ _ _ _ shown _ _ [] [] _ answer rfl ended
      · intro error
        exact again _ _ _ _ answer sampleSite_wellFormed calm_reads ended _ _ _ error rfl rfl calm_reads
  | threw error => simp [ended, Ending.isDone] at saved
  | killed => simp [ended, Ending.isDone] at saved

/-- The page of a stack whose compose file is missing has the hash of an empty text for it, and every save
from that page is refused. -/
theorem missing_compose_refused :
    bareSite.WellFormed ∧ bareSite.Textual ∧ ∃ page,
      (toJSON id "shop" [] bareSite).ending = .done page ∧
        isRefused (save sampleHost (sampleRequest page.fileHashes) {} [] [] [] bareSite).ending = true := by
  refine ⟨bareSite_wellFormed, ?_, _, shown_of_isDone bareSite_wellFormed (by decide +kernel), ?_⟩
  · intro name file held
    cases held
  · decide +kernel

end Dockge.StackSave
