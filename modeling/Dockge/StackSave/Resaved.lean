import Dockge.StackSave.Current

namespace Dockge.StackSave

open Dockge.Data
open Dockge.StackConfig
open Dockge.StackWrite

/-! After a save the stack uses the files that were saved, so its answer is a baseline for the next one. -/

variable {Hash : Type} {site reached : Site Hash} {request : Request Hash} {name fileName : String}

/-! ### The kinds of the files in use -/

theorem mem_composeFileNames : fileName ∈ site.found.composeFileNames ↔
    (fileName ∈ site.entries ∧ site.present fileName = true) ∧ classifyStackFile fileName = some .compose := by
  simp only [Site.found, byKind, List.mem_filter, decide_eq_true_eq]

theorem mem_envFileNames : fileName ∈ site.found.envFileNames ↔
    (fileName ∈ site.entries ∧ site.present fileName = true) ∧ classifyStackFile fileName = some .env := by
  simp only [Site.found, byKind, List.mem_filter, decide_eq_true_eq]

theorem built_accepted : site.built ∈ acceptedComposeFileNames := by
  unfold Site.built
  cases chosen : acceptedComposeFileNames.find? site.present with
  | none => decide
  | some accepted => exact List.mem_of_find?_eq_some chosen

theorem accepted_kind : ∀ accepted ∈ acceptedComposeFileNames, classifyStackFile accepted = some .compose := by
  decide +kernel

theorem loaded_compose_kind : classifyStackFile (site.loaded name).composeFileName = some .compose := by
  unfold Site.loaded loadedFrom
  dsimp only
  split
  · exact accepted_kind _ built_accepted
  · rename_i named
    cases empty : site.found.composeFileNames with
    | nil => exact absurd (resolveConfig_composeFileName_none empty) named
    | cons first rest =>
        have member : first ∈ site.found.composeFileNames := by simp [empty]
        exact (mem_composeFileNames.mp (resolveConfig_composeFileName_mem member)).2

theorem loaded_env_kind : classifyStackFile (site.loaded name).activeEnvFileName = some .env := by
  unfold Site.loaded loadedFrom Loaded.activeEnvFileName
  dsimp only
  split
  · decide +kernel
  · rename_i named
    exact (mem_envFileNames.mp (resolveConfig_active_mem named)).2

theorem loaded_named : (site.loaded name).activeEnvFileName ≠ "" := by
  intro same
  have kind : classifyStackFile (site.loaded name).activeEnvFileName = some .env := loaded_env_kind
  rw [same] at kind
  exact absurd kind (by decide +kernel)

theorem loaded_distinct : (site.loaded name).composeFileName ≠ (site.loaded name).activeEnvFileName := by
  intro same
  have compose : classifyStackFile (site.loaded name).composeFileName = some .compose := loaded_compose_kind
  rw [same, loaded_env_kind] at compose
  cases compose

/-! ### The files after the save -/

section
variable {sha256 : Bytes → Hash} {adoption : Option (StackWriteMetadata StackFileConfig)}
  {targets : List (StackFileTarget Hash)}

theorem Saved.present (saved : Saved sha256 targets adoption site reached) (fileName : String) :
    reached.present fileName = true ↔ fileName ∈ targets.map (·.name) ∨ site.present fileName = true := by
  by_cases named : fileName ∈ targets.map (·.name)
  · obtain ⟨target, member, rfl⟩ := List.mem_map.mp named
    have holds := saved.written.files target member
    have there : (reached.disk.files target.name).isSome = true := by
      cases held : reached.disk.files target.name with
      | none => simp [Disk.hashOf, Disk.bytes, held] at holds
      | some file => rfl
    simp [Site.present, there, named]
  · simp [Site.present, saved.files fileName named, named]

/-- The files of a kind after the save: those from before, and the written ones. -/
theorem Saved.mem (saved : Saved sha256 targets adoption site reached)
    (listed : ∀ fileName, site.present fileName = true → fileName ∈ site.entries) (fileName : String) :
    (fileName ∈ reached.entries ∧ reached.present fileName = true) ↔
      fileName ∈ targets.map (·.name) ∨ fileName ∈ site.entries ∧ site.present fileName = true := by
  rw [saved.present fileName, saved.entries, List.mem_append]
  constructor
  · intro held
    rcases held.2 with named | there
    · exact .inl named
    · exact .inr ⟨listed fileName there, there⟩
  · intro held
    rcases held with named | ⟨entry, there⟩
    · exact ⟨.inl named, .inl named⟩
    · exact ⟨.inr entry, .inr there⟩

end

section
variable {sha256 : Bytes → Hash}

/-- The compose file is the one that was saved. -/
theorem Saved.composeFileName {shouldWriteEnv : Bool}
    (saved : Saved sha256 (writeTargets request (site.loaded name) shouldWriteEnv)
      (site.adoption name (site.loaded name) shouldWriteEnv) site reached)
    (listed : ∀ fileName, site.present fileName = true → fileName ∈ site.entries)
    (stored : reached.disk.selections name = site.disk.selections name ∨
      ∃ config, reached.disk.selections name = some config ∧
        config.composeFileName = (site.loaded name).config.composeFileName) :
    (reached.loaded name).composeFileName = (site.loaded name).composeFileName := by
  have kind : classifyStackFile (site.loaded name).composeFileName = some .compose := loaded_compose_kind
  have target : (site.loaded name).composeFileName ∈
      (writeTargets request (site.loaded name) shouldWriteEnv).map (·.name) := by simp [writeTargets]
  have envKind : classifyStackFile (site.loaded name).activeEnvFileName = some .env := loaded_env_kind
  have only : ∀ fileName, fileName ∈ reached.found.composeFileNames ↔
      fileName = (site.loaded name).composeFileName ∨ fileName ∈ site.found.composeFileNames := by
    intro fileName
    rw [mem_composeFileNames, mem_composeFileNames, saved.mem listed]
    constructor
    · intro held
      obtain ⟨named | there, compose⟩ := held
      · left
        rw [writeTargets, List.map_cons, List.mem_cons] at named
        refine named.resolve_right ?_
        intro env
        cases shouldWriteEnv with
        | false => simp at env
        | true =>
            have same : fileName = (site.loaded name).activeEnvFileName := by simpa using env
            rw [same, envKind] at compose
            cases compose
      · exact .inr ⟨there, compose⟩
    · intro held
      rcases held with rfl | ⟨there, compose⟩
      · exact ⟨.inl target, kind⟩
      · exact ⟨.inr there, compose⟩
  have resolves : (resolveConfig (reached.disk.selections name) reached.found).composeFileName =
      (site.loaded name).composeFileName := by
    by_cases named : (site.loaded name).config.composeFileName = ""
    · -- There was no compose file, and now there is one
      have empty : site.found.composeFileNames = [] := by
        cases held : site.found.composeFileNames with
        | nil => rfl
        | cons first rest =>
            have member : first ∈ site.found.composeFileNames := by simp [held]
            have chosen : (resolveConfig (site.disk.selections name) site.found).composeFileName ∈
                site.found.composeFileNames := resolveConfig_composeFileName_mem member
            have same : (resolveConfig (site.disk.selections name) site.found).composeFileName = "" := named
            rw [same, mem_composeFileNames] at chosen
            exact absurd chosen.2 (by decide +kernel)
      have member : (site.loaded name).composeFileName ∈ reached.found.composeFileNames := (only _).mpr (.inl rfl)
      have chosen : (resolveConfig (reached.disk.selections name) reached.found).composeFileName ∈
          reached.found.composeFileNames := resolveConfig_composeFileName_mem member
      rw [only, empty] at chosen
      exact chosen.resolve_right (by simp)
    · have same : (site.loaded name).composeFileName = (site.loaded name).config.composeFileName := by
        change (if (site.loaded name).config.composeFileName = "" then site.built
          else (site.loaded name).config.composeFileName) = _
        rw [if_neg named]
      have member : (site.loaded name).config.composeFileName ∈ site.found.composeFileNames := by
        cases held : site.found.composeFileNames with
        | nil => exact absurd (resolveConfig_composeFileName_none held) named
        | cons first rest =>
            have there : first ∈ site.found.composeFileNames := by simp [held]
            exact held ▸ resolveConfig_composeFileName_mem there
      have alike : ∀ fileName, fileName ∈ reached.found.composeFileNames ↔
          fileName ∈ site.found.composeFileNames := by
        intro fileName
        rw [only]
        refine ⟨fun held => held.elim (fun is => ?_) id, .inr⟩
        rw [is, same]
        exact member
      rw [same]
      rcases stored with unchanged | ⟨config, changed, carried⟩
      · rw [unchanged]
        exact resolveConfig_composeFileName_congr alike
      · rw [changed, ← carried]
        exact resolveConfig_composeFileName_kept (carried ▸ named) ((alike _).mpr (carried ▸ member))
  have nonempty : (site.loaded name).composeFileName ≠ "" := by
    intro same
    rw [same] at kind
    exact absurd kind (by decide +kernel)
  change (if (resolveConfig (reached.disk.selections name) reached.found).composeFileName = "" then reached.built
    else (resolveConfig (reached.disk.selections name) reached.found).composeFileName) = _
  rw [resolves, if_neg nonempty]

/-- The env file is the one that was saved, or the one that was not there. -/
theorem Saved.activeEnvFileName {shouldWriteEnv : Bool}
    (saved : Saved sha256 (writeTargets request (site.loaded name) shouldWriteEnv)
      (site.adoption name (site.loaded name) shouldWriteEnv) site reached)
    (listed : ∀ fileName, site.present fileName = true → fileName ∈ site.entries) :
    (reached.loaded name).activeEnvFileName = (site.loaded name).activeEnvFileName := by
  have composeKind : classifyStackFile (site.loaded name).composeFileName = some .compose := loaded_compose_kind
  have kind : classifyStackFile (site.loaded name).activeEnvFileName = some .env := loaded_env_kind
  have only : ∀ fileName, fileName ∈ reached.found.envFileNames ↔
      (shouldWriteEnv = true ∧ fileName = (site.loaded name).activeEnvFileName) ∨
        fileName ∈ site.found.envFileNames := by
    intro fileName
    rw [mem_envFileNames, mem_envFileNames, saved.mem listed, writeTargets, List.map_cons, List.mem_cons]
    constructor
    · intro held
      obtain ⟨(compose | env) | there, isEnv⟩ := held
      · change fileName = (site.loaded name).composeFileName at compose
        rw [compose, composeKind] at isEnv
        cases isEnv
      · cases shouldWriteEnv with
        | false => simp at env
        | true => exact .inl ⟨rfl, by simpa using env⟩
      · exact .inr ⟨there, isEnv⟩
    · intro held
      rcases held with ⟨writes, rfl⟩ | ⟨there, isEnv⟩
      · exact ⟨.inl (.inr (by simp [writes])), kind⟩
      · exact ⟨.inr there, isEnv⟩
  have congr (alike : ∀ fileName, fileName ∈ reached.found.envFileNames ↔ fileName ∈ site.found.envFileNames)
      (unchanged : reached.disk.selections = site.disk.selections) :
      (reached.loaded name).activeEnvFileName = (site.loaded name).activeEnvFileName := by
    change (if (resolveConfig (reached.disk.selections name) reached.found).activeEnvFileName = "" then ".env"
      else (resolveConfig (reached.disk.selections name) reached.found).activeEnvFileName) = _
    rw [unchanged, (resolveConfig_env_congr alike).2]
    rfl
  by_cases adopts : (!shouldWriteEnv || decide ((site.loaded name).activeEnvFileName ∈
      (site.loaded name).config.envFileNames)) = true
  · have none_adopted : site.adoption name (site.loaded name) shouldWriteEnv = none := by
      rw [Site.adoption, if_pos adopts]
    refine congr ?_ (saved.written.unselected none_adopted)
    intro fileName
    rw [only]
    refine ⟨fun held => held.elim (fun is => ?_) id, .inr⟩
    obtain ⟨writes, rfl⟩ := is
    rw [writes] at adopts
    have selected : (site.loaded name).activeEnvFileName ∈ (site.loaded name).config.envFileNames := by
      simpa using adopts
    exact resolveConfig_env_mem selected
  · have adopted := saved.written.selected
    rw [Site.adoption, if_neg adopts] at adopted
    have after := adopted _ rfl
    have writes : shouldWriteEnv = true := by
      cases shouldWriteEnv with
      | false => simp at adopts
      | true => rfl
    have member : (site.loaded name).activeEnvFileName ∈ reached.found.envFileNames :=
      (only _).mpr (.inl ⟨writes, rfl⟩)
    change (if (resolveConfig (reached.disk.selections name) reached.found).activeEnvFileName = "" then ".env"
      else (resolveConfig (reached.disk.selections name) reached.found).activeEnvFileName) = _
    dsimp only at after
    rw [after, resolveConfig_active_kept loaded_named member, if_neg loaded_named]

theorem Saved.current {shouldWriteEnv : Bool} (absent : shouldWriteEnv = false →
      site.present (site.loaded request.name).activeEnvFileName = false)
    (saved : Saved sha256 (writeTargets request (site.loaded request.name) shouldWriteEnv)
      (site.adoption request.name (site.loaded request.name) shouldWriteEnv) site reached)
    (listed : ∀ fileName, site.present fileName = true → fileName ∈ site.entries)
    (directory : site.directory = true) :
    Current sha256 request.name reached (answered sha256 request (site.loaded request.name) shouldWriteEnv) := by
  have stored : reached.disk.selections request.name = site.disk.selections request.name ∨
      ∃ config, reached.disk.selections request.name = some config ∧
        config.composeFileName = (site.loaded request.name).config.composeFileName := by
    cases adoption : site.adoption request.name (site.loaded request.name) shouldWriteEnv with
    | none => exact .inl (congrFun (saved.written.unselected adoption) request.name)
    | some metadata =>
        have after := saved.written.selected metadata adoption
        unfold Site.adoption at adoption
        split at adoption
        · cases adoption
        · cases adoption
          exact .inr ⟨_, after, rfl⟩
  have compose := saved.composeFileName listed stored
  have env := saved.activeEnvFileName listed
  refine ⟨saved.directory.trans directory, ?_, ?_, ?_, ?_⟩
  · intro fileName same
    cases same
    exact compose.symm
  · intro fileName same
    cases same
    exact env.symm
  · intro hash same
    cases same
    rw [compose]
    exact (saved.written.files _ List.mem_cons_self).symm
  · intro hash same
    cases same
    rw [env]
    cases shouldWriteEnv with
    | true => exact (saved.written.files _ (List.mem_cons_of_mem _ List.mem_cons_self)).symm
    | false =>
        have elsewhere : (site.loaded request.name).activeEnvFileName ∉
            (writeTargets request (site.loaded request.name) false).map (·.name) := by
          simpa [writeTargets] using loaded_distinct.symm
        have missing : site.disk.files (site.loaded request.name).activeEnvFileName = none := by
          simpa [Site.present] using absent rfl
        simp [Disk.hashOf, Disk.bytes, saved.files _ elsewhere, missing]

end

end Dockge.StackSave
