import Mathlib.Data.String.Basic
import Dockge.StackConfig.FileConfig

namespace Dockge.StackConfig

open Dockge.StackWrite

/-! A selection depends on which files are there, not on the order a scan lists them in. -/

variable {found other : Found} {stored : Option StackFileConfig}

/-! ### The names of stack files -/

/-- What a segment is made of. -/
def isPlain (c : Char) : Bool := isAlphanumeric c || c = '.' || c = '_' || c = '-'

theorem plain_of_safeSegment {chars : List Char} (safe : safeSegment chars = true) : ∀ c ∈ chars, isPlain c = true := by
  intro c member
  cases chars with
  | nil => cases member
  | cons first rest =>
      simp only [safeSegment, Bool.and_eq_true, List.all_eq_true] at safe
      rcases List.mem_cons.mp member with rfl | later
      · simp [isPlain, safe.1]
      · exact safe.2 c later

theorem plain_of_isNamedAfter {bare name : String} (plain : ∀ c ∈ bare.toList, isPlain c = true)
    (named : isNamedAfter bare name = true) : ∀ c ∈ name.toList, isPlain c = true := by
  intro c member
  simp only [isNamedAfter] at named
  split at named
  · rename_i same
    exact plain c (same ▸ member)
  split at named
  · rename_i begins
    have split : name.toList = name.toList.take (bare.toList.length + 1) ++
        name.toList.drop (bare.toList.length + 1) := (List.take_append_drop _ _).symm
    rw [split] at member
    rcases List.mem_append.mp member with early | late
    · rw [Bool.or_eq_true, List.isPrefixOf_iff_prefix, List.isPrefixOf_iff_prefix] at begins
      rcases begins with dotted | dashed
      · have start := List.prefix_iff_eq_take.mp dotted
        rw [List.length_append, List.length_singleton] at start
        rw [← start] at early
        rcases List.mem_append.mp early with inside | last
        · exact plain c inside
        · rw [List.mem_singleton.mp last]
          rfl
      · have start := List.prefix_iff_eq_take.mp dashed
        rw [List.length_append, List.length_singleton] at start
        rw [← start] at early
        rcases List.mem_append.mp early with inside | last
        · exact plain c inside
        · rw [List.mem_singleton.mp last]
          rfl
    · exact plain_of_safeSegment named c late
  split at named
  · rename_i ends
    have ending := List.suffix_iff_eq_drop.mp (List.isSuffixOf_iff_suffix.mp ends)
    have split : name.toList = name.toList.take (name.toList.length - bare.toList.length) ++ bare.toList := by
      conv_lhs => rw [← List.take_append_drop (name.toList.length - bare.toList.length) name.toList, ← ending]
    rw [split] at member
    rcases List.mem_append.mp member with early | late
    · exact plain_of_safeSegment named c early
    · exact plain c late
  · cases named

theorem plain_of_kind {name : String} (kind : (classifyStackFile name).isSome) :
    ∀ c ∈ name.toList, isPlain c = true := by
  simp only [classifyStackFile] at kind
  split at kind
  · cases kind
  split at kind
  · rename_i env
    have bare : ".env".toList.all isPlain = true := by decide +kernel
    exact plain_of_isNamedAfter (List.all_eq_true.mp bare) env
  split at kind
  · rename_i secret
    have bare : ".secret".toList.all isPlain = true := by decide +kernel
    exact plain_of_isNamedAfter (List.all_eq_true.mp bare) secret
  split at kind
  · rename_i compose
    simp only [isComposeFileName, Bool.or_eq_true, decide_eq_true_eq, Bool.and_eq_true] at compose
    rcases compose with accepted | segment
    · have each : (acceptedComposeFileNames.all fun accepted => accepted.toList.all isPlain) = true := by
        decide +kernel
      exact List.all_eq_true.mp (List.all_eq_true.mp each name accepted)
    · exact plain_of_safeSegment segment.1
  · cases kind

theorem plain_bounds {c : Char} (plain : isPlain c = true) : 45 ≤ c.toNat ∧ c.toNat ≤ 122 := by
  have alphanumeric (held : isAlphanumeric c = true) : 48 ≤ c.toNat ∧ c.toNat ≤ 122 := by
    simp only [isAlphanumeric, Bool.or_eq_true, Bool.and_eq_true, decide_eq_true_eq, Char.le_def,
      UInt32.le_iff_toNat_le] at held
    have same : c.val.toNat = c.toNat := rfl
    rw [same] at held
    have bounds : 48 ≤ c.toNat ∧ c.toNat ≤ 57 ∨ 65 ≤ c.toNat ∧ c.toNat ≤ 90 ∨ 97 ≤ c.toNat ∧ c.toNat ≤ 122 := by
      simpa [or_assoc] using held
    omega
  simp only [isPlain, Bool.or_eq_true, decide_eq_true_eq] at plain
  rcases plain with ((held | rfl) | rfl) | rfl
  · have bounds := alphanumeric held
    omega
  · decide
  · decide
  · decide

/-- A name that is not longer than a file system takes is accepted as soon as it is of some kind. -/
theorem isSafeStackFileName_of_kind {name : String} (kind : (classifyStackFile name).isSome)
    (short : name.toList.length ≤ maxFileNameLength) : isSafeStackFileName name = true := by
  have plain := plain_of_kind kind
  have without (c : Char) (odd : isPlain c = false) : c ∉ name.toList := by
    intro member
    rw [plain c member] at odd
    cases odd
  have printable : (name.toList.any fun c => decide (c.toNat ≤ 0x1F) || decide (c.toNat = 0x7F)) = false := by
    rw [List.any_eq_false]
    intro c member
    have bounds := plain_bounds (plain c member)
    simp
    omega
  have nonempty : name.toList.length ≠ 0 := by
    intro empty
    have same : name = "" := String.toList_inj.mp (List.length_eq_zero_iff.mp empty)
    subst same
    exact absurd kind (by decide)
  have named : name.toList ≠ ['.'] := by
    intro dot
    have same : name = "." := String.toList_inj.mp dot
    subst same
    exact absurd kind (by decide)
  have parentless : hasParent name.toList = false := by
    cases parent : hasParent name.toList with
    | false => rfl
    | true => simp [classifyStackFile, parent] at kind
  simp [isSafeStackFileName, without '/' (by decide), without '\\' (by decide), without ':' (by decide),
    nonempty, named, parentless, printable, kind, not_lt.mpr short]

/-! ### The default compose file -/

theorem firstSorted_isSome {names : List String} {name : String} (member : name ∈ names) :
    (firstSorted names).isSome := by
  cases names with
  | nil => cases member
  | cons first rest =>
      simp only [firstSorted]
      split
      · split <;> rfl
      · rfl

theorem firstSorted_least {names : List String} {least : String} (sorted : firstSorted names = some least) :
    least ∈ names ∧ ∀ name ∈ names, least ≤ name := by
  induction names generalizing least with
  | nil => cases sorted
  | cons first rest ih =>
      simp only [firstSorted] at sorted
      split at sorted
      · rename_i next later
        obtain ⟨member, below⟩ := ih later
        split at sorted
        · rename_i smaller
          cases sorted
          refine ⟨List.mem_cons_of_mem _ member, ?_⟩
          intro name present
          rcases List.mem_cons.mp present with rfl | present
          · exact le_of_lt smaller
          · exact below name present
        · rename_i greater
          cases sorted
          refine ⟨List.mem_cons_self, ?_⟩
          intro name present
          rcases List.mem_cons.mp present with rfl | present
          · exact le_refl _
          · exact (not_lt.mp greater).trans (below name present)
      · rename_i absent
        cases sorted
        refine ⟨List.mem_cons_self, ?_⟩
        intro name present
        rcases List.mem_cons.mp present with rfl | present
        · exact le_refl _
        · have found := firstSorted_isSome present
          rw [absent] at found
          cases found

theorem firstSorted_congr {names others : List String} (same : ∀ name, name ∈ names ↔ name ∈ others) :
    firstSorted names = firstSorted others := by
  cases first : firstSorted names with
  | none =>
      cases second : firstSorted others with
      | none => rfl
      | some least =>
          have found := firstSorted_isSome ((same least).mpr (firstSorted_least second).1)
          rw [first] at found
          cases found
  | some least =>
      obtain ⟨member, below⟩ := firstSorted_least first
      cases second : firstSorted others with
      | none =>
          have found := firstSorted_isSome ((same least).mp member)
          rw [second] at found
          cases found
      | some next =>
          obtain ⟨there, under⟩ := firstSorted_least second
          rw [le_antisymm (below next ((same next).mpr there)) (under least ((same least).mp member))]

theorem pickDefaultComposeFile_congr {names others : List String} (same : ∀ name, name ∈ names ↔ name ∈ others) :
    pickDefaultComposeFile names = pickDefaultComposeFile others := by
  have accepted : (fun name => decide (name ∈ names)) = fun name => decide (name ∈ others) := by
    funext name
    simp only [same]
  unfold pickDefaultComposeFile
  rw [accepted, firstSorted_congr same]

theorem pickDefaultComposeFile_mem {names : List String} {name : String} (member : name ∈ names) :
    pickDefaultComposeFile names ∈ names := by
  unfold pickDefaultComposeFile
  split
  · rename_i accepted chosen
    simpa using List.find?_some chosen
  · obtain ⟨least, sorted⟩ := Option.isSome_iff_exists.mp (firstSorted_isSome member)
    rw [sorted]
    exact (firstSorted_least sorted).1

/-- With `compose.yaml` there and nothing else, it is the choice. -/
theorem pickDefaultComposeFile_only {names : List String} (only : ∀ name, name ∈ names ↔ name = "compose.yaml") :
    pickDefaultComposeFile names = "compose.yaml" := by
  have member : "compose.yaml" ∈ names := (only _).mpr rfl
  exact (only _).mp (pickDefaultComposeFile_mem member)

/-! ### The selection in force -/

theorem resolveConfig_composeFileName_congr
    (same : ∀ name, name ∈ found.composeFileNames ↔ name ∈ other.composeFileNames) :
    (resolveConfig stored found).composeFileName = (resolveConfig stored other).composeFileName := by
  simp only [resolveConfig, same, pickDefaultComposeFile_congr same]

theorem resolveConfig_env_congr (same : ∀ name, name ∈ found.envFileNames ↔ name ∈ other.envFileNames) :
    (resolveConfig stored found).envFileNames = (resolveConfig stored other).envFileNames ∧
      (resolveConfig stored found).activeEnvFileName = (resolveConfig stored other).activeEnvFileName := by
  simp only [resolveConfig, same, and_self]

theorem resolveConfig_composeFileName_mem {name : String} (member : name ∈ found.composeFileNames) :
    (resolveConfig stored found).composeFileName ∈ found.composeFileNames := by
  cases stored with
  | none => exact pickDefaultComposeFile_mem member
  | some config =>
      by_cases kept : config.composeFileName ≠ "" ∧ config.composeFileName ∈ found.composeFileNames
      · simp [resolveConfig, kept]
      · simpa [resolveConfig, kept] using pickDefaultComposeFile_mem member

/-- A stored choice is kept while its file is there. -/
theorem resolveConfig_composeFileName_kept {config : StackFileConfig} (named : config.composeFileName ≠ "")
    (member : config.composeFileName ∈ found.composeFileNames) :
    (resolveConfig (some config) found).composeFileName = config.composeFileName := by
  simp [resolveConfig, named, member]

theorem resolveConfig_composeFileName_none (absent : found.composeFileNames = []) :
    (resolveConfig stored found).composeFileName = "" := by
  have default : pickDefaultComposeFile [] = "" := rfl
  cases stored with
  | none => simp [resolveConfig, absent, default]
  | some config => simp [resolveConfig, absent, default]

theorem resolveConfig_active_kept {config : StackFileConfig} (named : config.activeEnvFileName ≠ "")
    (member : config.activeEnvFileName ∈ found.envFileNames) :
    (resolveConfig (some config) found).activeEnvFileName = config.activeEnvFileName := by
  simp [resolveConfig, named, member]

theorem resolveConfig_env_mem {name : String} (member : name ∈ (resolveConfig stored found).envFileNames) :
    name ∈ found.envFileNames := by
  cases stored with
  | none =>
      simp only [resolveConfig, Option.elim_none, List.nil_append, Option.isNone_none, Bool.true_and,
        decide_eq_true_eq] at member
      split at member
      · rename_i there
        rw [List.mem_singleton.mp member]
        exact there
      · cases member
  | some config =>
      simp only [resolveConfig, Option.elim_some, Option.isNone_some, Bool.false_and, Bool.false_eq_true,
        if_false, List.append_nil, List.mem_filter, decide_eq_true_eq] at member
      exact member.2

theorem resolveConfig_active_mem (named : (resolveConfig stored found).activeEnvFileName ≠ "") :
    (resolveConfig stored found).activeEnvFileName ∈ found.envFileNames := by
  -- The first of the env files stands in for an active one that is not there
  have first (names : List String) (each : ∀ name ∈ names, name ∈ found.envFileNames)
      (named : names.headD "" ≠ "") : names.headD "" ∈ found.envFileNames := by
    cases names with
    | nil => exact absurd rfl named
    | cons name rest => exact each name List.mem_cons_self
  have each : ∀ name ∈ (resolveConfig stored found).envFileNames, name ∈ found.envFileNames :=
    fun _ => resolveConfig_env_mem
  cases stored with
  | none =>
      by_cases historic : ".env" ∈ found.envFileNames
      · simp [resolveConfig, historic]
      · simp [resolveConfig, historic] at named
  | some config =>
      by_cases kept : config.activeEnvFileName ∈ found.envFileNames ∧ config.activeEnvFileName ≠ ""
      · rw [resolveConfig_active_kept kept.2 kept.1]
        exact kept.1
      · have stood : (resolveConfig (some config) found).activeEnvFileName =
            (resolveConfig (some config) found).envFileNames.headD "" := by
          have cleared : (if config.activeEnvFileName ∈ found.envFileNames then config.activeEnvFileName
              else "") = "" := by
            split
            · rename_i there
              exact not_not.mp fun other => kept ⟨there, other⟩
            · rfl
          simp only [resolveConfig, cleared, if_pos]
        rw [stood] at named ⊢
        exact first _ each named

end Dockge.StackConfig
