import Mathlib
import Dockge.Images.Reference

namespace Dockge.Images

open Data

/-! When the digest of the local image is that of the asked repository. -/

variable {text before after name image digest run : Text} {toLowerCase : Text → Text}

/-! ## Without the tag -/

def stem (name : Text) : Text :=
  if lastIndexOf '/' name < lastIndexOf ':' name then name.take (lastIndexOf ':' name).toNat else name

theorem repositoryOf_stem (reference : Text) : repositoryOf reference = stem (cutDigest reference).1 := rfl

theorem lastIndexOf_append {separator : Char} (free : separator ∉ after) :
    lastIndexOf separator (before ++ separator :: after) = before.length := by
  rw [lastIndexOf, cutLast_append free]

theorem stem_tagged (colon : ':' ∉ after) (slash : '/' ∉ after) : stem (before ++ ':' :: after) = before := by
  have last : lastIndexOf ':' (before ++ ':' :: after) = before.length := lastIndexOf_append colon
  have earlier : lastIndexOf '/' (before ++ ':' :: after) < before.length := by
    obtain ⟨-, free⟩ | ⟨left, right, -, rfl, free⟩ := cutLast_cases '/' before
    · have none_ : '/' ∉ before ++ ':' :: after := by
        simp [free, slash]
      rw [lastIndexOf, cutLast_of_not_mem none_]
      change (-1 : Int) < before.length
      omega
    · have free_ : '/' ∉ right ++ ':' :: after := by
        simp [free, slash]
      rw [List.append_assoc, List.cons_append, lastIndexOf_append free_, List.length_append, List.length_cons]
      omega
  rw [stem, last, if_pos earlier, Int.toNat_natCast, List.take_left]

theorem stem_slash (colon : ':' ∉ after) (slash : '/' ∈ after) : stem (before ++ ':' :: after) = before ++ ':' :: after := by
  have last : lastIndexOf ':' (before ++ ':' :: after) = before.length := lastIndexOf_append colon
  obtain ⟨-, free⟩ | ⟨left, right, -, rfl, free⟩ := cutLast_cases '/' after
  · exact absurd slash free
  · have later : lastIndexOf '/' (before ++ ':' :: (left ++ '/' :: right)) = (before ++ ':' :: left).length := by
      rw [← List.cons_append, ← List.append_assoc, lastIndexOf_append free]
    rw [stem, last, later, if_neg]
    rw [List.length_append]
    omega

theorem stem_plain (colon : ':' ∉ name) : stem name = name := by
  rw [stem, if_neg]
  have last : lastIndexOf ':' name = -1 := by rw [lastIndexOf, cutLast_of_not_mem colon]
  rw [last, lastIndexOf]
  split
  · omega
  · omega

/-- A name is its repository, or its repository with a tag. -/
theorem stem_cases (name : Text) :
    stem name = name ∧ (∀ before after, name = before ++ ':' :: after → ':' ∉ after → '/' ∈ after) ∨
      ∃ tag, name = stem name ++ ':' :: tag ∧ ':' ∉ tag ∧ '/' ∉ tag := by
  obtain ⟨-, free⟩ | ⟨before, after, -, rfl, free⟩ := cutLast_cases ':' name
  · refine .inl ⟨stem_plain free, ?_⟩
    intro before after same _
    rw [same] at free
    exact absurd (List.mem_append_right before List.mem_cons_self) free
  · by_cases slash : '/' ∈ after
    · refine .inl ⟨stem_slash free slash, ?_⟩
      intro left right same free_
      have one := @cutLast_append ':' before after free
      rw [same, cutLast_append free_] at one
      cases one
      exact slash
    · exact .inr ⟨after, by rw [stem_tagged free slash], free, slash⟩

/-! ## The registry and the path -/

theorem registryOf_suffix (toLowerCase : Text → Text) (name : Text) : ∃ lead, name = lead ++ (registryOf toLowerCase name).2 := by
  unfold registryOf
  obtain ⟨cut, -⟩ | ⟨before, after, cut, same, -⟩ := cutFirst_cases '/' name
  · rw [cut]
    exact ⟨[], rfl⟩
  · rw [cut]
    dsimp only [Option.getD_some]
    split
    · exact ⟨before ++ ['/'], by rw [same]; simp⟩
    · exact ⟨[], rfl⟩

/-- The tag is part of the path. -/
theorem registryOf_tagged (toLowerCase : Text → Text) {tag : Text} (slash : '/' ∉ tag) :
    registryOf toLowerCase (name ++ ':' :: tag) =
      ((registryOf toLowerCase name).1, (registryOf toLowerCase name).2 ++ ':' :: tag) := by
  unfold registryOf
  obtain ⟨cut, free⟩ | ⟨before, after, cut, rfl, free⟩ := cutFirst_cases '/' name
  · have free_ : '/' ∉ name ++ ':' :: tag := by
      simp [free, slash]
    rw [cut, cutFirst_of_not_mem free_]
    rfl
  · rw [cut, List.append_assoc, List.cons_append, cutFirst_append free]
    dsimp only [Option.getD_some]
    split
    · rfl
    · rw [List.append_assoc, List.cons_append]

/-! ## Characters -/

theorem componentFrom_colon (text : Text) : ∀ run : Text, ':' ∈ run ∨ ':' ∈ text → componentFrom run text = false := by
  induction text with
  | nil =>
      intro run member
      obtain member | member := member
      · rw [componentFrom]
        cases run with
        | nil => cases member
        | cons => rfl
      · cases member
  | cons char rest ih =>
      intro run member
      rw [componentFrom]
      split
      next plain =>
        obtain member | member := member
        · have separator : (run.isEmpty || isComponentSeparator run) = false := by
            rw [Bool.eq_false_iff]
            intro held
            simp only [isComponentSeparator, Bool.or_eq_true, List.isEmpty_iff, decide_eq_true_eq, List.all_eq_true] at held
            obtain rfl | ((rfl | rfl) | rfl) | all := held
            · cases member
            · simp at member
            · simp at member
            · simp at member
            · exact absurd (all ':' member) (by decide)
          rw [separator, Bool.false_and]
        · obtain same | member := List.mem_cons.mp member
          · rw [← same] at plain
            exact absurd plain (by decide)
          · rw [ih [] (.inr member), Bool.and_false]
      next =>
        apply ih
        obtain member | member := member
        · exact .inl (List.mem_append_left _ member)
        · obtain same | member := List.mem_cons.mp member
          · exact .inl (by rw [same]; exact List.mem_append_right _ List.mem_cons_self)
          · exact .inr member

theorem mem_splitChars {separator char : Char} (differs : char ≠ separator) (member : char ∈ text) :
    ∃ part ∈ splitChars separator text, char ∈ part := by
  induction text with
  | nil => cases member
  | cons first rest ih =>
      rw [splitChars]
      split
      next same =>
        obtain same_ | member := List.mem_cons.mp member
        · exact absurd (same_.trans same) differs
        · obtain ⟨part, held, inside⟩ := ih member
          exact ⟨part, List.mem_cons_of_mem _ held, inside⟩
      next =>
        cases parts : splitChars separator rest with
        | nil =>
            obtain same_ | member := List.mem_cons.mp member
            · exact ⟨[first], List.mem_cons_self, by rw [same_]; exact List.mem_cons_self⟩
            · obtain ⟨part, held, -⟩ := ih member
              rw [parts] at held
              cases held
        | cons part others =>
            obtain same_ | member := List.mem_cons.mp member
            · exact ⟨first :: part, List.mem_cons_self, by rw [same_]; exact List.mem_cons_self⟩
            · obtain ⟨found, held, inside⟩ := ih member
              rw [parts] at held
              obtain rfl | held := List.mem_cons.mp held
              · exact ⟨first :: found, List.mem_cons_self, List.mem_cons_of_mem _ inside⟩
              · exact ⟨found, List.mem_cons_of_mem _ held, inside⟩

theorem isRepository_colon (repository : isRepository text = true) : ':' ∉ text := by
  intro member
  obtain ⟨part, held, inside⟩ := @mem_splitChars _ '/' ':' (by decide) member
  have component := List.all_eq_true.mp repository part held
  cases part with
  | nil => cases component
  | cons first rest =>
      rw [isComponent, Bool.and_eq_true] at component
      obtain same | later := List.mem_cons.mp inside
      · rw [← same] at component
        exact absurd component.1 (by decide)
      · rw [componentFrom_colon rest [] (.inr later)] at component
        cases component.2

theorem isTag_slash (tag : isTag text = true) : '/' ∉ text := by
  cases text with
  | nil => exact List.not_mem_nil
  | cons first rest =>
      rw [isTag, Bool.and_eq_true, Bool.and_eq_true, List.all_eq_true] at tag
      intro member
      obtain same | later := List.mem_cons.mp member
      · rw [← same] at tag
        exact absurd tag.1.1 (by decide)
      · exact absurd (tag.1.2 '/' later) (by decide)

/-! ## What a reference names -/

/-- The registry and the repository of a name without a tag -/
def located (toLowerCase : Text → Text) (name : Text) : Text × Text :=
  normalized (registryOf toLowerCase name).1 (registryOf toLowerCase name).2

/-- Without the parts that were looked at -/
def Passes (check : Text → Bool) (part : Option Text) : Prop := ∀ text, part = some text → check text = true

theorem passes_of_any {check : Text → Bool} {part : Option Text} (passed : ¬ part.any (!check ·) = true) : Passes check part := by
  intro text same
  subst same
  simpa using passed

theorem parseImageReference_some {reference : ImageReference} (accepted : parseImageReference toLowerCase image = some reference) :
    ∃ name digest path tag, cutDigest (trimChars image) = (name, digest) ∧
      cutTag (registryOf toLowerCase name).2 = (path, tag) ∧ Passes isTag tag ∧
      normalized (registryOf toLowerCase name).1 path = (reference.registry, reference.repository) ∧
      isRepository reference.repository = true ∧ isHost reference.registry = true := by
  unfold parseImageReference at accepted
  dsimp only at accepted
  split at accepted
  next => cases accepted
  next =>
    split at accepted
    next => cases accepted
    next tagged =>
      split at accepted
      next => cases accepted
      next valid =>
        cases accepted
        rw [Bool.or_eq_true, not_or, Bool.not_eq_true, Bool.not_eq_true, Bool.not_eq_false', Bool.not_eq_false'] at valid
        exact ⟨_, _, _, _, rfl, rfl, passes_of_any tagged, rfl, valid.1, valid.2⟩

theorem registryOf_stem {path : Text} {tag : Option Text} (toLowerCase : Text → Text) (name : Text)
    (cut : cutTag (registryOf toLowerCase name).2 = (path, tag)) (passes : Passes isTag tag) :
    registryOf toLowerCase (stem name) = ((registryOf toLowerCase name).1, path) := by
  obtain ⟨lead, whole⟩ := registryOf_suffix toLowerCase name
  unfold cutTag at cut
  obtain ⟨none_, free⟩ | ⟨before, after, some_, same, free⟩ := cutLast_cases ':' (registryOf toLowerCase name).2
  · rw [none_] at cut
    cases cut
    obtain ⟨stays, -⟩ | ⟨tag, tagged, -, slash⟩ := stem_cases name
    · rw [stays]
    · rw [tagged, registryOf_tagged toLowerCase slash] at free
      exact absurd (List.mem_append_right _ List.mem_cons_self) free
  · rw [some_] at cut
    cases cut
    have slash := isTag_slash (passes after rfl)
    obtain ⟨-, slashed⟩ | ⟨tag, tagged, colon, slash_⟩ := stem_cases name
    · have held := slashed (lead ++ path) after (by rw [whole, same]; simp) free
      exact absurd held slash
    · have split_ := @registryOf_tagged (stem name) toLowerCase _ slash_
      rw [← tagged] at split_
      have cut_ := @cutLast_append ':' (registryOf toLowerCase (stem name)).2 _ colon
      rw [split_, cut_] at some_
      cases some_
      rw [split_]

/-- The name of a reference that was accepted, without its tag -/
theorem accepted_located {reference : ImageReference} (accepted : parseImageReference toLowerCase image = some reference) :
    located toLowerCase (repositoryOf (trimChars image)) = (reference.registry, reference.repository) ∧
      isRepository reference.repository = true ∧ isHost reference.registry = true ∧
      ':' ∉ (registryOf toLowerCase (repositoryOf (trimChars image))).2 := by
  obtain ⟨name, digest, path, tag, cut, tagged, passes, same, repository, host⟩ := parseImageReference_some accepted
  have stemmed := registryOf_stem toLowerCase name tagged passes
  rw [repositoryOf_stem, cut, located, stemmed]
  refine ⟨same, repository, host, ?_⟩
  intro colon
  apply isRepository_colon repository
  have second : (normalized (registryOf toLowerCase name).1 path).2 = reference.repository := by rw [same]
  rw [← second, normalized]
  split
  · split
    · exact colon
    · exact List.mem_append_right _ colon
  · exact colon

/-! ## White space -/

/-- Text that does not begin with white space keeps what stands before its last mark. -/
theorem trimChars_append {char : Char} {rest : Text} (lead : ∀ first ∈ (before ++ [char]).head?, isSpace first = false)
    (mark : isSpace char = false) : trimChars (before ++ char :: rest) = before ++ char :: rest.rdropWhile isSpace := by
  have front : (before ++ char :: rest).dropWhile isSpace = before ++ char :: rest := by
    cases before with
    | nil => rw [List.nil_append, List.dropWhile_cons_of_neg (by rw [mark]; decide)]
    | cons first others =>
        rw [List.cons_append, List.dropWhile_cons_of_neg (by rw [lead first rfl]; decide)]
  have back : (before ++ char :: rest).reverse = rest.reverse ++ char :: before.reverse := by simp
  have trail : (before ++ char :: rest).reverse.dropWhile isSpace = rest.reverse.dropWhile isSpace ++ char :: before.reverse := by
    rw [back, List.dropWhile_append]
    split
    next blank => rw [List.isEmpty_iff.mp blank, List.nil_append, List.dropWhile_cons_of_neg (by rw [mark]; decide)]
    next => rfl
  rw [trimChars, front, trail, List.rdropWhile]
  simp

/-- A name without white space, up to the tag, the digest or the end -/
theorem plain_lead {char : Char} (plain : ∀ char ∈ name, isSpace char = false) (mark : isSpace char = false) (rest : Text) :
    ∀ first ∈ (name ++ char :: rest).head?, isSpace first = false := by
  intro first held
  cases name with
  | nil =>
      cases held
      exact mark
  | cons other others =>
      rw [List.cons_append, List.head?_cons, Option.mem_some_iff] at held
      exact plain first (held ▸ List.mem_cons_self)

theorem trimChars_plain (plain : ∀ char ∈ name, isSpace char = false) : trimChars name = name := by
  cases last : name.reverse with
  | nil =>
      rw [List.reverse_eq_nil_iff.mp last]
      rfl
  | cons char others =>
      have same : name = others.reverse ++ char :: [] := by
        rw [← List.reverse_reverse name, last, List.reverse_cons]
      rw [same] at plain
      have before : ∀ char ∈ others.reverse, isSpace char = false := fun char member =>
        plain char (List.mem_append_left _ member)
      have end_ : isSpace char = false := plain char (List.mem_append_right _ List.mem_cons_self)
      have trimmed := @trimChars_append others.reverse char [] (plain_lead before end_ []) end_
      rw [List.rdropWhile_nil] at trimmed
      rw [same]
      exact trimmed

theorem cutDigest_append {rest : Text} (free : '@' ∉ name) : cutDigest (name ++ '@' :: rest) = (name, some rest) := by
  rw [cutDigest, cutFirst_append free]

theorem cutDigest_plain (free : '@' ∉ name) : cutDigest name = (name, none) := by
  rw [cutDigest, cutFirst_of_not_mem free]

theorem not_mem_rdropWhile {char : Char} (free : char ∉ text) : char ∉ text.rdropWhile isSpace :=
  fun member => free ((List.rdropWhile_prefix isSpace text).subset member)

/-- What is trimmed belongs to no name without white space. -/
theorem repositoryOf_trimmed (plain : ∀ char ∈ repositoryOf image, isSpace char = false) :
    repositoryOf (trimChars image) = repositoryOf image := by
  obtain ⟨-, free⟩ | ⟨reference, digest, -, rfl, free⟩ := cutFirst_cases '@' image
  · rw [repositoryOf_stem image, cutDigest_plain free] at plain ⊢
    obtain ⟨whole, -⟩ | ⟨tag, tagged, colon, slash⟩ := stem_cases image
    · dsimp only at plain
      rw [whole] at plain
      rw [trimChars_plain plain, repositoryOf_stem, cutDigest_plain free]
    · have trimmed : trimChars image = stem image ++ ':' :: tag.rdropWhile isSpace := by
        conv => lhs; rw [tagged]
        exact trimChars_append (plain_lead plain (by decide) []) (by decide)
      have free_ : '@' ∉ stem image ++ ':' :: tag.rdropWhile isSpace := by
        intro member
        apply free
        rw [tagged]
        obtain held | held := List.mem_append.mp member
        · exact List.mem_append_left _ held
        · obtain same | held := List.mem_cons.mp held
          · cases same
          · exact List.mem_append_right _ (List.mem_cons_of_mem _ ((List.rdropWhile_prefix isSpace tag).subset held))
      rw [trimmed, repositoryOf_stem, cutDigest_plain free_, stem_tagged (not_mem_rdropWhile colon) (not_mem_rdropWhile slash)]
  · rw [repositoryOf_stem, cutDigest_append free] at plain
    dsimp only at plain
    have trimmed : trimChars (reference ++ '@' :: digest) = reference ++ '@' :: digest.rdropWhile isSpace := by
      refine trimChars_append ?_ (by decide)
      obtain ⟨whole, -⟩ | ⟨tag, tagged, -, -⟩ := stem_cases reference
      · rw [whole] at plain
        exact plain_lead plain (by decide) []
      · rw [tagged, List.append_assoc, List.cons_append]
        exact plain_lead plain (by decide) _
    rw [trimmed, repositoryOf_stem, repositoryOf_stem, cutDigest_append free, cutDigest_append free]

/-! ## Entries of the list -/

theorem plain_of_all (all : (text.all fun char => !isSpace char && char != '@') = true) :
    ∀ char ∈ text, isSpace char = false ∧ char ≠ '@' := by
  intro char member
  obtain ⟨space, mark⟩ := (Bool.and_eq_true _ _).mp (List.all_eq_true.mp all char member)
  exact ⟨(Bool.not_eq_true' _).mp space, bne_iff_ne.mp mark⟩

theorem isDigest_plain (valid : isDigest digest = true) : ∀ char ∈ digest, isSpace char = false ∧ char ≠ '@' := by
  intro char member
  rw [isDigest, Bool.and_eq_true, Bool.and_eq_true, decide_eq_true_eq, List.all_eq_true] at valid
  obtain ⟨⟨front, -⟩, back⟩ := valid
  rw [← List.take_append_drop 7 digest, front] at member
  obtain head | tail := List.mem_append.mp member
  · exact @plain_of_all "sha256:".toList (by decide) char head
  · have range := back char tail
    have bound : 48 ≤ char.toNat ∧ char.toNat ≤ 57 ∨ 97 ≤ char.toNat ∧ char.toNat ≤ 102 := by
      simp only [Bool.or_eq_true, Bool.and_eq_true, decide_eq_true_eq, Char.le_def] at range
      obtain ⟨low, high⟩ | ⟨low, high⟩ := range
      · exact .inr ⟨low, high⟩
      · exact .inl ⟨low, high⟩
    constructor
    · rw [isSpace, Bool.or_eq_false_iff, decide_eq_false_iff_not, Bool.and_eq_false_iff, decide_eq_false_iff_not]
      constructor
      · intro listed
        simp only [List.mem_cons, List.not_mem_nil, or_false] at listed
        omega
      · left
        omega
    · intro same
      rw [same] at bound
      revert bound
      decide

theorem isDigest_head (valid : isDigest digest = true) : "sha256:".toList.isPrefixOf digest = true := by
  rw [isDigest, Bool.and_eq_true, Bool.and_eq_true, decide_eq_true_eq] at valid
  rw [List.isPrefixOf_iff_prefix, ← valid.1.1]
  exact List.take_prefix 7 digest

theorem splitChars_free {separator : Char} (free : separator ∉ text) : splitChars separator text = [text] := by
  induction text with
  | nil => rfl
  | cons char rest ih =>
      rw [List.mem_cons, not_or] at free
      rw [splitChars, if_neg (Ne.symm free.1), ih free.2]

theorem splitChars_append {separator : Char} (free : separator ∉ before) :
    splitChars separator (before ++ separator :: after) = before :: splitChars separator after := by
  induction before with
  | nil => rw [List.nil_append, splitChars, if_pos rfl]
  | cons char rest ih =>
      rw [List.mem_cons, not_or] at free
      rw [List.cons_append, splitChars, if_neg (Ne.symm free.1), ih free.2]

namespace RepoDigest

variable (entry : RepoDigest)

theorem free : '@' ∉ entry.name := fun member => (entry.plain '@' member).2 rfl

theorem spaceless : ∀ char ∈ entry.name, isSpace char = false := fun char member => (entry.plain char member).1

theorem cut : cutDigest entry.text = (entry.name, some entry.digest) := cutDigest_append entry.free

theorem repositoryOf_text : repositoryOf entry.text = entry.name := by
  have untagged := entry.untagged
  rw [repositoryOf_stem, cutDigest_plain entry.free] at untagged
  rw [repositoryOf_stem, entry.cut]
  exact untagged

theorem behindAt_text : behindAt entry.text = entry.digest := by
  have free_ : '@' ∉ entry.digest := fun member => (isDigest_plain entry.sha256 '@' member).2 rfl
  rw [behindAt, text, splitChars_append entry.free, splitChars_free free_]
  rfl

theorem trimmed : trimChars entry.text = entry.text := by
  apply trimChars_plain
  intro char member
  obtain inName | rest := List.mem_append.mp member
  · exact entry.spaceless char inName
  · obtain rfl | inDigest := List.mem_cons.mp rest
    · decide
    · exact (isDigest_plain entry.sha256 char inDigest).1

/-- The entry is of the repository that was asked for. -/
def Asked (toLowerCase : Text → Text) (reference : ImageReference) : Prop :=
  ∃ found, parseImageReference toLowerCase entry.text = some found ∧
    found.registry = reference.registry ∧ found.repository = reference.repository

end RepoDigest

/-- An entry that spells its repository as the image does is of the same repository. -/
theorem asked_of_name {reference : ImageReference} (accepted : parseImageReference toLowerCase image = some reference)
    {entry : RepoDigest} (same : entry.name = repositoryOf image) : entry.Asked toLowerCase reference := by
  have named : repositoryOf (trimChars image) = entry.name := by
    rw [same]
    apply repositoryOf_trimmed
    rw [← same]
    exact entry.spaceless
  obtain ⟨located_, repository, host, colon⟩ := accepted_located accepted
  rw [named] at located_ colon
  have tagless : cutTag (registryOf toLowerCase entry.name).2 = ((registryOf toLowerCase entry.name).2, none) := by
    rw [cutTag, cutLast_of_not_mem colon]
  unfold RepoDigest.Asked parseImageReference
  rw [located] at located_
  simp only [entry.trimmed, entry.cut, Option.any_some, entry.sha256, Bool.not_true, Bool.false_eq_true, if_false, tagless,
    Option.any_none, located_, repository, host, Bool.or_self]
  exact ⟨_, rfl, rfl, rfl⟩

/-- The digest that is taken: of the first entry with the same name, else of the first entry. -/
theorem parseLocalRepoDigest_listed (entries : List RepoDigest) (image : Text) :
    parseLocalRepoDigest (listed entries) image =
      ((entries.find? fun entry => entry.name = repositoryOf image).or entries.head?).map RepoDigest.digest := by
  have texts : (entries.map fun entry => Json.str (String.ofList entry.text)).filterMap entryOf = entries.map RepoDigest.text := by
    rw [List.filterMap_map]
    have each : entryOf ∘ (fun entry : RepoDigest => Json.str (String.ofList entry.text)) = some ∘ RepoDigest.text := by
      funext entry
      simp [entryOf]
    rw [each, List.filterMap_eq_map]
  have own : ((entries.map RepoDigest.text).find? fun entry => repositoryOf entry = repositoryOf image).or
        (entries.map RepoDigest.text).head? =
      ((entries.find? fun entry => entry.name = repositoryOf image).or entries.head?).map RepoDigest.text := by
    rw [List.find?_map, List.head?_map, Option.map_or]
    have named : ((fun entry => decide (repositoryOf entry = repositoryOf image)) ∘ RepoDigest.text) =
        fun entry : RepoDigest => decide (entry.name = repositoryOf image) := by
      funext entry
      rw [Function.comp, entry.repositoryOf_text]
    rw [named]
  rw [listed, parseLocalRepoDigest, texts, own]
  cases (entries.find? fun entry => entry.name = repositoryOf image).or entries.head? with
  | none => rfl
  | some entry =>
      simp only [Option.map_some, Option.getD_some, entry.behindAt_text]
      rw [if_pos (isDigest_head entry.sha256)]

/-- Whatever an accepted image reference and the digests of the image are: where one of them is of the asked repository,
the digest that is taken and compared is of such an entry, if and only if an entry spells the repository as the image
does, or the first one has a digest of the asked repository. -/
theorem local_digest_iff (toLowerCase : Text → Text) (entries : List RepoDigest) (image : Text) (reference : ImageReference)
    (accepted : parseImageReference toLowerCase image = some reference) :
    ((∃ entry ∈ entries, entry.Asked toLowerCase reference) →
      ∃ entry ∈ entries, entry.Asked toLowerCase reference ∧ parseLocalRepoDigest (listed entries) image = some entry.digest ∧
        ∀ remote, isNewerImage (parseLocalRepoDigest (listed entries) image) remote = isNewerImage (some entry.digest) remote) ↔
    ((∃ entry ∈ entries, entry.Asked toLowerCase reference) →
      (∃ entry ∈ entries, entry.name = repositoryOf image) ∨
        ∃ entry ∈ entries, entry.Asked toLowerCase reference ∧ entries.head?.map RepoDigest.digest = some entry.digest) := by
  apply imp_congr_right
  intro _
  rw [parseLocalRepoDigest_listed]
  cases own : entries.find? fun entry => entry.name = repositoryOf image with
  | some entry =>
      have member := List.mem_of_find?_eq_some own
      have named : entry.name = repositoryOf image := by simpa using List.find?_some own
      constructor
      · intro _
        exact .inl ⟨entry, member, named⟩
      · intro _
        exact ⟨entry, member, asked_of_name accepted named, rfl, fun _ => rfl⟩
  | none =>
      have unnamed : ¬ ∃ entry ∈ entries, entry.name = repositoryOf image := by
        intro ⟨entry, member, named⟩
        have differs := List.find?_eq_none.mp own entry member
        exact differs (decide_eq_true named)
      rw [Option.none_or]
      constructor
      · intro ⟨entry, member, asked, same, _⟩
        exact .inr ⟨entry, member, asked, same⟩
      · intro held
        obtain ⟨entry, member, asked, same⟩ := held.resolve_left unnamed
        exact ⟨entry, member, asked, same, fun remote => by rw [same]⟩

/-- An image that another repository was tagged from first -/
def taggedTwice : List RepoDigest :=
  [⟨"other".toList, "sha256:".toList ++ List.replicate 64 'a', plain_of_all (by decide), by decide, by decide⟩,
    ⟨"nginx".toList, "sha256:".toList ++ List.replicate 64 'b', plain_of_all (by decide), by decide, by decide⟩]

def spelledOut : Text := "docker.io/library/nginx:latest".toList

def nginxLatest : ImageReference where
  host := "registry-1.docker.io".toList
  repository := "library/nginx".toList
  reference := "latest".toList
  registry := "docker.io".toList

theorem spelledOut_accepted : parseImageReference lowerChars spelledOut = some nginxLatest := by decide

theorem local_digest_iff_spelledOut :
    ((∃ entry ∈ taggedTwice, entry.Asked lowerChars nginxLatest) →
      ∃ entry ∈ taggedTwice, entry.Asked lowerChars nginxLatest ∧
        parseLocalRepoDigest (listed taggedTwice) spelledOut = some entry.digest ∧
        ∀ remote, isNewerImage (parseLocalRepoDigest (listed taggedTwice) spelledOut) remote = isNewerImage (some entry.digest) remote) ↔
    ((∃ entry ∈ taggedTwice, entry.Asked lowerChars nginxLatest) →
      (∃ entry ∈ taggedTwice, entry.name = repositoryOf spelledOut) ∨
        ∃ entry ∈ taggedTwice, entry.Asked lowerChars nginxLatest ∧ taggedTwice.head?.map RepoDigest.digest = some entry.digest) :=
  local_digest_iff lowerChars taggedTwice spelledOut nginxLatest spelledOut_accepted

/-- The second entry is of the asked repository, and its digest is the one that the registry serves. -/
theorem other_digest_compared :
    parseImageReference lowerChars spelledOut = some nginxLatest ∧
    (taggedTwice.map fun entry => (parseImageReference lowerChars entry.text).map fun found => (found.registry, found.repository)) =
      [some ("docker.io".toList, "library/other".toList), some ("docker.io".toList, "library/nginx".toList)] ∧
    parseLocalRepoDigest (listed taggedTwice) spelledOut = some ("sha256:".toList ++ List.replicate 64 'a') ∧
    isNewerImage (parseLocalRepoDigest (listed taggedTwice) spelledOut) (some ("sha256:".toList ++ List.replicate 64 'b')) =
      some true := by
  refine ⟨spelledOut_accepted, ?_, ?_, ?_⟩
  · decide
  · decide
  · decide

end Dockge.Images
