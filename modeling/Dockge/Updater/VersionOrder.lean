import Dockge.Data.Comparison
import Dockge.Updater.Version

namespace Dockge.Updater

open Data

/-! Which versions the comparison orders. -/

variable {x y : List Char} {xs ys : List (List Char)} {aa bb : Submatches} {a b : String}

theorem stringsCompare_eq (left right : List Char) : stringsCompare left right = sign (comparison left right) := by
  unfold stringsCompare
  obtain less | rfl | greater := lt_trichotomy left right
  · rw [if_neg less.ne, if_pos less, (comparison_eq less : _ = Ordering.lt)]
    rfl
  · rw [if_pos rfl, comparison_self]
    rfl
  · rw [if_neg greater.ne', if_neg greater.not_gt, (comparison_eq greater : _ = Ordering.gt)]
    rfl

/-! ## The three numbers -/

theorem isNumber_digits (number : isNumber x = true) : x.all Char.isDigit = true := by
  unfold isNumber at number
  split at number
  · cases number
  · decide
  · simp only [Bool.and_eq_true] at number
    simp only [List.all_cons, Bool.and_eq_true]
    exact ⟨number.1.2, number.2⟩

/-- Only zero itself begins with a zero, and nothing is shorter. -/
theorem isNumber_head (number : isNumber x = true) (long : 1 < x.length) : x.head? ≠ some '0' := by
  unfold isNumber at number
  split at number
  · cases number
  · cases long
    contradiction
  · simp only [Bool.and_eq_true, decide_eq_true_eq] at number
    exact fun zero => number.1.1 (Option.some.inj zero)

theorem isNumber_length (number : isNumber x = true) : 0 < x.length := by
  cases x with
  | nil => cases number
  | cons => exact Nat.succ_pos _

theorem decimalValue_lt_of_shorter (first : isNumber x = true) (second : isNumber y = true)
    (shorter : x.length < y.length) : decimalValue x < decimalValue y :=
  decimalValue_lt_of_length_lt (isNumber_digits first)
    (isNumber_head second (Nat.lt_of_le_of_lt (isNumber_length first) shorter)) (isNumber_digits second) shorter

theorem comparison_decimalValue (long : x.length = y.length) (first : isNumber x = true)
    (second : isNumber y = true) : comparison x y = comparison (decimalValue x) (decimalValue y) := by
  have digits := isNumber_digits first
  have digits' := isNumber_digits second
  obtain less | rfl | greater := lt_trichotomy x y
  · have below := (decimalValue_lt_iff long digits digits').mpr less
    rw [(comparison_eq less : _ = Ordering.lt), (comparison_eq below : _ = Ordering.lt)]
  · rw [comparison_self, comparison_self]
  · have below := (decimalValue_lt_iff long.symm digits' digits).mpr greater
    rw [(comparison_eq greater : _ = Ordering.gt), (comparison_eq below : _ = Ordering.gt)]

/-- What the loop over the numbers returns for how their values compare -/
def early : Ordering → Option Int
  | .lt => some (-1)
  | .eq => none
  | .gt => some 1

theorem early_then (first second : Ordering) :
    early (first.then second) = if sign first ≠ 0 then some (sign first) else early second := by
  cases first <;> rfl

theorem compareNumbers_eq (long : xs.length = ys.length) (first : xs.all isNumber = true)
    (second : ys.all isNumber = true) :
    compareNumbers xs ys = early (comparison (xs.map decimalValue) (ys.map decimalValue)) := by
  induction xs generalizing ys with
  | nil =>
      cases ys with
      | nil => rw [List.map_nil, comparison_self]; rfl
      | cons => cases long
  | cons x xs ih =>
      cases ys with
      | nil => cases long
      | cons y ys =>
          simp only [List.all_cons, Bool.and_eq_true] at first second
          have rest := ih (Nat.succ.inj long) first.2 second.2
          simp only [compareNumbers, List.map_cons, comparison_cons]
          obtain shorter | same | longer := Nat.lt_trichotomy x.length y.length
          · have below := decimalValue_lt_of_shorter first.1 second.1 shorter
            rw [if_pos shorter.ne, if_pos shorter, (comparison_eq below : _ = Ordering.lt)]
            rfl
          · rw [if_neg (not_not.mpr same), stringsCompare_eq, comparison_decimalValue same first.1 second.1, rest,
              early_then]
          · have below := decimalValue_lt_of_shorter second.1 first.1 longer
            rw [if_pos longer.ne', if_neg longer.not_gt, (comparison_eq below : _ = Ordering.gt)]
            rfl

/-- Numbers of the same values are written the same. -/
theorem numbers_inj (first : xs.all isNumber = true) (second : ys.all isNumber = true)
    (same : xs.map decimalValue = ys.map decimalValue) : xs = ys := by
  induction xs generalizing ys with
  | nil => exact (List.map_eq_nil_iff.mp same.symm).symm
  | cons x xs ih =>
      cases ys with
      | nil => cases same
      | cons y ys =>
          simp only [List.all_cons, Bool.and_eq_true] at first second
          simp only [List.map_cons, List.cons.injEq] at same
          have rest := ih first.2 second.2 same.2
          obtain shorter | long | longer := Nat.lt_trichotomy x.length y.length
          · exact absurd same.1 (decimalValue_lt_of_shorter first.1 second.1 shorter).ne
          · rw [decimalValue_inj long (isNumber_digits first.1) (isNumber_digits second.1) same.1, rest]
          · exact absurd same.1 (decimalValue_lt_of_shorter second.1 first.1 longer).ne'

/-! ## The prerelease -/

/-- What an identifier counts as in the comparison: a number of more than 64 bits counts as text. -/
def rankOf (text : List Char) : ℕ ⊕ₗ List Char :=
  match parseUint text with
  | some number => toLex (.inl number)
  | none => toLex (.inr text)

theorem rankOf_inj (same : rankOf x = rankOf y) (differ : x ≠ y) :
    ((parseUint x).isSome && parseUint x = parseUint y) = true := by
  unfold rankOf at same
  split at same
  next xi first =>
    split at same
    next yi second =>
      rw [first, second, Sum.inl.inj (toLex.injective same)]
      simp
    next second => cases toLex.injective same
  next first =>
    split at same
    next yi second => cases toLex.injective same
    next second => exact absurd (Sum.inr.inj (toLex.injective same)) differ

theorem compareIdentifiers_eq (differ : xs ≠ ys) (spelled : sameNumber xs ys = false) :
    compareIdentifiers xs ys = sign (comparison (xs.map rankOf) (ys.map rankOf)) := by
  induction xs generalizing ys with
  | nil =>
      cases ys with
      | nil => exact absurd rfl differ
      | cons y ys => rw [List.map_nil, List.map_cons, comparison_nil_cons]; rfl
  | cons x xs ih =>
      cases ys with
      | nil => rw [List.map_nil, List.map_cons, comparison_cons_nil]; rfl
      | cons y ys =>
          simp only [compareIdentifiers, sameNumber, List.map_cons, comparison_cons] at spelled ⊢
          by_cases same : x = y
          · subst same
            rw [if_pos rfl] at spelled ⊢
            rw [comparison_self]
            exact ih (fun equal => differ (congrArg _ equal)) spelled
          · rw [if_neg same] at spelled ⊢
            unfold rankOf
            cases first : parseUint x with
            | some xi =>
                cases second : parseUint y with
                | some yi =>
                    have other : xi ≠ yi := by
                      rintro rfl
                      simp [first, second] at spelled
                    by_cases less : xi < yi
                    · have below : toLex (.inl xi : ℕ ⊕ List Char) < toLex (.inl yi) :=
                        Sum.Lex.inl_lt_inl_iff.mpr less
                      simp only [less, if_true]
                      rw [(comparison_eq below : _ = Ordering.lt)]
                      rfl
                    · have below : toLex (.inl yi : ℕ ⊕ List Char) < toLex (.inl xi) :=
                        Sum.Lex.inl_lt_inl_iff.mpr (by omega)
                      simp only [less, if_false]
                      rw [(comparison_eq below : _ = Ordering.gt)]
                      rfl
                | none =>
                    have below : toLex (.inl xi : ℕ ⊕ List Char) < toLex (.inr y) := Sum.Lex.inl_lt_inr _ _
                    simp only []
                    rw [(comparison_eq below : _ = Ordering.lt)]
                    rfl
            | none =>
                cases second : parseUint y with
                | some yi =>
                    have below : toLex (.inl yi : ℕ ⊕ List Char) < toLex (.inr x) := Sum.Lex.inl_lt_inr _ _
                    simp only []
                    rw [(comparison_eq below : _ = Ordering.gt)]
                    rfl
                | none =>
                    simp only []
                    rw [stringsCompare_eq]
                    obtain less | greater := lt_or_gt_of_ne same
                    · have below : toLex (.inr x : ℕ ⊕ List Char) < toLex (.inr y) :=
                        Sum.Lex.inr_lt_inr_iff.mpr less
                      rw [(comparison_eq below : _ = Ordering.lt), (comparison_eq less : _ = Ordering.lt)]
                      rfl
                    · have below : toLex (.inr y : ℕ ⊕ List Char) < toLex (.inr x) :=
                        Sum.Lex.inr_lt_inr_iff.mpr greater
                      rw [(comparison_eq below : _ = Ordering.gt), (comparison_eq greater : _ = Ordering.gt)]
                      rfl

theorem sameNumber_swap : sameNumber xs ys = sameNumber ys xs := by
  induction xs generalizing ys with
  | nil =>
      cases ys with
      | nil => rfl
      | cons => rfl
  | cons x xs ih =>
      cases ys with
      | nil => rfl
      | cons y ys =>
          simp only [sameNumber]
          by_cases same : x = y
          · rw [if_pos same, if_pos same.symm]
            exact ih
          · rw [if_neg same, if_neg (Ne.symm same), Bool.eq_iff_iff]
            simp only [Bool.and_eq_true, decide_eq_true_eq]
            constructor
            · intro spelled
              exact ⟨spelled.2 ▸ spelled.1, spelled.2.symm⟩
            · intro spelled
              exact ⟨spelled.2 ▸ spelled.1, spelled.2.symm⟩

theorem sameNumber_irrefl (xs : List (List Char)) : sameNumber xs xs = false := by
  induction xs with
  | nil => rfl
  | cons x xs ih =>
      rw [sameNumber, if_pos rfl]
      exact ih

/-- Two spellings of one number are each after the other. -/
theorem compareIdentifiers_sameNumber (spelled : sameNumber xs ys = true) : compareIdentifiers xs ys = 1 := by
  induction xs generalizing ys with
  | nil => cases spelled
  | cons x xs ih =>
      cases ys with
      | nil => cases spelled
      | cons y ys =>
          simp only [sameNumber] at spelled
          simp only [compareIdentifiers]
          by_cases same : x = y
          · rw [if_pos same] at spelled ⊢
            exact ih spelled
          · rw [if_neg same] at spelled ⊢
            simp only [Bool.and_eq_true, decide_eq_true_eq] at spelled
            obtain ⟨number, first⟩ := Option.isSome_iff_exists.mp spelled.1
            rw [← spelled.2, first]
            exact if_neg (Nat.lt_irrefl _)

theorem identifiers_inj (same : aa.identifiers = bb.identifiers) : aa.prerelease = bb.prerelease := by
  have joined := congrArg (['.'].intercalate ·) same
  simpa only [Submatches.identifiers, List.intercalate_splitOn] using joined

theorem identifiers_ranks (spelled : sameNumber xs ys = false) (same : xs.map rankOf = ys.map rankOf) : xs = ys := by
  induction xs generalizing ys with
  | nil => exact (List.map_eq_nil_iff.mp same.symm).symm
  | cons x xs ih =>
      cases ys with
      | nil => cases same
      | cons y ys =>
          simp only [List.map_cons, List.cons.injEq] at same
          simp only [sameNumber] at spelled
          by_cases head : x = y
          · rw [if_pos head] at spelled
            rw [head, ih spelled same.2]
          · rw [if_neg head, rankOf_inj same.1 head] at spelled
            cases spelled

/-! ## Versions -/

/-- The order that the comparison follows -/
def Submatches.rank (matched : Submatches) : List ℕ ×ₗ WithTop (List (ℕ ⊕ₗ List Char)) :=
  toLex (matched.numbers.map decimalValue,
    if matched.prerelease = [] then ⊤ else ↑(matched.identifiers.map rankOf))

/-- Three numbers, each written without a zero in front -/
def Submatches.Valid (matched : Submatches) : Prop :=
  matched.numbers.length = 3 ∧ matched.numbers.all isNumber = true

theorem findSubmatches_of_pattern (valid : versionPattern a = true) :
    ∃ aa, findSubmatches a = some aa ∧ aa.Valid := by
  refine ⟨_, if_pos valid, ?_⟩
  simp only [versionPattern, Bool.and_eq_true, decide_eq_true_eq] at valid
  exact valid.1

theorem comparison_prereleases (differ : aa.prerelease ≠ bb.prerelease)
    (spelled : sameNumber aa.identifiers bb.identifiers = false) :
    (if aa.prerelease = [] then 1 else if bb.prerelease = [] then -1
      else compareIdentifiers aa.identifiers bb.identifiers) =
    sign (comparison (if aa.prerelease = [] then (⊤ : WithTop (List (ℕ ⊕ₗ List Char)))
      else ↑(aa.identifiers.map rankOf)) (if bb.prerelease = [] then ⊤ else ↑(bb.identifiers.map rankOf))) := by
  by_cases first : aa.prerelease = []
  · have second : bb.prerelease ≠ [] := fun none_ => differ (first.trans none_.symm)
    rw [if_pos first, if_pos first, if_neg second,
      (comparison_eq (WithTop.coe_lt_top (bb.identifiers.map rankOf)) : _ = Ordering.gt)]
    rfl
  · rw [if_neg first, if_neg first]
    by_cases second : bb.prerelease = []
    · rw [if_pos second, if_pos second,
        (comparison_eq (WithTop.coe_lt_top (aa.identifiers.map rankOf)) : _ = Ordering.lt)]
      rfl
    · rw [if_neg second, if_neg second, compareIdentifiers_eq (fun same => differ (identifiers_inj same)) spelled]
      obtain less | same | greater := lt_trichotomy (aa.identifiers.map rankOf) (bb.identifiers.map rankOf)
      · rw [(comparison_eq less : _ = Ordering.lt), (comparison_eq (WithTop.coe_lt_coe.mpr less) : _ = Ordering.lt)]
      · rw [same, comparison_self, comparison_self]
      · rw [(comparison_eq greater : _ = Ordering.gt),
          (comparison_eq (WithTop.coe_lt_coe.mpr greater) : _ = Ordering.gt)]

theorem compareSubmatches_eq (first : aa.Valid) (second : bb.Valid)
    (spelled : aa.numbers = bb.numbers → sameNumber aa.identifiers bb.identifiers = false) :
    compareSubmatches aa bb = sign (comparison aa.rank bb.rank) := by
  unfold compareSubmatches Submatches.rank
  rw [compareNumbers_eq (first.1.trans second.1.symm) first.2 second.2, comparison_toLex]
  cases order : comparison (aa.numbers.map decimalValue) (bb.numbers.map decimalValue) with
  | lt => rfl
  | gt => rfl
  | eq =>
      have same := numbers_inj first.2 second.2 (comparison_eq_eq.mp order)
      simp only [early]
      by_cases prerelease : aa.prerelease = bb.prerelease
      · rw [if_pos prerelease, Submatches.identifiers, Submatches.identifiers, prerelease, comparison_self]
        rfl
      · rw [if_neg prerelease, comparison_prereleases prerelease (spelled same)]
        rfl

theorem rank_inj (first : aa.Valid) (second : bb.Valid)
    (spelled : aa.numbers = bb.numbers → sameNumber aa.identifiers bb.identifiers = false)
    (same : aa.rank = bb.rank) : aa = bb := by
  have parts := Prod.mk.inj (toLex.injective same)
  have numbers := numbers_inj first.2 second.2 parts.1
  have prerelease : aa.prerelease = bb.prerelease := by
    by_contra differ
    have compared := comparison_prereleases differ (spelled numbers)
    rw [parts.2, comparison_self] at compared
    by_cases none_ : aa.prerelease = []
    · rw [if_pos none_] at compared
      cases compared
    · rw [if_neg none_] at compared
      by_cases none' : bb.prerelease = []
      · rw [if_pos none'] at compared
        cases compared
      · have ranks := parts.2
        rw [if_neg none_, if_neg none'] at ranks
        exact differ (identifiers_inj (identifiers_ranks (spelled numbers) (WithTop.coe_injective ranks)))
  cases aa
  cases bb
  cases numbers
  cases prerelease
  rfl

theorem sameNumber_prerelease (spelled : sameNumber aa.identifiers bb.identifiers = true) :
    aa.prerelease ≠ bb.prerelease ∧ aa.prerelease ≠ [] := by
  constructor
  · intro same
    rw [Submatches.identifiers, Submatches.identifiers, same, sameNumber_irrefl] at spelled
    cases spelled
  · intro none_
    rw [Submatches.identifiers, none_] at spelled
    change sameNumber [[]] bb.identifiers = true at spelled
    cases rest : bb.identifiers with
    | nil =>
        rw [rest] at spelled
        cases spelled
    | cons y ys =>
        rw [rest] at spelled
        simp only [sameNumber] at spelled
        split at spelled
        · cases ys <;> cases spelled
        · simp [parseUint] at spelled

/-- Two spellings of one version are each after the other. -/
theorem compareSubmatches_sameNumber (first : aa.Valid) (numbers : aa.numbers = bb.numbers)
    (spelled : sameNumber aa.identifiers bb.identifiers = true) : compareSubmatches aa bb = 1 := by
  have differs := sameNumber_prerelease spelled
  have some_ := sameNumber_prerelease (sameNumber_swap.trans spelled)
  unfold compareSubmatches
  rw [compareNumbers_eq (congrArg _ numbers) first.2 (numbers ▸ first.2), numbers, comparison_self]
  simp only [early]
  rw [if_neg differs.1, if_neg differs.2, if_neg some_.2]
  exact compareIdentifiers_sameNumber spelled

/-- The comparison is a total order of these versions, and the guards of an update go by it. -/
structure OrderedOn (versions : Set String) : Prop where
  compares : ∀ a ∈ versions, ∀ b ∈ versions, ∃ order, compareVersion a b = .ok order ∧
    compareVersion b a = .ok (-order) ∧ (order = 0 → SamePrecedence a b)
  trans : ∀ a ∈ versions, ∀ b ∈ versions, ∀ c ∈ versions, ∀ x y z, compareVersion a b = .ok x →
    compareVersion b c = .ok y → compareVersion a c = .ok z → x ≤ 0 → y ≤ 0 → z ≤ 0
  guards : ∀ a ∈ versions, ∀ b ∈ versions, (older a b = true → older b a = false) ∧
    (older a b = false → older b a = false → SamePrecedence a b)

theorem respelled_eq (first : findSubmatches a = some aa) (second : findSubmatches b = some bb)
    (plain : respelled a b = false) (numbers : aa.numbers = bb.numbers) :
    sameNumber aa.identifiers bb.identifiers = false := by
  simp only [respelled, first, second, numbers, decide_true, Bool.true_and] at plain
  exact plain

/-- What compares all versions that are not spellings of each other -/
theorem compareVersion_rank (first : versionPattern a = true) (second : versionPattern b = true)
    (plain : respelled a b = false) :
    ∃ aa bb, findSubmatches a = some aa ∧ findSubmatches b = some bb ∧
      compareVersion a b = .ok (sign (comparison aa.rank bb.rank)) ∧ (aa.rank = bb.rank → aa = bb) := by
  obtain ⟨aa, matched, valid⟩ := findSubmatches_of_pattern first
  obtain ⟨bb, matched', valid'⟩ := findSubmatches_of_pattern second
  have spelled := respelled_eq matched matched' plain
  refine ⟨aa, bb, matched, matched', ?_, rank_inj valid valid' spelled⟩
  simp only [compareVersion, matched, matched', compareSubmatches_eq valid valid' spelled]

theorem compareVersion_compares (first : versionPattern a = true) (second : versionPattern b = true)
    (plain : respelled a b = false) (plain' : respelled b a = false) :
    ∃ order, compareVersion a b = .ok order ∧ compareVersion b a = .ok (-order) ∧
      (order = 0 → SamePrecedence a b) := by
  obtain ⟨aa, bb, matched, matched', compared, equal⟩ := compareVersion_rank first second plain
  obtain ⟨bb', aa', again, again', swapped, -⟩ := compareVersion_rank second first plain'
  cases matched.symm.trans again'
  cases matched'.symm.trans again
  refine ⟨_, compared, ?_, fun zero => ?_⟩
  · rw [swapped, ← sign_swap, comparison_swap]
  · rw [SamePrecedence, matched, matched', equal (comparison_eq_eq.mp (sign_eq_zero.mp zero))]

theorem older_eq {order : Int} (compared : compareVersion a b = .ok order) : older a b = decide (order < 0) := by
  simp only [older, compared]

theorem respelled_both (first : versionPattern a = true) (spelled : respelled a b = true) :
    compareVersion a b = .ok 1 ∧ compareVersion b a = .ok 1 := by
  obtain ⟨aa, matched, valid⟩ := findSubmatches_of_pattern first
  cases matched' : findSubmatches b with
  | none => simp [respelled, matched, matched'] at spelled
  | some bb =>
      simp only [respelled, matched, matched', Bool.and_eq_true, decide_eq_true_eq] at spelled
      obtain ⟨numbers, spelled⟩ := spelled
      have valid' : bb.Valid := by
        rw [Submatches.Valid, ← numbers]
        exact valid
      simp only [compareVersion, matched, matched', compareSubmatches_sameNumber valid numbers spelled,
        compareSubmatches_sameNumber valid' numbers.symm (sameNumber_swap.trans spelled)]
      exact ⟨trivial, trivial⟩

/-- The comparison never panics on versions, and is a total order of them exactly where no two of them
are spellings of each other. -/
theorem compareVersion_orders (versions : Set String) (valid : ∀ version ∈ versions, versionPattern version = true) :
    (∀ a ∈ versions, ∀ b ∈ versions, ∃ order, compareVersion a b = .ok order) ∧
      (OrderedOn versions ↔ ∀ a ∈ versions, ∀ b ∈ versions, respelled a b = false) := by
  constructor
  · intro a first b second
    obtain ⟨aa, matched, -⟩ := findSubmatches_of_pattern (valid a first)
    obtain ⟨bb, matched', -⟩ := findSubmatches_of_pattern (valid b second)
    exact ⟨compareSubmatches aa bb, by simp only [compareVersion, matched, matched']⟩
  constructor
  · intro ordered a first b second
    by_contra spelled
    rw [Bool.not_eq_false] at spelled
    obtain ⟨compared, swapped⟩ := respelled_both (valid a first) spelled
    obtain ⟨order, forth, back, -⟩ := ordered.compares a first b second
    rw [compared] at forth
    rw [swapped] at back
    cases forth
    cases back
  · intro plain
    have compares (a) (first : a ∈ versions) (b) (second : b ∈ versions) :=
      compareVersion_compares (valid a first) (valid b second) (plain a first b second) (plain b second a first)
    refine ⟨compares, ?_, ?_⟩
    · intro a first b second c third x y z forth next whole less less'
      obtain ⟨aa, bb, matched, matched', compared, -⟩ :=
        compareVersion_rank (valid a first) (valid b second) (plain a first b second)
      obtain ⟨bb', cc, again, again', compared', -⟩ :=
        compareVersion_rank (valid b second) (valid c third) (plain b second c third)
      obtain ⟨aa', cc', last, last', compared'', -⟩ :=
        compareVersion_rank (valid a first) (valid c third) (plain a first c third)
      cases matched'.symm.trans again
      cases matched.symm.trans last
      cases again'.symm.trans last'
      cases compared.symm.trans forth
      cases compared'.symm.trans next
      cases compared''.symm.trans whole
      exact sign_nonpos.mpr ((sign_nonpos.mp less).trans (sign_nonpos.mp less'))
    · intro a first b second
      obtain ⟨order, forth, back, same⟩ := compares a first b second
      rw [older_eq forth, older_eq back]
      simp only [decide_eq_true_eq, decide_eq_false_iff_not]
      exact ⟨fun less => by omega, fun less less' => same (by omega)⟩

theorem compareVersion_orders_two :
    OrderedOn {"2.4.0-rc.9", "2.4.0-rc.10"} ↔
      ∀ a ∈ ({"2.4.0-rc.9", "2.4.0-rc.10"} : Set String), ∀ b ∈ ({"2.4.0-rc.9", "2.4.0-rc.10"} : Set String),
        respelled a b = false :=
  (compareVersion_orders {"2.4.0-rc.9", "2.4.0-rc.10"} (by
    rintro version (rfl | rfl)
    · decide +kernel
    · decide +kernel)).2

/-- `1.0.0-01` is after `1.0.0-1`, and `1.0.0-1` is after `1.0.0-01`. -/
theorem respelled_not_ordered : ¬ ∀ a b c : String, versionPattern a = true → versionPattern b = true →
    versionPattern c = true → OrderedOn {a, b, c} := by
  intro ordered
  have both := ordered "1.0.0-01" "1.0.0-1" "1.0.0-1" (by decide +kernel) (by decide +kernel) (by decide +kernel)
  obtain ⟨order, forth, back, -⟩ := both.compares "1.0.0-01" (.inl rfl) "1.0.0-1" (.inr (.inl rfl))
  have first : compareVersion "1.0.0-01" "1.0.0-1" = .ok 1 := by decide +kernel
  have second : compareVersion "1.0.0-1" "1.0.0-01" = .ok 1 := by decide +kernel
  cases first.symm.trans forth
  cases second.symm.trans back

end Dockge.Updater
