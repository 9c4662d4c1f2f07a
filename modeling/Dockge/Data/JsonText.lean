import Mathlib.Tactic.IntervalCases

namespace Dockge.Data

/-! The JSON text of a list of texts, which no other list has. -/

def backslash : Char := Char.ofNat 92

def quoteMark : Char := Char.ofNat 34

def hexDigit (digit : Nat) : Char := Char.ofNat (if digit < 10 then 48 + digit else 87 + digit)

/-- One character inside the quotes -/
def quoteChar (char : Char) : List Char :=
  if char = quoteMark ∨ char = backslash then [backslash, char]
  else if char = Char.ofNat 8 then [backslash, 'b']
  else if char = Char.ofNat 9 then [backslash, 't']
  else if char = Char.ofNat 10 then [backslash, 'n']
  else if char = Char.ofNat 12 then [backslash, 'f']
  else if char = Char.ofNat 13 then [backslash, 'r']
  else if char.toNat < 32 then
    [backslash, 'u', '0', '0', hexDigit (char.toNat / 16), hexDigit (char.toNat % 16)]
  else [char]

/-- What stands for a character of the text, and what comes after it -/
def unquoteChar : List Char → Option (Char × List Char)
  | [] => none
  | char :: rest =>
      if char ≠ backslash then some (char, rest)
      else
        match rest with
        | 'b' :: rest => some (Char.ofNat 8, rest)
        | 't' :: rest => some (Char.ofNat 9, rest)
        | 'n' :: rest => some (Char.ofNat 10, rest)
        | 'f' :: rest => some (Char.ofNat 12, rest)
        | 'r' :: rest => some (Char.ofNat 13, rest)
        | 'u' :: _ :: _ :: high :: low :: rest =>
            let digit (char : Char) : Nat := if char.toNat < 58 then char.toNat - 48 else char.toNat - 87
            some (Char.ofNat (16 * digit high + digit low), rest)
        | char :: rest => some (char, rest)
        | [] => none

theorem unquoteChar_quoteChar (char : Char) (rest : List Char) :
    unquoteChar (quoteChar char ++ rest) = some (char, rest) := by
  by_cases small : char.toNat < 32
  · obtain ⟨code, bound, rfl⟩ : ∃ code, code < 32 ∧ char = Char.ofNat code :=
      ⟨char.toNat, small, (Char.ofNat_toNat char).symm⟩
    interval_cases code <;> rfl
  · have printable (code : Nat) (bound : code < 32) : char ≠ Char.ofNat code := by
      intro same
      subst same
      interval_cases code <;> exact small (by decide)
    unfold quoteChar
    split
    next special =>
      obtain rfl | rfl := special <;> rfl
    next plain =>
      rw [not_or] at plain
      simp only [printable 8 (by decide), printable 9 (by decide), printable 10 (by decide),
        printable 12 (by decide), printable 13 (by decide), if_false, List.singleton_append,
        unquoteChar, ne_eq, plain.2, not_false_eq_true, if_true]

theorem quoteChar_append_inj {first second : Char} {left right : List Char}
    (same : quoteChar first ++ left = quoteChar second ++ right) : first = second ∧ left = right := by
  have read := congrArg unquoteChar same
  rw [unquoteChar_quoteChar, unquoteChar_quoteChar] at read
  simpa using read

theorem quoteChar_ne_mark (char : Char) (rest tail : List Char) :
    quoteChar char ++ rest ≠ quoteMark :: tail := by
  unfold quoteChar
  intro same
  have different : backslash ≠ quoteMark := by decide
  repeat' split at same
  all_goals first
    | exact different (List.cons.inj same).1
    | skip
  next plain _ _ _ _ _ _ => exact plain (.inl (List.cons.inj same).1)

/-- A text in quotes, with what follows it -/
def quoteThen (chars : List Char) (rest : List Char) : List Char :=
  quoteMark :: (chars.flatMap quoteChar ++ quoteMark :: rest)

theorem quoteThen_inj {first second left right : List Char}
    (same : quoteThen first left = quoteThen second right) : first = second ∧ left = right := by
  have body := (List.cons.inj same).2
  clear same
  induction first generalizing second with
  | nil =>
      cases second with
      | nil => exact ⟨rfl, (List.cons.inj body).2⟩
      | cons char rest =>
          rw [List.flatMap_cons, List.append_assoc] at body
          exact absurd body.symm (quoteChar_ne_mark char _ _)
  | cons char rest ih =>
      cases second with
      | nil =>
          rw [List.flatMap_cons, List.append_assoc] at body
          exact absurd body (quoteChar_ne_mark char _ _)
      | cons other tail =>
          simp only [List.flatMap_cons, List.append_assoc] at body
          obtain ⟨rfl, remaining⟩ := quoteChar_append_inj body
          obtain ⟨rfl, equal⟩ := ih remaining
          exact ⟨rfl, equal⟩

/-- A number that is whole and not negative, with what follows it -/
def numberThen (number : Nat) (rest : List Char) : List Char := Nat.toDigits 10 number ++ rest

theorem takeWhile_digits (number : Nat) {mark : Char} (plain : mark.isDigit = false) (rest : List Char) :
    (numberThen number (mark :: rest)).takeWhile Char.isDigit = Nat.toDigits 10 number := by
  rw [numberThen, List.takeWhile_append_of_pos]
  · rw [List.takeWhile_cons_of_neg (by rw [plain]; decide), List.append_nil]
  · intro digit member
    exact Nat.isDigit_of_mem_toDigits (by decide) (by decide) member

theorem numberThen_inj {first second : Nat} {mark : Char} {left right : List Char} (plain : mark.isDigit = false)
    (same : numberThen first (mark :: left) = numberThen second (mark :: right)) : first = second ∧ left = right := by
  have digits : Nat.toDigits 10 first = Nat.toDigits 10 second := by
    rw [← takeWhile_digits first plain left, same, takeWhile_digits second plain right]
  have equal : first = second := by
    rw [← Nat.ofDigitChars_ten_toDigits (n := first), digits, Nat.ofDigitChars_ten_toDigits]
  subst equal
  exact ⟨rfl, (List.cons.inj (List.append_cancel_left same)).2⟩

/-- The texts after the first one, up to the closing bracket -/
def stringifyRest : List String → List Char
  | [] => [']']
  | text :: rest => ',' :: quoteThen text.toList (stringifyRest rest)

/-- `JSON.stringify` of a list of texts -/
def stringifyTexts : List String → String
  | [] => "[]"
  | text :: rest => String.ofList ('[' :: quoteThen text.toList (stringifyRest rest))

theorem stringifyRest_inj {first second : List String} (same : stringifyRest first = stringifyRest second) :
    first = second := by
  induction first generalizing second with
  | nil =>
      cases second with
      | nil => rfl
      | cons text rest => exact absurd (List.cons.inj same).1 (by decide)
  | cons text rest ih =>
      cases second with
      | nil => exact absurd (List.cons.inj same).1 (by decide)
      | cons other tail =>
          obtain ⟨equal, remaining⟩ := quoteThen_inj (List.cons.inj same).2
          rw [String.toList_inj.mp equal, ih remaining]

theorem stringifyTexts_inj {first second : List String} (some_ : first ≠ []) (other : second ≠ [])
    (same : stringifyTexts first = stringifyTexts second) : first = second := by
  cases first with
  | nil => exact absurd rfl some_
  | cons text rest =>
      cases second with
      | nil => exact absurd rfl other
      | cons next tail =>
          have chars := (List.cons.inj (String.ofList_inj.mp same)).2
          obtain ⟨equal, remaining⟩ := quoteThen_inj chars
          rw [String.toList_inj.mp equal, stringifyRest_inj remaining]

/-! ## Arrays of anything that is written so that it can be read back -/

section Arrays

variable {Item : Type} (itemThen : Item → List Char → List Char)

/-- The items after the first one, with the closing bracket and what follows it -/
def itemsThen : List Item → List Char → List Char
  | [], rest => ']' :: rest
  | item :: items, rest => ',' :: itemThen item (itemsThen items rest)

def arrayThen (items : List Item) (rest : List Char) : List Char :=
  match items with
  | [] => '[' :: ']' :: rest
  | item :: items => '[' :: itemThen item (itemsThen itemThen items rest)

variable {itemThen} {first second : List Item} {left right : List Char}

theorem itemsThen_inj
    (readable : ∀ one other left right, itemThen one left = itemThen other right → one = other ∧ left = right)
    (same : itemsThen itemThen first left = itemsThen itemThen second right) : first = second ∧ left = right := by
  induction first generalizing second with
  | nil =>
      cases second with
      | nil => exact ⟨rfl, (List.cons.inj same).2⟩
      | cons item items => exact absurd (List.cons.inj same).1 (by decide)
  | cons item items ih =>
      cases second with
      | nil => exact absurd (List.cons.inj same).1 (by decide)
      | cons other others =>
          obtain ⟨rfl, remaining⟩ := readable _ _ _ _ (List.cons.inj same).2
          obtain ⟨rfl, equal⟩ := ih remaining
          exact ⟨rfl, equal⟩

theorem arrayThen_inj
    (readable : ∀ one other left right, itemThen one left = itemThen other right → one = other ∧ left = right)
    (opens : ∀ item rest, (itemThen item rest).head? ≠ some ']')
    (same : arrayThen itemThen first left = arrayThen itemThen second right) : first = second ∧ left = right := by
  cases first with
  | nil =>
      cases second with
      | nil => exact ⟨rfl, (List.cons.inj (List.cons.inj same).2).2⟩
      | cons item items =>
          have inside := (List.cons.inj same).2
          exact absurd (inside ▸ rfl) (opens item (itemsThen itemThen items right))
  | cons item items =>
      cases second with
      | nil =>
          have inside := (List.cons.inj same).2
          exact absurd (inside.symm ▸ rfl) (opens item (itemsThen itemThen items left))
      | cons other others =>
          obtain ⟨rfl, remaining⟩ := readable _ _ _ _ (List.cons.inj same).2
          obtain ⟨rfl, equal⟩ := itemsThen_inj readable remaining
          exact ⟨rfl, equal⟩

theorem itemsThen_append (appends : ∀ item left right, itemThen item (left ++ right) = itemThen item left ++ right)
    (items : List Item) (left right : List Char) :
    itemsThen itemThen items (left ++ right) = itemsThen itemThen items left ++ right := by
  induction items with
  | nil => rfl
  | cons item items ih => rw [itemsThen, itemsThen, ih, appends, List.cons_append]

theorem arrayThen_append (appends : ∀ item left right, itemThen item (left ++ right) = itemThen item left ++ right)
    (items : List Item) (left right : List Char) :
    arrayThen itemThen items (left ++ right) = arrayThen itemThen items left ++ right := by
  cases items with
  | nil => rfl
  | cons item items => rw [arrayThen, arrayThen, itemsThen_append appends, appends, List.cons_append]

end Arrays

theorem quoteThen_append (chars left right : List Char) : quoteThen chars (left ++ right) = quoteThen chars left ++ right := by
  simp only [quoteThen, List.cons_append, List.append_assoc]

theorem quoteThen_head (chars rest : List Char) : (quoteThen chars rest).head? = some quoteMark := rfl

end Dockge.Data
