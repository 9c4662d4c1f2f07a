namespace Dockge.Data

/-! Texts as lists of characters, the way the string methods of the source take them apart. -/

instance lawfulBEqChars : LawfulBEq (List Char) := inferInstance

/-- The white space that `trim` removes and `\s` matches. -/
def isSpace (char : Char) : Bool :=
  char.toNat ∈ [9, 10, 11, 12, 13, 32, 160, 5760, 8232, 8233, 8239, 8287, 12288, 65279] ||
    (8192 ≤ char.toNat && char.toNat ≤ 8202)

def trimChars (chars : List Char) : List Char :=
  ((chars.dropWhile isSpace).reverse.dropWhile isSpace).reverse

/-- Lower case, for the letters of ASCII. -/
def lowerChars (chars : List Char) : List Char := chars.map Char.toLower

def splitChars (separator : Char) : List Char → List (List Char)
  | [] => [[]]
  | char :: rest =>
      if char = separator then [] :: splitChars separator rest
      else
        match splitChars separator rest with
        | [] => [[char]]
        | first :: others => (char :: first) :: others

/-- What stands before and after the first of a character -/
def cutFirst (separator : Char) : List Char → Option (List Char × List Char)
  | [] => none
  | char :: rest =>
      if char = separator then some ([], rest)
      else (cutFirst separator rest).map fun (before, after) => (char :: before, after)

/-- What stands before and after the last of a character -/
def cutLast (separator : Char) : List Char → Option (List Char × List Char)
  | [] => none
  | char :: rest =>
      match cutLast separator rest with
      | some (before, after) => some (char :: before, after)
      | none => if char = separator then some ([], rest) else none

/-- `lastIndexOf` -/
def lastIndexOf (separator : Char) (text : List Char) : Int :=
  match cutLast separator text with
  | some (before, _) => before.length
  | none => -1

variable {separator : Char} {text before after : List Char}

theorem cutFirst_of_not_mem (free : separator ∉ text) : cutFirst separator text = none := by
  induction text with
  | nil => rfl
  | cons char rest ih =>
      rw [List.mem_cons, not_or] at free
      rw [cutFirst, if_neg (Ne.symm free.1), ih free.2, Option.map_none]

theorem cutFirst_append (free : separator ∉ before) : cutFirst separator (before ++ separator :: after) = some (before, after) := by
  induction before with
  | nil => rw [List.nil_append, cutFirst, if_pos rfl]
  | cons char rest ih =>
      rw [List.mem_cons, not_or] at free
      rw [List.cons_append, cutFirst, if_neg (Ne.symm free.1), ih free.2, Option.map_some]

theorem cutFirst_cases (separator : Char) (text : List Char) :
    cutFirst separator text = none ∧ separator ∉ text ∨
      ∃ before after, cutFirst separator text = some (before, after) ∧ text = before ++ separator :: after ∧ separator ∉ before := by
  induction text with
  | nil => exact .inl ⟨rfl, List.not_mem_nil⟩
  | cons char rest ih =>
      rw [cutFirst]
      by_cases same : char = separator
      · exact .inr ⟨[], rest, if_pos same, by rw [same]; rfl, List.not_mem_nil⟩
      · rw [if_neg same]
        obtain ⟨cut, free⟩ | ⟨before, after, cut, rfl, free⟩ := ih
        · refine .inl ⟨by rw [cut, Option.map_none], ?_⟩
          rw [List.mem_cons, not_or]
          exact ⟨Ne.symm same, free⟩
        · refine .inr ⟨char :: before, after, by rw [cut, Option.map_some], rfl, ?_⟩
          rw [List.mem_cons, not_or]
          exact ⟨Ne.symm same, free⟩

theorem cutLast_of_not_mem (free : separator ∉ text) : cutLast separator text = none := by
  induction text with
  | nil => rfl
  | cons char rest ih =>
      rw [List.mem_cons, not_or] at free
      rw [cutLast, ih free.2]
      exact if_neg (Ne.symm free.1)

theorem cutLast_append (free : separator ∉ after) : cutLast separator (before ++ separator :: after) = some (before, after) := by
  induction before with
  | nil =>
      rw [List.nil_append, cutLast, cutLast_of_not_mem free]
      exact if_pos rfl
  | cons char rest ih => rw [List.cons_append, cutLast, ih]

theorem cutLast_cases (separator : Char) (text : List Char) :
    cutLast separator text = none ∧ separator ∉ text ∨
      ∃ before after, cutLast separator text = some (before, after) ∧ text = before ++ separator :: after ∧ separator ∉ after := by
  induction text with
  | nil => exact .inl ⟨rfl, List.not_mem_nil⟩
  | cons char rest ih =>
      rw [cutLast]
      obtain ⟨cut, free⟩ | ⟨before, after, cut, rfl, free⟩ := ih
      · rw [cut]
        by_cases same : char = separator
        · exact .inr ⟨[], rest, if_pos same, by rw [same]; rfl, free⟩
        · refine .inl ⟨if_neg same, ?_⟩
          rw [List.mem_cons, not_or]
          exact ⟨Ne.symm same, free⟩
      · rw [cut]
        exact .inr ⟨char :: before, after, rfl, rfl, free⟩

end Dockge.Data
