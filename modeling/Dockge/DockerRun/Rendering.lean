import Dockge.DockerRun.Flags

namespace Dockge.DockerRun

open Dockge.Data

/-! A command as a person writes it, and that reading it gives back what was written. -/

/-! ## Words between white space -/

/-- A word is written in pieces; a line can go on behind a backslash anywhere. -/
inductive Piece where
  | bare (text : Text)
  | quoted (quote : Char) (text : Text)
  | continued (lineEnd : Char)
deriving DecidableEq, Repr

namespace Piece

def written : Piece → Text
  | bare text => text
  | quoted quote text => quote :: (text ++ [quote])
  | continued lineEnd => ['\\', lineEnd]

def value : Piece → Text
  | bare text => text
  | quoted _ text => text
  | continued _ => []

def isQuoted : Piece → Bool
  | quoted _ _ => true
  | _ => false

def WellFormed : Piece → Prop
  | bare text => text ≠ [] ∧ ∀ char ∈ text, isSpace char = false ∧ isQuote char = false
  | quoted quote text => isQuote quote = true ∧ quote ∉ text
  | continued lineEnd => isLineEnd lineEnd = true

instance : DecidablePred WellFormed := fun piece =>
  match piece with
  | bare _ => inferInstanceAs (Decidable (_ ∧ _))
  | quoted _ _ => inferInstanceAs (Decidable (_ ∧ _))
  | continued _ => inferInstanceAs (Decidable (_ = _))

/-- A backslash outside quotes at the end, which would take a line end behind it -/
def endsOpen : Piece → Bool
  | bare text => text.getLast? = some '\\'
  | _ => false

end Piece

abbrev Word := List Piece

namespace Word

def written (word : Word) : Text := word.flatMap Piece.written

def value (word : Word) : Text := word.flatMap Piece.value

def isQuoted (word : Word) : Bool := word.any Piece.isQuoted

def endsOpen (word : Word) : Bool := word.getLast?.any Piece.endsOpen

def WellFormed (word : Word) : Prop :=
  (∀ piece ∈ word, piece.WellFormed) ∧ (word.value ≠ [] ∨ word.isQuoted = true)

instance (word : Word) : Decidable word.WellFormed := inferInstanceAs (Decidable (_ ∧ _))

end Word

/-- What stands between two words -/
inductive Blank where
  | space (char : Char)
  | continued (lineEnd : Char)
deriving DecidableEq, Repr

namespace Blank

def written : Blank → Text
  | space char => [char]
  | continued lineEnd => ['\\', lineEnd]

def WellFormed : Blank → Prop
  | space char => isSpace char = true
  | continued lineEnd => isLineEnd lineEnd = true

instance : DecidablePred WellFormed := fun blank =>
  match blank with
  | space _ => inferInstanceAs (Decidable (_ = _))
  | continued _ => inferInstanceAs (Decidable (_ = _))

def isWhite : Blank → Bool
  | space _ => true
  | continued _ => false

def isLineEnd : Blank → Bool
  | space char => DockerRun.isLineEnd char
  | continued _ => false

end Blank

abbrev Gap := List Blank

namespace Gap

def written (gap : Gap) : Text := gap.flatMap Blank.written

def WellFormed (gap : Gap) : Prop := ∀ blank ∈ gap, blank.WellFormed

instance (gap : Gap) : Decidable gap.WellFormed := inferInstanceAs (Decidable (∀ _ ∈ _, _))

def separates (gap : Gap) : Bool := gap.any Blank.isWhite

end Gap

/-- Words with the gap behind each -/
abbrev Line := List (Word × Gap)

namespace Line

def written (line : Line) : Text := line.flatMap fun (word, gap) => word.written ++ gap.written

def values (line : Line) : List Text := line.map (·.1.value)

/-- A gap with white space stands between any two words, and no open backslash before a line end. -/
def WellFormed : Line → Prop
  | [] => True
  | (word, gap) :: rest =>
      word.WellFormed ∧ gap.WellFormed ∧ (rest ≠ [] → gap.separates = true) ∧
        ¬ (word.endsOpen = true ∧ gap.head?.any Blank.isLineEnd = true) ∧ WellFormed rest

def decideWellFormed : (line : Line) → Decidable line.WellFormed
  | [] => .isTrue trivial
  | (_, _) :: rest =>
      have := decideWellFormed rest
      inferInstanceAs (Decidable (_ ∧ _ ∧ _ ∧ _ ∧ _))

instance (line : Line) : Decidable line.WellFormed := decideWellFormed line

end Line

/-! ### The words are read back -/

theorem isSpace_of_isLineEnd {char : Char} (ends : isLineEnd char = true) : isSpace char = true := by
  simp only [isLineEnd, Bool.or_eq_true, decide_eq_true_eq] at ends
  obtain rfl | rfl := ends
  · decide
  · decide

theorem not_isQuote_of_isSpace {char : Char} (space : isSpace char = true) : isQuote char = false := by
  cases quote : isQuote char with
  | false => rfl
  | true =>
      simp only [isQuote, Bool.or_eq_true, decide_eq_true_eq] at quote
      obtain rfl | rfl := quote
      · exact absurd space (by decide)
      · exact absurd space (by decide)

theorem tokeniseFrom_inside (quote char : Char) (current : Text) (hasContent : Bool) (rest : Text) :
    tokeniseFrom { current, quote := some quote, hasContent } (char :: rest) =
      if char = quote then tokeniseFrom { current, quote := none, hasContent } rest
      else tokeniseFrom { current := current ++ [char], quote := some quote, hasContent } rest := rfl

theorem tokeniseFrom_opened {quote : Char} (quotes : isQuote quote = true) (current : Text) (hasContent : Bool) (rest : Text) :
    tokeniseFrom { current, quote := none, hasContent } (quote :: rest) =
      tokeniseFrom { current, quote := some quote, hasContent := true } rest := by
  conv_lhs => unfold tokeniseFrom
  simp only [quotes, if_true]

theorem tokeniseFrom_quoted {quote : Char} {text : Text} (inside : quote ∉ text) (current : Text) (hasContent : Bool)
    (rest : Text) :
    tokeniseFrom { current, quote := some quote, hasContent } (text ++ quote :: rest) =
      tokeniseFrom { current := current ++ text, quote := none, hasContent } rest := by
  induction text generalizing current with
  | nil => rw [List.nil_append, tokeniseFrom_inside, if_pos rfl, List.append_nil]
  | cons char text ih =>
      obtain ⟨other, others⟩ := not_or.mp (mt List.mem_cons.mpr inside)
      rw [List.cons_append, tokeniseFrom_inside, if_neg (Ne.symm other), ih others, List.append_assoc,
        List.singleton_append]

/-- A character that is no quote, no white space and no backslash before a line end goes into the word. -/
theorem tokeniseFrom_char {char : Char} {rest : Text} (space : isSpace char = false) (quote : isQuote char = false)
    (open_ : char = '\\' → rest.head?.any isLineEnd = false) (current : Text) (hasContent : Bool) :
    tokeniseFrom { current, quote := none, hasContent } (char :: rest) =
      tokeniseFrom { current := current ++ [char], quote := none, hasContent } rest := by
  cases rest with
  | nil => simp [tokeniseFrom, quote, space]
  | cons next after =>
      by_cases slash : char = '\\'
      · have notEnd : isLineEnd next = false := open_ slash
        subst slash
        simp [tokeniseFrom, quote, notEnd]
      · simp [tokeniseFrom, quote, slash, space]

theorem tokeniseFrom_bare {text rest : Text} (plain : ∀ char ∈ text, isSpace char = false ∧ isQuote char = false)
    (open_ : text.getLast? = some '\\' → rest.head?.any isLineEnd = false) (current : Text) (hasContent : Bool) :
    tokeniseFrom { current, quote := none, hasContent } (text ++ rest) =
      tokeniseFrom { current := current ++ text, quote := none, hasContent } rest := by
  induction text generalizing current with
  | nil => simp
  | cons char text ih =>
      obtain ⟨space, quote⟩ := plain char List.mem_cons_self
      have others : ∀ other ∈ text, isSpace other = false ∧ isQuote other = false := fun other member =>
        plain other (List.mem_cons_of_mem _ member)
      have own : char = '\\' → (text ++ rest).head?.any isLineEnd = false := by
        intro same
        cases text with
        | nil => exact open_ (congrArg some same)
        | cons other text =>
            have plain_ := (others other List.mem_cons_self).1
            cases ends : isLineEnd other with
            | false => exact ends
            | true =>
                rw [isSpace_of_isLineEnd ends] at plain_
                cases plain_
      rw [List.cons_append, tokeniseFrom_char space quote own, ih others]
      · rw [List.append_assoc, List.singleton_append]
      · intro last
        refine open_ ?_
        rw [List.getLast?_cons, last]
        rfl

theorem tokeniseFrom_continued {lineEnd : Char} (ends : isLineEnd lineEnd = true) (current : Text) (hasContent : Bool)
    (rest : Text) :
    tokeniseFrom { current, quote := none, hasContent } ('\\' :: lineEnd :: rest) =
      tokeniseFrom { current, quote := none, hasContent } rest := by
  rw [tokeniseFrom]
  simp [isQuote, ends]

theorem tokeniseFrom_space {char : Char} (space : isSpace char = true) (current : Text) (hasContent : Bool) (rest : Text) :
    tokeniseFrom { current, quote := none, hasContent } (char :: rest) =
      Tokenising.word { current, quote := none, hasContent } ++ tokeniseFrom {} rest := by
  have slash : char ≠ '\\' := by
    intro same
    rw [same] at space
    exact absurd space (by decide)
  simp [tokeniseFrom, not_isQuote_of_isSpace space, slash, space]

/-- No piece begins with a line end. -/
theorem Piece.head_written {piece : Piece} (wellFormed : piece.WellFormed) (rest : Text) :
    (piece.written ++ rest).head?.any isLineEnd = false := by
  cases piece with
  | bare text =>
      obtain ⟨some_, plain⟩ := wellFormed
      cases text with
      | nil => exact absurd rfl some_
      | cons char text =>
          cases ends : isLineEnd char with
          | false => exact ends
          | true =>
              have space := (plain char List.mem_cons_self).1
              rw [isSpace_of_isLineEnd ends] at space
              cases space
  | quoted quote text =>
      have quotes := wellFormed.1
      cases ends : isLineEnd quote with
      | false => exact ends
      | true =>
          rw [not_isQuote_of_isSpace (isSpace_of_isLineEnd ends)] at quotes
          cases quotes
  | continued => rfl

theorem tokeniseFrom_piece {piece : Piece} (wellFormed : piece.WellFormed) {rest : Text}
    (open_ : piece.endsOpen = true → rest.head?.any isLineEnd = false) (current : Text) (hasContent : Bool) :
    tokeniseFrom { current, quote := none, hasContent } (piece.written ++ rest) =
      tokeniseFrom { current := current ++ piece.value, quote := none, hasContent := hasContent || piece.isQuoted } rest := by
  cases piece with
  | bare text =>
      have bare := tokeniseFrom_bare wellFormed.2 (fun last => open_ (decide_eq_true last)) current hasContent
      simpa [Piece.written, Piece.value, Piece.isQuoted] using bare
  | quoted quote text =>
      have inside := tokeniseFrom_quoted wellFormed.2 current true rest
      rw [← tokeniseFrom_opened wellFormed.1 current hasContent] at inside
      simpa [Piece.written, Piece.value, Piece.isQuoted] using inside
  | continued lineEnd =>
      have skipped := tokeniseFrom_continued wellFormed current hasContent rest
      simpa [Piece.written, Piece.value, Piece.isQuoted] using skipped

theorem tokeniseFrom_word {word : Word} (wellFormed : ∀ piece ∈ word, piece.WellFormed) {rest : Text}
    (open_ : word.endsOpen = true → rest.head?.any isLineEnd = false) (current : Text) (hasContent : Bool) :
    tokeniseFrom { current, quote := none, hasContent } (word.written ++ rest) =
      tokeniseFrom { current := current ++ word.value, quote := none, hasContent := hasContent || word.isQuoted } rest := by
  induction word generalizing current hasContent with
  | nil => simp [Word.written, Word.value, Word.isQuoted]
  | cons piece word ih =>
      have others : ∀ other ∈ word, other.WellFormed := fun other member => wellFormed other (List.mem_cons_of_mem _ member)
      have own : piece.endsOpen = true → (Word.written word ++ rest).head?.any isLineEnd = false := by
        intro opened
        cases word with
        | nil => exact open_ opened
        | cons next word =>
            have next_ := Piece.head_written (others next List.mem_cons_self) (Word.written word ++ rest)
            rw [← List.append_assoc] at next_
            exact next_
      have later : Word.endsOpen word = true → rest.head?.any isLineEnd = false := by
        intro opened
        refine open_ ?_
        cases word with
        | nil => cases opened
        | cons next word => exact opened
      have split : Word.written (piece :: word) ++ rest = piece.written ++ (Word.written word ++ rest) := by
        simp [Word.written]
      rw [split, tokeniseFrom_piece (wellFormed piece List.mem_cons_self) own, ih others later]
      simp [Word.value, Word.isQuoted, Bool.or_assoc]

/-- Blanks in front of a word do not count. -/
theorem tokeniseFrom_lead {gap : Gap} (wellFormed : gap.WellFormed) (rest : Text) :
    tokeniseFrom {} (gap.written ++ rest) = tokeniseFrom {} rest := by
  induction gap with
  | nil => rfl
  | cons blank gap ih =>
      have others := ih fun other member => wellFormed other (List.mem_cons_of_mem _ member)
      have own := wellFormed blank List.mem_cons_self
      cases blank with
      | space char =>
          have step := tokeniseFrom_space own [] false (Gap.written gap ++ rest)
          rw [others] at step
          exact step
      | continued lineEnd =>
          have step := tokeniseFrom_continued own [] false (Gap.written gap ++ rest)
          rw [others] at step
          exact step

theorem tokeniseFrom_gap {gap : Gap} (wellFormed : gap.WellFormed) (separates : gap.separates = true) (current : Text)
    (hasContent : Bool) (rest : Text) :
    tokeniseFrom { current, quote := none, hasContent } (gap.written ++ rest) =
      Tokenising.word { current, quote := none, hasContent } ++ tokeniseFrom {} rest := by
  induction gap with
  | nil => cases separates
  | cons blank gap ih =>
      have others : Gap.WellFormed gap := fun other member => wellFormed other (List.mem_cons_of_mem _ member)
      have own := wellFormed blank List.mem_cons_self
      cases blank with
      | space char =>
          have step := tokeniseFrom_space own current hasContent (Gap.written gap ++ rest)
          rw [tokeniseFrom_lead others] at step
          exact step
      | continued lineEnd =>
          have step := tokeniseFrom_continued own current hasContent (Gap.written gap ++ rest)
          rw [ih others separates] at step
          exact step

/-- Behind the last word, blanks end it whether there are any or not. -/
theorem tokeniseFrom_trail {gap : Gap} (wellFormed : gap.WellFormed) (current : Text) (hasContent : Bool) :
    tokeniseFrom { current, quote := none, hasContent } gap.written =
      Tokenising.word { current, quote := none, hasContent } := by
  cases separates : gap.separates with
  | true =>
      have ended := tokeniseFrom_gap wellFormed separates current hasContent []
      rw [List.append_nil] at ended
      rw [ended]
      exact List.append_nil _
  | false =>
      induction gap with
      | nil => rfl
      | cons blank gap ih =>
          have others : Gap.WellFormed gap := fun other member => wellFormed other (List.mem_cons_of_mem _ member)
          have own := wellFormed blank List.mem_cons_self
          cases blank with
          | space char => cases separates
          | continued lineEnd =>
              have step := tokeniseFrom_continued own current hasContent (Gap.written gap)
              rw [ih others separates] at step
              exact step

theorem Gap.head_written (gap : Gap) (rest : Text) (some_ : gap ≠ []) :
    (gap.written ++ rest).head?.any DockerRun.isLineEnd = gap.head?.any Blank.isLineEnd := by
  cases gap with
  | nil => exact absurd rfl some_
  | cons blank gap =>
      cases blank with
      | space char => rfl
      | continued lineEnd => rfl

theorem tokeniseFrom_line {line : Line} (wellFormed : line.WellFormed) :
    tokeniseFrom {} line.written = line.values := by
  induction line with
  | nil => rfl
  | cons entry line ih =>
      obtain ⟨word, gap⟩ := entry
      obtain ⟨⟨pieces, content⟩, blanks, separates, open_, others⟩ := wellFormed
      have ended : Tokenising.word { current := [] ++ word.value, quote := none, hasContent := false || word.isQuoted } =
          [word.value] := by
        rw [Tokenising.word, if_pos]
        · rfl
        · simpa using content
      have start : Word.endsOpen word = true → ∀ rest, (gap = [] → rest = []) →
          (gap.written ++ rest).head?.any isLineEnd = false := by
        intro opened rest nothing
        by_cases none_ : gap = []
        · rw [none_, nothing none_]
          rfl
        · rw [Gap.head_written gap rest none_]
          cases ends : gap.head?.any Blank.isLineEnd with
          | false => rfl
          | true => exact absurd ⟨opened, ends⟩ open_
      have split : Line.written ((word, gap) :: line) = word.written ++ (gap.written ++ Line.written line) := by
        simp [Line.written]
      rw [split]
      cases line with
      | nil =>
          have trail : gap.written ++ Line.written [] = gap.written := List.append_nil _
          have nothing := fun opened => start opened [] fun _ => rfl
          rw [List.append_nil] at nothing
          rw [trail, tokeniseFrom_word pieces nothing, tokeniseFrom_trail blanks, ended]
          rfl
      | cons next line =>
          have separate := separates (List.cons_ne_nil _ _)
          have some_ : gap ≠ [] := by
            intro none_
            rw [none_] at separate
            cases separate
          rw [tokeniseFrom_word pieces fun opened => start opened _ fun none_ => absurd none_ some_,
            tokeniseFrom_gap blanks separate, ended, ih others]
          rfl

end Dockge.DockerRun
