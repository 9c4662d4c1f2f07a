import Dockge.DockerRun.Rendering

namespace Dockge.DockerRun

/-! How flags are spelled, and that reading a spelled command gives them back. -/

/-- A flag by its long name, with its value -/
abbrev Flag := Text × Option Text

def ParsedFlag.canonical (parsed : ParsedFlag) : Flag := (canonicalFlag parsed.flag, parsed.value)

/-- A letter of a flag of some kind -/
def isShort (flags : List Text) (letter : Char) : Prop := canonicalFlag ['-', letter] ∈ flags

def longName (letter : Char) : Text := canonicalFlag ['-', letter]

/-- The spellings of a list of flags, as tokens. A value right behind a letter is not empty, and a longer
one does not begin with an equals sign; one behind a letter and an equals sign is not empty. -/
inductive Spells : List Flag → List Text → Prop where
  | nil : Spells [] []
  | switch {written : Text} {flags : List Flag} {tokens : List Text} (long : startsLong written = true)
      (known : canonicalFlag written ∈ booleanFlags) (rest : Spells flags tokens) :
      Spells ((canonicalFlag written, none) :: flags) (written :: tokens)
  | apart {written value : Text} {flags : List Flag} {tokens : List Text} (long : startsLong written = true)
      (known : canonicalFlag written ∈ valueFlags) (rest : Spells flags tokens) :
      Spells ((canonicalFlag written, some value) :: flags) (written :: value :: tokens)
  | equals {written value : Text} {flags : List Flag} {tokens : List Text} (long : startsLong written = true)
      (known : canonicalFlag written ∈ valueFlags) (rest : Spells flags tokens) :
      Spells ((canonicalFlag written, some value) :: flags) ((written ++ '=' :: value) :: tokens)
  | cluster {letters : List Char} {flags : List Flag} {tokens : List Text} (some_ : letters ≠ [])
      (known : ∀ letter ∈ letters, isShort booleanFlags letter) (rest : Spells flags tokens) :
      Spells (letters.map (fun letter => (longName letter, none)) ++ flags) (('-' :: letters) :: tokens)
  | clusterApart {letters : List Char} {letter : Char} {value : Text} {flags : List Flag} {tokens : List Text}
      (known : ∀ letter ∈ letters, isShort booleanFlags letter) (takes : isShort valueFlags letter)
      (rest : Spells flags tokens) :
      Spells (letters.map (fun letter => (longName letter, none)) ++ (longName letter, some value) :: flags)
        (('-' :: (letters ++ [letter])) :: value :: tokens)
  | clusterAttached {letters : List Char} {letter : Char} {value : Text} {flags : List Flag} {tokens : List Text}
      (known : ∀ letter ∈ letters, isShort booleanFlags letter) (takes : isShort valueFlags letter)
      (some_ : value ≠ []) (plain : value.head? = some '=' → value = ['=']) (rest : Spells flags tokens) :
      Spells (letters.map (fun letter => (longName letter, none)) ++ (longName letter, some value) :: flags)
        (('-' :: (letters ++ letter :: value)) :: tokens)
  | clusterEquals {letters : List Char} {letter : Char} {value : Text} {flags : List Flag} {tokens : List Text}
      (known : ∀ letter ∈ letters, isShort booleanFlags letter) (takes : isShort valueFlags letter)
      (some_ : value ≠ []) (rest : Spells flags tokens) :
      Spells (letters.map (fun letter => (longName letter, none)) ++ (longName letter, some value) :: flags)
        (('-' :: (letters ++ letter :: '=' :: value)) :: tokens)

/-! ## What docker knows -/

theorem known_shape : ∀ flag ∈ dockerRunFlags, '=' ∉ flag ∧ 2 < flag.length := by decide +kernel

theorem aliases_plain : ∀ entry ∈ longAliases, '=' ∉ entry.1 := by decide +kernel

theorem names_apart : ∀ name ∈ booleanNames, name ∉ valueNames := by decide +kernel

theorem kinds_apart : ∀ flag ∈ booleanFlags, flag ∉ valueFlags := by
  intro flag boolean value
  obtain ⟨name, listed, rfl⟩ := List.mem_map.mp boolean
  obtain ⟨other, held, same⟩ := List.mem_map.mp value
  rw [String.toList_inj.mp same] at held
  exact names_apart name listed held

theorem mem_of_lookup {Key Value : Type} [BEq Key] [LawfulBEq Key] {entries : List (Key × Value)} {key : Key} {value : Value}
    (found : entries.lookup key = some value) : (key, value) ∈ entries := by
  induction entries with
  | nil => cases found
  | cons entry rest ih =>
      obtain ⟨other, held⟩ := entry
      rw [List.lookup_cons] at found
      cases same : key == other with
      | true =>
          rw [same] at found
          rw [eq_of_beq same]
          cases found
          exact List.mem_cons_self
      | false =>
          rw [same] at found
          exact List.mem_cons_of_mem _ (ih found)

/-- No long flag that docker knows is written with an equals sign. -/
theorem written_plain {written : Text} (long : startsLong written = true) (known : canonicalFlag written ∈ dockerRunFlags) :
    '=' ∉ written := by
  rw [canonicalFlag, if_pos long] at known
  cases found : longAliases.lookup written with
  | none =>
      rw [found] at known
      exact (known_shape written known).1
  | some canonical => exact aliases_plain _ (mem_of_lookup found)

theorem splitOnce_plain {separator : Char} {text : Text} (plain : separator ∉ text) :
    splitOnce separator text = (text, none) := by
  induction text with
  | nil => rfl
  | cons char text ih =>
      obtain ⟨other, others⟩ := not_or.mp (mt List.mem_cons.mpr plain)
      rw [splitOnce, if_neg (Ne.symm other), ih others]

theorem splitOnce_append {separator : Char} {text : Text} (plain : separator ∉ text) (value : Text) :
    splitOnce separator (text ++ separator :: value) = (text, some value) := by
  induction text with
  | nil => rw [List.nil_append, splitOnce, if_pos rfl]
  | cons char text ih =>
      obtain ⟨other, others⟩ := not_or.mp (mt List.mem_cons.mpr plain)
      rw [List.cons_append, splitOnce, if_neg (Ne.symm other), ih others]

/-- No letter of a flag is a dash or an equals sign. -/
theorem short_letter {letter : Char} (known : canonicalFlag ['-', letter] ∈ dockerRunFlags) : letter ≠ '-' ∧ letter ≠ '=' := by
  have short : canonicalFlag ['-', '-'] = ['-', '-'] ∧ canonicalFlag ['-', '='] = ['-', '='] := by decide +kernel
  have longer := (known_shape _ known).2
  constructor
  · intro same
    rw [same, short.1] at longer
    exact absurd longer (by decide)
  · intro same
    rw [same, short.2] at longer
    exact absurd longer (by decide)

theorem short_boolean {letter : Char} (known : isShort booleanFlags letter) : takesValue ['-', letter] = false :=
  decide_eq_false (kinds_apart _ known)

theorem short_value {letter : Char} (known : isShort valueFlags letter) : takesValue ['-', letter] = true :=
  decide_eq_true known

/-! ## Short tokens -/

/-- A switch is one flag of a cluster, whatever comes behind it. -/
theorem readLetters_switch {letter : Char} {rest : Text} {next : Option Text} (known : isShort booleanFlags letter)
    (plain : rest.head? ≠ some '=') :
    readLetters next (letter :: rest) =
      (⟨['-', letter], none⟩ :: (readLetters next rest).1, (readLetters next rest).2) := by
  conv_lhs => unfold readLetters
  split
  next => exact absurd rfl plain
  next => rw [if_neg (by rw [short_boolean known]; decide)]

theorem readLetters_switches {letters : Text} (known : ∀ letter ∈ letters, isShort booleanFlags letter) {rest : Text}
    (next : Option Text) (plain : rest.head? ≠ some '=') :
    readLetters next (letters ++ rest) =
      (letters.map (fun letter => ⟨['-', letter], none⟩) ++ (readLetters next rest).1, (readLetters next rest).2) := by
  induction letters with
  | nil => rfl
  | cons letter letters ih =>
      have others : ∀ other ∈ letters, isShort booleanFlags other := fun other member =>
        known other (List.mem_cons_of_mem _ member)
      have following : (letters ++ rest).head? ≠ some '=' := by
        cases letters with
        | nil => exact plain
        | cons other letters =>
            have letter_ := (short_letter (List.mem_append_left _ (others other List.mem_cons_self))).2
            simpa using letter_
      rw [List.cons_append, readLetters_switch (known letter List.mem_cons_self) following, ih others]
      rfl

theorem readLetters_apart {letter : Char} {next : Option Text} (takes : isShort valueFlags letter) :
    readLetters next [letter] = ([⟨['-', letter], next⟩], true) := by
  unfold readLetters
  simp [short_value takes]

theorem readLetters_attached {letter : Char} {value : Text} {next : Option Text} (takes : isShort valueFlags letter)
    (some_ : value ≠ []) (plain : value.head? = some '=' → value = ['=']) :
    readLetters next (letter :: value) = ([⟨['-', letter], some value⟩], false) := by
  unfold readLetters
  split
  next first others => exact absurd (plain rfl) (by simp)
  next => rw [if_pos (short_value takes), if_neg some_]

theorem readLetters_equals {letter : Char} {value : Text} {next : Option Text} (some_ : value ≠ []) :
    readLetters next (letter :: '=' :: value) = ([⟨['-', letter], some value⟩], false) := by
  cases value with
  | nil => exact absurd rfl some_
  | cons => rfl

/-! ## The tokens of a command -/

section

variable {index : Nat} {soFar : List ParsedFlag} {guessed : Option Nat} {tokens rest : List Text} {token : Text}

theorem readFrom_skip : readFrom [] true index soFar guessed (token :: rest) =
    readFrom [] false (index + 1) soFar guessed rest := rfl

theorem readFrom_image (named : token.head? ≠ some '-') :
    readFrom [] false index soFar guessed (token :: rest) =
      { parsed := { flags := soFar, image := some token, args := rest }, guessed := none } := by
  rw [readFrom, if_neg Bool.false_ne_true, if_pos named]

/-- A token that is no guess -/
theorem readFrom_token {read : TokenRead} (dash : token.head? = some '-') (same : readToken [] index rest.head? token = read)
    (sure : read.guess = false) :
    readFrom [] false index soFar guessed (token :: rest) =
      readFrom [] read.consumedValue (index + 1) (soFar ++ read.flags) guessed rest := by
  rw [readFrom, if_neg Bool.false_ne_true, if_neg (not_not.mpr dash)]
  simp only [same, sure, Bool.false_eq_true, if_false]

theorem readFrom_switch {written : Text} (long : startsLong written = true) (known : canonicalFlag written ∈ booleanFlags) :
    readFrom [] false index soFar guessed (written :: rest) =
      readFrom [] false (index + 1) (soFar ++ [⟨written, none⟩]) guessed rest := by
  have listed : canonicalFlag written ∈ dockerRunFlags := List.mem_append_left _ known
  have quiet : longFlagTakesValue written rest.head? = false := by
    rw [longFlagTakesValue, if_pos listed]
    exact decide_eq_false (kinds_apart _ known)
  have read : readToken [] index rest.head? written = { flags := [⟨written, none⟩] } := by
    rw [readToken, if_pos long, splitOnce_plain (written_plain long listed)]
    simp only [quiet, Bool.false_eq_true, and_false, if_false]
  exact readFrom_token (head_of_startsLong long) read rfl

theorem readFrom_apart {written value : Text} (long : startsLong written = true)
    (known : canonicalFlag written ∈ valueFlags) :
    readFrom [] false index soFar guessed (written :: value :: rest) =
      readFrom [] false (index + 2) (soFar ++ [⟨written, some value⟩]) guessed rest := by
  have listed : canonicalFlag written ∈ dockerRunFlags := List.mem_append_right _ known
  have takes : longFlagTakesValue written (some value) = true := by
    rw [longFlagTakesValue, if_pos listed]
    exact decide_eq_true known
  have read : readToken [] index (value :: rest).head? written =
      { flags := [⟨written, some value⟩], consumedValue := true } := by
    rw [readToken, if_pos long, splitOnce_plain (written_plain long listed)]
    simp [takes, listed]
  rw [readFrom_token (head_of_startsLong long) read rfl]
  exact readFrom_skip

theorem readFrom_equals {written value : Text} (long : startsLong written = true)
    (known : canonicalFlag written ∈ valueFlags) :
    readFrom [] false index soFar guessed ((written ++ '=' :: value) :: rest) =
      readFrom [] false (index + 1) (soFar ++ [⟨written, some value⟩]) guessed rest := by
  have listed : canonicalFlag written ∈ dockerRunFlags := List.mem_append_right _ known
  have long_ := startsLong_append long ('=' :: value)
  have read : readToken [] index rest.head? (written ++ '=' :: value) = { flags := [⟨written, some value⟩] } := by
    rw [readToken, if_pos long_, splitOnce_append (written_plain long listed)]
  exact readFrom_token (head_of_startsLong long_) read rfl

theorem not_startsLong {letters : Text} (short : letters.head? ≠ some '-') : startsLong ('-' :: letters) = false := by
  cases letters with
  | nil => rfl
  | cons letter letters =>
      have other : letter ≠ '-' := fun same => short (congrArg some same)
      unfold startsLong
      split
      next same =>
        cases same
        exact absurd rfl other
      next => rfl

theorem readFrom_letters {letters : Text} (short : letters.head? ≠ some '-') :
    readFrom [] false index soFar guessed (('-' :: letters) :: rest) =
      readFrom [] (readLetters rest.head? letters).2 (index + 1) (soFar ++ (readLetters rest.head? letters).1) guessed rest := by
  have read : readToken [] index rest.head? ('-' :: letters) =
      { flags := (readLetters rest.head? letters).1, consumedValue := (readLetters rest.head? letters).2 } := by
    rw [readToken, if_neg (by rw [not_startsLong short]; exact Bool.false_ne_true)]
    rfl
  exact readFrom_token rfl read rfl

theorem head_letters {letters : List Char} {after : Text} (known : ∀ letter ∈ letters, isShort booleanFlags letter)
    (behind : after.head? ≠ some '-') : (letters ++ after).head? ≠ some '-' := by
  cases letters with
  | nil => exact behind
  | cons letter letters =>
      have other := (short_letter (List.mem_append_left _ (known letter List.mem_cons_self))).1
      simpa using other

theorem head_letter {letter : Char} {after : Text} (takes : isShort valueFlags letter) :
    (letter :: after).head? ≠ some '-' ∧ (letter :: after).head? ≠ some '=' := by
  obtain ⟨dash, equals⟩ := short_letter (List.mem_append_right _ takes)
  exact ⟨by simpa using dash, by simpa using equals⟩

def short (letter : Char) : ParsedFlag := ⟨['-', letter], none⟩

/-- Reading the spelling of some flags gives these flags. -/
theorem readFrom_spelled {flags : List Flag} (spelled : Spells flags tokens) (index : Nat) (soFar : List ParsedFlag)
    (guessed : Option Nat) (rest : List Text) :
    ∃ read, read.map ParsedFlag.canonical = flags ∧
      readFrom [] false index soFar guessed (tokens ++ rest) =
        readFrom [] false (index + tokens.length) (soFar ++ read) guessed rest := by
  induction spelled generalizing index soFar with
  | nil => exact ⟨[], rfl, by rw [List.append_nil]; rfl⟩
  | @switch written flags tokens long known spelled ih =>
      obtain ⟨read, same, reads⟩ := ih (index + 1) (soFar ++ [⟨written, none⟩])
      refine ⟨⟨written, none⟩ :: read, by rw [List.map_cons, same]; rfl, ?_⟩
      rw [List.cons_append, readFrom_switch long known, reads, List.append_assoc, List.length_cons, Nat.add_assoc,
        Nat.add_comm 1]
      rfl
  | @apart written value flags tokens long known spelled ih =>
      obtain ⟨read, same, reads⟩ := ih (index + 2) (soFar ++ [⟨written, some value⟩])
      refine ⟨⟨written, some value⟩ :: read, by rw [List.map_cons, same]; rfl, ?_⟩
      rw [List.cons_append, List.cons_append, readFrom_apart long known, reads, List.append_assoc, List.length_cons,
        List.length_cons, Nat.add_assoc, Nat.add_comm 2]
      rfl
  | @equals written value flags tokens long known spelled ih =>
      obtain ⟨read, same, reads⟩ := ih (index + 1) (soFar ++ [⟨written, some value⟩])
      refine ⟨⟨written, some value⟩ :: read, by rw [List.map_cons, same]; rfl, ?_⟩
      rw [List.cons_append, readFrom_equals long known, reads, List.append_assoc, List.length_cons, Nat.add_assoc,
        Nat.add_comm 1]
      rfl
  | @cluster letters flags tokens some_ known spelled ih =>
      obtain ⟨read, same, reads⟩ := ih (index + 1) (soFar ++ letters.map short)
      refine ⟨letters.map short ++ read, by rw [List.map_append, same, List.map_map]; rfl, ?_⟩
      have own : readLetters (tokens ++ rest).head? (letters ++ []) = _ := readLetters_switches known _ (by simp)
      have head : (letters ++ []).head? ≠ some '-' := head_letters known (by simp)
      rw [List.append_nil] at own head
      rw [List.cons_append, readFrom_letters head, own]
      have parts : letters.map (fun letter => (⟨['-', letter], none⟩ : ParsedFlag)) ++
          (readLetters (tokens ++ rest).head? []).1 = letters.map short := List.append_nil _
      rw [parts]
      refine reads.trans ?_
      rw [List.append_assoc, List.length_cons, Nat.add_assoc, Nat.add_comm 1]
  | @clusterApart letters letter value flags tokens known takes spelled ih =>
      obtain ⟨read, same, reads⟩ := ih (index + 2) (soFar ++ (letters.map short ++ [⟨['-', letter], some value⟩]))
      refine ⟨letters.map short ++ ⟨['-', letter], some value⟩ :: read, by
        rw [List.map_append, List.map_cons, same, List.map_map]; rfl, ?_⟩
      have own : readLetters (value :: tokens ++ rest).head? (letters ++ [letter]) = _ :=
        readLetters_switches known _ (head_letter takes).2
      rw [readLetters_apart takes] at own
      rw [List.cons_append, readFrom_letters (head_letters known (head_letter takes).1), own, List.cons_append, readFrom_skip]
      refine reads.trans ?_
      rw [List.length_cons, List.length_cons, Nat.add_assoc, Nat.add_comm 2, List.append_assoc, List.append_assoc]
      rfl
  | @clusterAttached letters letter value flags tokens known takes some_ plain spelled ih =>
      obtain ⟨read, same, reads⟩ := ih (index + 1) (soFar ++ (letters.map short ++ [⟨['-', letter], some value⟩]))
      refine ⟨letters.map short ++ ⟨['-', letter], some value⟩ :: read, by
        rw [List.map_append, List.map_cons, same, List.map_map]; rfl, ?_⟩
      have own : readLetters (tokens ++ rest).head? (letters ++ letter :: value) = _ :=
        readLetters_switches known _ (head_letter takes).2
      rw [readLetters_attached takes some_ plain] at own
      rw [List.cons_append, readFrom_letters (head_letters known (head_letter takes).1), own]
      refine reads.trans ?_
      rw [List.length_cons, Nat.add_assoc, Nat.add_comm 1, List.append_assoc, List.append_assoc]
      rfl
  | @clusterEquals letters letter value flags tokens known takes some_ spelled ih =>
      obtain ⟨read, same, reads⟩ := ih (index + 1) (soFar ++ (letters.map short ++ [⟨['-', letter], some value⟩]))
      refine ⟨letters.map short ++ ⟨['-', letter], some value⟩ :: read, by
        rw [List.map_append, List.map_cons, same, List.map_map]; rfl, ?_⟩
      have own : readLetters (tokens ++ rest).head? (letters ++ letter :: '=' :: value) = _ :=
        readLetters_switches known _ (head_letter takes).2
      rw [readLetters_equals some_] at own
      rw [List.cons_append, readFrom_letters (head_letters known (head_letter takes).1), own]
      refine reads.trans ?_
      rw [List.length_cons, Nat.add_assoc, Nat.add_comm 1, List.append_assoc, List.append_assoc]
      rfl

end

/-! ## The whole command -/

def docker : Text := "docker".toList

theorem readTokens_spelled {flags : List Flag} {tokens : List Text} (spelled : Spells flags tokens) {image : Text}
    (named : image.head? ≠ some '-') (args : List Text) :
    ∃ read, read.map ParsedFlag.canonical = flags ∧
      readTokens (docker :: run :: tokens ++ image :: args) [] =
        { parsed := { flags := read, image := some image, args }, guessed := none } := by
  obtain ⟨read, same, reads⟩ := readFrom_spelled spelled 2 [] none (image :: args)
  refine ⟨read, same, ?_⟩
  have start : readTokens (docker :: run :: tokens ++ image :: args) [] =
      readFrom [] false 2 [] none (tokens ++ image :: args) := rfl
  rw [start, reads, readFrom_image named]
  rfl

/-- A command that docker would read back is read back: whatever quotes, white space and spellings it is
written with. -/
theorem parse_render {flags : List Flag} {tokens : List Text} {image : Text} {args : List Text} {lead : Gap} {line : Line}
    (spelled : Spells flags tokens) (named : image.head? ≠ some '-') (blanks : lead.WellFormed) (words : line.WellFormed)
    (same : line.values = docker :: run :: tokens ++ image :: args) :
    (parseDockerRun (lead.written ++ line.written)).flags.map ParsedFlag.canonical = flags ∧
      (parseDockerRun (lead.written ++ line.written)).image = some image ∧
      (parseDockerRun (lead.written ++ line.written)).args = args := by
  have tokenised : tokeniseCommand (lead.written ++ line.written) = docker :: run :: tokens ++ image :: args := by
    rw [tokeniseCommand, tokeniseFrom_lead blanks, tokeniseFrom_line words, same]
  obtain ⟨read, flags_, reads⟩ := readTokens_spelled spelled named args
  have parsed : parseDockerRun (lead.written ++ line.written) = { flags := read, image := some image, args } := by
    have first : lastSwitches (docker :: run :: tokens ++ image :: args) = [] := by
      rw [lastSwitches, lastReading]
      simp only [reads]
      rfl
    rw [parseDockerRun, tokenised]
    simp only [first, reads]
  rw [parsed]
  exact ⟨flags_, rfl, rfl⟩

/-- `docker run -it -e 'A=b c' nginx ''` -/
def sampleLine : Line :=
  let bare (text : String) : Word := [.bare text.toList]
  let gap : Gap := [.space ' ']
  [(bare "docker", gap), (bare "run", gap), (bare "-it", gap), (bare "-e", gap),
    ([.quoted '\x27' "A=b c".toList], gap), (bare "nginx", gap), ([.quoted '\x27' []], [])]

theorem parse_render_sample :
    sampleLine.WellFormed ∧ (parseDockerRun sampleLine.written).flags.map ParsedFlag.canonical =
      [("--interactive".toList, none), ("--tty".toList, none), ("--env".toList, some "A=b c".toList)] := by
  have words : sampleLine.WellFormed := by
    simp [sampleLine, Line.WellFormed, Word.WellFormed, Word.value, Word.isQuoted, Word.endsOpen, Piece.WellFormed,
      Piece.value, Piece.isQuoted, Piece.endsOpen, Gap.WellFormed, Gap.separates, Blank.WellFormed, Blank.isWhite,
      Blank.isLineEnd, isQuote, isLineEnd]
    decide
  have interactive : isShort booleanFlags 'i' := by
    have long : canonicalFlag ['-', 'i'] = "--interactive".toList := by decide +kernel
    rw [isShort, long]
    exact List.mem_map_of_mem (by simp [booleanNames])
  have tty : isShort booleanFlags 't' := by
    have long : canonicalFlag ['-', 't'] = "--tty".toList := by decide +kernel
    rw [isShort, long]
    exact List.mem_map_of_mem (by simp [booleanNames])
  have cluster : ∀ letter ∈ ['i', 't'], isShort booleanFlags letter := by
    intro letter member
    simp only [List.mem_cons, List.not_mem_nil, or_false] at member
    obtain rfl | rfl := member
    · exact interactive
    · exact tty
  have takes : isShort valueFlags 'e' := by
    have long : canonicalFlag ['-', 'e'] = "--env".toList := by decide +kernel
    rw [isShort, long]
    exact List.mem_map_of_mem (by simp [valueNames])
  have spelled := Spells.cluster (by decide) cluster (@Spells.clusterApart [] 'e' "A=b c".toList _ _ (by simp) takes .nil)
  have read := @parse_render _ _ "nginx".toList [[]] [] sampleLine spelled (by decide) (by decide) words (by decide +kernel)
  exact ⟨words, read.1.trans (by decide +kernel)⟩

/-- `docker run -h= nginx`: docker, too, takes the equals sign for the value. -/
theorem empty_behind_equals :
    (parseDockerRun "docker run -h= nginx".toList).flags.map ParsedFlag.canonical =
      [("--hostname".toList, some "=".toList)] := by decide +kernel

end Dockge.DockerRun
