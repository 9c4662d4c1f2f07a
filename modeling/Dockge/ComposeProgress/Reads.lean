import Mathlib
import Dockge.ComposeProgress.Parse

namespace Dockge.ComposeProgress

open Data

/-! Which lines name a resource and say what becomes of it. -/

variable {Number : Type} {language : Language Number} {Value : Type}
  {table : List (Text × Value)} {word name text : Text} {words tokens rest : List Text} {marked : Option State}
  {task : ComposeTask Number}

/-! ## Durations -/

/-- Digits, or digits around a point -/
def Decimal (text : Text) : Prop :=
  ∃ whole, whole ≠ [] ∧ whole.all isDigit = true ∧
    (text = whole ∨ ∃ fraction, fraction ≠ [] ∧ fraction.all isDigit = true ∧ text = whole ++ 46 :: fraction)

def Duration (word text : Text) : Prop := Decimal text ∧ word = text ++ [115]

/-- Words with a duration behind them, or without one -/
inductive Timed (language : Language Number) : List Text → List Text → Option Number → Prop
  | after (words : List Text) (last text : Text) (duration : Duration last text) :
      Timed language (words ++ [last]) words (some (language.number text))
  | without (words : List Text) (none_ : ∀ last ∈ words.getLast?, ∀ text, ¬ Duration last text) :
      Timed language words words none

theorem takeWhile_append_of_all {digits : Text} (all : digits.all isDigit = true) (rest : Text)
    (stops : ∀ unit ∈ rest.head?, isDigit unit = false) :
    (digits ++ rest).takeWhile isDigit = digits ∧ (digits ++ rest).dropWhile isDigit = rest := by
  induction digits with
  | nil =>
      cases rest with
      | nil => exact ⟨rfl, rfl⟩
      | cons unit rest =>
          have other := stops unit rfl
          exact ⟨List.takeWhile_cons_of_neg (by rw [other]; decide), List.dropWhile_cons_of_neg (by rw [other]; decide)⟩
  | cons unit digits ih =>
      rw [List.all_cons, Bool.and_eq_true] at all
      obtain ⟨taken, dropped⟩ := ih all.2
      rw [List.cons_append, List.takeWhile_cons_of_pos all.1, List.dropWhile_cons_of_pos all.1, taken, dropped]
      exact ⟨rfl, rfl⟩

theorem all_takeWhile (text : Text) : (text.takeWhile isDigit).all isDigit = true :=
  List.all_eq_true.mpr fun _ member => List.mem_takeWhile_imp member

/-- A word is a duration exactly where the pattern finds its number. -/
theorem secondsOf_eq_some : secondsOf word = some text ↔ Duration word text := by
  constructor
  · intro found
    have parts := List.takeWhile_append_dropWhile (p := isDigit) (l := word)
    have digits := all_takeWhile word
    unfold secondsOf at found
    dsimp only at found
    split at found
    next => cases found
    next some_ =>
      generalize word.takeWhile isDigit = whole at found parts digits some_
      split at found
      next ends =>
        obtain rfl := Option.some.inj found
        rw [ends] at parts
        exact ⟨⟨whole, some_, digits, .inl rfl⟩, parts.symm⟩
      next rest ends =>
        have partsRest := List.takeWhile_append_dropWhile (p := isDigit) (l := rest)
        have digitsRest := all_takeWhile rest
        split at found
        next valid =>
          obtain ⟨someRest, endsRest⟩ := (Bool.and_eq_true _ _).mp valid
          obtain rfl := Option.some.inj found
          rw [beq_iff_eq] at endsRest
          rw [endsRest] at partsRest
          refine ⟨⟨whole, some_, digits, .inr ⟨_, bne_iff_ne.mp someRest, digitsRest, rfl⟩⟩, ?_⟩
          rw [List.append_assoc, List.cons_append, partsRest, ← ends, parts]
        next => cases found
      next => cases found
  · intro ⟨⟨whole, some_, digits, form⟩, same⟩
    subst same
    obtain rfl | ⟨fraction, someFraction, digitsFraction, rfl⟩ := form
    · obtain ⟨taken, dropped⟩ := takeWhile_append_of_all digits [115] (by intro unit member; cases member; rfl)
      unfold secondsOf
      rw [taken, dropped]
      exact if_neg some_
    · rw [List.append_assoc, List.cons_append]
      obtain ⟨taken, dropped⟩ := takeWhile_append_of_all digits (46 :: (fraction ++ [115]))
        (by intro unit member; cases member; rfl)
      obtain ⟨takenFraction, droppedFraction⟩ := takeWhile_append_of_all digitsFraction [115]
        (by intro unit member; cases member; rfl)
      cases fraction with
      | nil => exact absurd rfl someFraction
      | cons digit fraction =>
          unfold secondsOf
          rw [taken, dropped]
          dsimp only [List.cons_append] at takenFraction droppedFraction ⊢
          rw [if_neg some_]
          change (if ((digit :: (fraction ++ [115])).takeWhile isDigit != [] &&
              (digit :: (fraction ++ [115])).dropWhile isDigit == [115]) = true then
            some (whole ++ 46 :: (digit :: (fraction ++ [115])).takeWhile isDigit) else none) = _
          rw [takenFraction, droppedFraction]
          rfl

theorem secondsOf_eq_none : secondsOf word = none ↔ ∀ text, ¬ Duration word text := by
  rw [Option.eq_none_iff_forall_ne_some]
  exact forall_congr' fun text => not_congr secondsOf_eq_some

/-- What the last word says of the seconds, and the words before it -/
theorem timed_iff {before : List Text} {seconds : Option Number} :
    Timed language words before seconds ↔ readSeconds language words = (seconds, before) := by
  constructor
  · intro timed
    cases timed with
    | after before last text duration =>
        rw [readSeconds, List.getLast?_concat, Option.bind_some, secondsOf_eq_some.mpr duration]
        dsimp only
        rw [List.dropLast_concat]
    | without words none_ =>
        have missing : words.getLast?.bind secondsOf = none :=
          Option.bind_eq_none_iff.mpr fun last member => secondsOf_eq_none.mpr (none_ last member)
        rw [readSeconds, missing]
  · intro read
    unfold readSeconds at read
    cases found : words.getLast?.bind secondsOf with
    | none =>
        rw [found] at read
        obtain ⟨rfl, rfl⟩ := Prod.mk.inj read
        exact .without words fun last member => secondsOf_eq_none.mp (Option.bind_eq_none_iff.mp found last member)
    | some text =>
        rw [found] at read
        obtain ⟨rfl, rfl⟩ := Prod.mk.inj read
        obtain ⟨last, member, duration⟩ := Option.bind_eq_some_iff.mp found
        obtain ⟨front, rfl⟩ := List.getLast?_eq_some_iff.mp member
        rw [List.dropLast_concat]
        exact .after front last text (secondsOf_eq_some.mp duration)

/-! ## Lookups -/

theorem entry_named {entry : Text × Value} (found : (table.find? fun entry => entry.1 = word) = some entry) : entry.1 = word := by
  have named := List.find?_some found
  exact of_decide_eq_true named

theorem find_eq_some {value : Value} (distinct : (table.map Prod.fst).Nodup) :
    (table.find? fun entry => entry.1 = word) = some (word, value) ↔ (word, value) ∈ table := by
  induction table with
  | nil =>
      constructor
      · intro never
        cases never
      · intro never
        cases never
  | cons entry table ih =>
      rw [List.map_cons, List.nodup_cons] at distinct
      rw [List.find?_cons, List.mem_cons]
      by_cases here : entry.1 = word
      · rw [decide_eq_true here]
        dsimp only
        rw [Option.some.injEq]
        constructor
        · exact fun same => .inl same.symm
        · intro member
          obtain same | later := member
          · exact same.symm
          · exact absurd (List.mem_map_of_mem later) (here ▸ distinct.1)
      · rw [decide_eq_false here]
        dsimp only
        rw [ih distinct.2]
        constructor
        · exact .inr
        · intro member
          obtain same | later := member
          · exact absurd (congrArg Prod.fst same).symm here
          · exact later

theorem lookup_eq_own {value : Value} (distinct : (table.map Prod.fst).Nodup) :
    lookup table word = some (.own value) ↔ (word, value) ∈ table := by
  rw [← find_eq_some distinct, lookup]
  cases found : table.find? fun entry => entry.1 = word with
  | none =>
      dsimp only
      constructor
      · intro inherited
        split at inherited
        next => cases inherited
        next => cases inherited
      · intro never
        cases never
  | some entry =>
      have named := entry_named found
      dsimp only
      rw [Option.some.injEq, Option.some.injEq, Property.own.injEq]
      constructor
      · intro same
        rw [← named, ← same]
      · intro same
        rw [same]

theorem lookup_inherited {other : Text} (found : lookup table word = some (.inherited other)) :
    word ∈ inheritedWords := by
  unfold lookup at found
  split at found
  next => cases found
  next =>
    split at found
    next inherited => exact inherited
    next => cases found

theorem lookup_of_inherited (inherited : word ∈ inheritedWords) (absent : ∀ value, (word, value) ∉ table) :
    lookup table word = some (.inherited word) := by
  unfold lookup
  split
  next entry found =>
    have named := entry_named found
    exact absurd (named ▸ List.mem_of_find?_eq_some found) (absent entry.2)
  next => rw [if_pos inherited]

theorem lookup_eq_none : lookup table word = none ↔ (∀ value, (word, value) ∉ table) ∧ word ∉ inheritedWords := by
  unfold lookup
  split
  next entry found =>
    have named := entry_named found
    constructor
    · intro never
      cases never
    · intro ⟨absent, _⟩
      exact absurd (named ▸ List.mem_of_find?_eq_some found) (absent entry.2)
  next missing =>
    have absent : ∀ value, (word, value) ∉ table := fun value member =>
      List.find?_eq_none.mp missing (word, value) member (decide_eq_true rfl)
    split
    next inherited =>
      constructor
      · intro never
        cases never
      · intro ⟨_, other⟩
        exact absurd inherited other
    next other => exact ⟨fun _ => ⟨absent, other⟩, fun _ => rfl⟩

theorem kinds_distinct : (kinds.map Prod.fst).Nodup := by decide

theorem verbs_distinct : (verbs.map Prod.fst).Nodup := by decide +kernel

/-- No word of the tables is one that every object has. -/
theorem kinds_inherited : ∀ entry ∈ kinds, entry.1 ∉ inheritedWords := by decide

theorem verbs_inherited : ∀ entry ∈ verbs, entry.1 ∉ inheritedWords := by decide +kernel

/-! ## Lines -/

def Named (name : Text) : Prop := name ≠ [] ∧ isLayerId name = false

/-- The words after a name are a verb of the table, and perhaps a duration. -/
def Tells (language : Language Number) (words : List Text) (verb : Verb) (state : State) (seconds : Option Number) : Prop :=
  ∃ before, Timed language words before seconds ∧ (language.toLowerCase (joinSpaces before), verb, state) ∈ verbs

/-- The words of a line name a resource, by its kind or as an image that is pulled. -/
inductive ReadsTokens (language : Language Number) (marked : Option State) : List Text → ComposeTask Number → Prop
  | kind {word name : Text} {words : List Text} {kind : Kind} {verb : Verb} {state : State} {seconds : Option Number}
      (known : (language.toLowerCase word, kind) ∈ kinds) (named : Named name)
      (tells : Tells language words verb state seconds) :
      ReadsTokens language marked (word :: name :: words)
        { key := kind.text ++ utf16 ":" ++ name, kind := .own kind, name, verb := some verb
          state := some (marked.getD state), seconds }
  | image {name : Text} {words : List Text} {verb : Verb} {state : State} {seconds : Option Number}
      (unknown : ∀ kind, (language.toLowerCase name, kind) ∉ kinds) (named : Named name)
      (tells : Tells language words verb state seconds) (pulls : verb = .pulling ∨ verb = .pulled) :
      ReadsTokens language marked (name :: words)
        { key := Kind.image.text ++ utf16 ":" ++ name, kind := .own .image, name, verb := some verb
          state := some (marked.getD state), seconds }

def Reads (language : Language Number) (line : Text) (task : ComposeTask Number) : Prop :=
  ReadsTokens language (readMark language line).1 (splitSpaces (readMark language line).2) task

def Inherits (language : Language Number) (word : Text) : Prop := language.toLowerCase word ∈ inheritedWords

def InheritsVerb (language : Language Number) (words : List Text) : Prop :=
  Inherits language (joinSpaces (readSeconds language words).2)

/-- The words of a line are read by a word that every object has: for the kind, for the verb, or where an image is named. -/
inductive Trips (language : Language Number) : List Text → Prop
  | kind {word name : Text} {words : List Text} (inherits : Inherits language word) (named : Named name)
      (tells : InheritsVerb language words ∨ ∃ verb state seconds, Tells language words verb state seconds) :
      Trips language (word :: name :: words)
  | image {name : Text} {words : List Text} {verb : Verb} {state : State} {seconds : Option Number}
      (inherits : Inherits language name) (named : Named name) (tells : Tells language words verb state seconds)
      (pulls : verb = .pulling ∨ verb = .pulled) : Trips language (name :: words)
  | verb {word name : Text} {words : List Text} {kind : Kind} (known : (language.toLowerCase word, kind) ∈ kinds)
      (named : Named name) (inherits : InheritsVerb language words) : Trips language (word :: name :: words)

theorem tells_iff {verb : Verb} {state : State} {seconds : Option Number} :
    Tells language words verb state seconds ↔
      verbOf language (readSeconds language words).2 = some (.own (verb, state)) ∧
        (readSeconds language words).1 = seconds := by
  rw [verbOf, lookup_eq_own verbs_distinct]
  constructor
  · intro ⟨before, timed, known⟩
    rw [timed_iff.mp timed]
    exact ⟨known, rfl⟩
  · intro ⟨known, same⟩
    exact ⟨_, timed_iff.mpr (Prod.ext same rfl), known⟩

theorem verbOf_inherited (inherits : InheritsVerb language words) :
    ∃ word, verbOf language (readSeconds language words).2 = some (.inherited word) :=
  ⟨_, lookup_of_inherited inherits fun value member => verbs_inherited _ member inherits⟩

theorem verbOf_cases (words : List Text) :
    verbOf language (readSeconds language words).2 = none ∨ InheritsVerb language words ∨
      ∃ verb state, verbOf language (readSeconds language words).2 = some (.own (verb, state)) := by
  cases found : verbOf language (readSeconds language words).2 with
  | none => exact .inl rfl
  | some property =>
      cases property with
      | own value => exact .inr (.inr ⟨value.1, value.2, rfl⟩)
      | inherited word => exact .inr (.inl (lookup_inherited found))

theorem kind_lookup {kind : Kind} (known : (language.toLowerCase word, kind) ∈ kinds) :
    lookup kinds (language.toLowerCase word) = some (.own kind) := (lookup_eq_own kinds_distinct).mpr known

theorem inherited_lookup (inherits : Inherits language word) :
    lookup kinds (language.toLowerCase word) = some (.inherited (language.toLowerCase word)) :=
  lookup_of_inherited inherits fun value member => kinds_inherited _ member inherits

theorem kind_cases (language : Language Number) (word : Text) :
    Inherits language word ∨ (∃ kind, (language.toLowerCase word, kind) ∈ kinds) ∨
      lookup kinds (language.toLowerCase word) = none := by
  cases found : lookup kinds (language.toLowerCase word) with
  | none => exact .inr (.inr rfl)
  | some property =>
      cases property with
      | own kind => exact .inr (.inl ⟨kind, (lookup_eq_own kinds_distinct).mp found⟩)
      | inherited other => exact .inl (lookup_inherited found)

theorem tokens_some (text : Text) : splitSpaces text ≠ [] := by
  induction text with
  | nil => exact List.cons_ne_nil _ _
  | cons unit rest ih =>
      rw [splitSpaces]
      split
      next =>
        split
        next => exact ih
        next => exact List.cons_ne_nil _ _
      next =>
        cases splitSpaces rest with
        | nil => exact List.cons_ne_nil _ _
        | cons first others => exact List.cons_ne_nil _ _

theorem parseNamed_cons {kindWord : Option (Property Kind)} :
    parseNamed language marked kindWord (name :: words) = some task ↔
      Named name ∧ ∃ verb, verbOf language (readSeconds language words).2 = some verb ∧
        ∃ kind, (kindWord <|> impliedKind verb.verb) = some kind ∧
          task = { key := kind.text ++ utf16 ":" ++ name, kind, name, verb := verb.verb
                   state := marked <|> verb.state, seconds := (readSeconds language words).1 } := by
  rw [parseNamed]
  constructor
  · intro parsed
    split at parsed
    next => cases parsed
    next other =>
      rw [not_or, Bool.not_eq_true] at other
      split at parsed
      next => cases parsed
      next verb found =>
        split at parsed
        next => cases parsed
        next kind known => exact ⟨other, verb, found, kind, known, (Option.some.inj parsed).symm⟩
  · intro ⟨⟨some_, layer⟩, verb, found, kind, known, same⟩
    have other : ¬(name = [] ∨ isLayerId name = true) := by
      rw [not_or, Bool.not_eq_true]
      exact ⟨some_, layer⟩
    rw [if_neg other, found]
    dsimp only
    rw [known, same]

theorem impliedKind_pulls {verb : Verb} (pulls : verb = .pulling ∨ verb = .pulled) :
    impliedKind (some verb) = some (.own .image) := by
  obtain rfl | rfl := pulls <;> rfl

theorem pulls_of_implied {verb : Option Verb} {kind : Property Kind} (implied : impliedKind verb = some kind) :
    kind = .own .image ∧ (verb = some .pulling ∨ verb = some .pulled) := by
  unfold impliedKind at implied
  split at implied
  next pulls => exact ⟨(Option.some.inj implied).symm, pulls⟩
  next => cases implied

theorem marked_state (marked : Option State) (state : State) : (marked <|> some state) = some (marked.getD state) := by
  cases marked <;> rfl

theorem parseTokens_of_reads (plain : ¬ Trips language tokens) (reads : ReadsTokens language marked tokens task) :
    parseTokens language marked tokens = some task := by
  cases reads with
  | kind known named tells =>
      obtain ⟨verb, seconds⟩ := tells_iff.mp tells
      rw [parseTokens, List.headD_cons, kind_lookup known, List.tail_cons]
      refine parseNamed_cons.mpr ⟨named, _, verb, _, rfl, ?_⟩
      rw [seconds, Property.state, marked_state, Property.verb, Property.text]
  | @image name words verb_ state seconds_ unknown named tells pulls =>
      obtain ⟨verb, seconds⟩ := tells_iff.mp tells
      have missing : lookup kinds (language.toLowerCase name) = none := by
        obtain inherits | ⟨kind, known⟩ | missing := kind_cases language name
        · exact absurd (.image inherits named tells pulls) plain
        · exact absurd known (unknown kind)
        · exact missing
      rw [parseTokens, List.headD_cons, missing]
      refine parseNamed_cons.mpr ⟨named, _, verb, _, impliedKind_pulls pulls, ?_⟩
      rw [seconds, Property.state, marked_state, Property.verb, Property.text]

theorem reads_of_parseTokens (plain : ¬ Trips language tokens) (parsed : parseTokens language marked tokens = some task) :
    ReadsTokens language marked tokens task := by
  cases tokens with
  | nil =>
      unfold parseTokens at parsed
      split at parsed <;> cases parsed
  | cons word tokens =>
      rw [parseTokens, List.headD_cons, List.tail_cons] at parsed
      obtain inherits | ⟨kind, known⟩ | missing := kind_cases language word
      · rw [inherited_lookup inherits] at parsed
        cases tokens with
        | nil => cases parsed
        | cons name words =>
            obtain ⟨named, verb, found, -⟩ := parseNamed_cons.mp parsed
            refine absurd (.kind inherits named ?_) plain
            obtain none_ | inherited | ⟨verb_, state, own⟩ := @verbOf_cases _ language words
            · rw [none_] at found
              cases found
            · exact .inl inherited
            · exact .inr ⟨verb_, state, _, tells_iff.mpr ⟨own, rfl⟩⟩
      · rw [kind_lookup known] at parsed
        cases tokens with
        | nil => cases parsed
        | cons name words =>
            obtain ⟨named, verb, found, kind_, same, rfl⟩ := parseNamed_cons.mp parsed
            obtain rfl : Property.own kind = kind_ := Option.some.inj same
            obtain none_ | inherited | ⟨verb_, state, own⟩ := @verbOf_cases _ language words
            · rw [none_] at found
              cases found
            · exact absurd (.verb known named inherited) plain
            · obtain rfl : .own (verb_, state) = verb := Option.some.inj (own.symm.trans found)
              rw [Property.state, marked_state, Property.verb, Property.text]
              exact .kind known named (tells_iff.mpr ⟨own, rfl⟩)
      · rw [missing] at parsed
        obtain ⟨named, verb, found, kind, implied, rfl⟩ := parseNamed_cons.mp parsed
        have unknown := (lookup_eq_none.mp missing).1
        obtain ⟨rfl, pulls⟩ := pulls_of_implied implied
        cases verb with
        | inherited other => obtain never | never := pulls <;> cases never
        | own value =>
            obtain ⟨verb, state⟩ := value
            rw [Property.state, marked_state, Property.verb, Property.text]
            exact .image unknown named (tells_iff.mpr ⟨found, rfl⟩) (pulls.imp Option.some.inj Option.some.inj)

/-- A word that every object has makes a step of another kind or of no verb, or hides an image. -/
theorem misread_of_trips (trips : Trips language tokens) :
    ∃ task, ¬(parseTokens language marked tokens = some task ↔ ReadsTokens language marked tokens task) := by
  cases trips with
  | @kind word name words inherits named tells =>
      obtain ⟨verb, found⟩ : ∃ verb, verbOf language (readSeconds language words).2 = some verb := by
        obtain inherited | ⟨verb, state, seconds, tells⟩ := tells
        · exact ⟨_, (verbOf_inherited inherited).choose_spec⟩
        · exact ⟨_, (tells_iff.mp tells).1⟩
      obtain ⟨task, parsed, shown⟩ : ∃ task,
          parseNamed language marked (some (.inherited (language.toLowerCase word))) (name :: words) = some task ∧
            task.kind = .inherited (language.toLowerCase word) :=
        ⟨_, parseNamed_cons.mpr ⟨named, verb, found, _, rfl, rfl⟩, rfl⟩
      refine ⟨task, fun same => ?_⟩
      rw [parseTokens, List.headD_cons, inherited_lookup inherits, List.tail_cons] at same
      cases same.mp parsed <;> cases shown
  | @image name words verb state seconds inherits named tells pulls =>
      have unknown : ∀ kind, (language.toLowerCase name, kind) ∉ kinds := fun kind member => kinds_inherited _ member inherits
      obtain ⟨task, reads, shown⟩ : ∃ task, ReadsTokens language marked (name :: words) task ∧ task.kind = .own .image :=
        ⟨_, .image unknown named tells pulls, rfl⟩
      refine ⟨task, fun same => ?_⟩
      have parsed := same.mpr reads
      rw [parseTokens, List.headD_cons, inherited_lookup inherits, List.tail_cons] at parsed
      cases words with
      | nil => cases parsed
      | cons name words =>
          obtain ⟨_, _, _, kind, known, equal⟩ := parseNamed_cons.mp parsed
          rw [equal, ← Option.some.inj known] at shown
          cases shown
  | @verb word name words kind known named inherits =>
      obtain ⟨other, found⟩ := verbOf_inherited inherits
      obtain ⟨task, parsed, shown⟩ : ∃ task,
          parseNamed language marked (some (.own kind)) (name :: words) = some task ∧ task.verb = none :=
        ⟨_, parseNamed_cons.mpr ⟨named, _, found, _, rfl, rfl⟩, rfl⟩
      refine ⟨task, fun same => ?_⟩
      rw [parseTokens, List.headD_cons, kind_lookup known, List.tail_cons] at same
      cases same.mp parsed <;> cases shown

end Dockge.ComposeProgress
