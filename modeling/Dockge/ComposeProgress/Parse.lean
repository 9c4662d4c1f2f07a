import Mathlib
import Dockge.Data.KeyedList
import Dockge.Data.OrderedMap
import Dockge.Data.Utf16

namespace Dockge.ComposeProgress

open Data

/-! The output of `docker compose`, read into steps.

A text is its code units. -/

abbrev Text := List Nat

/-- What the string methods know of letters and numbers -/
structure Language (Number : Type) where
  toLowerCase : Text → Text
  /-- `\p{L}` or `\p{N}`, of a code point -/
  isWord : Nat → Bool
  number : Text → Number
  lower_some : ∀ text, toLowerCase text = [] → text = []

inductive State where
  | working
  | done
  | failed
deriving DecidableEq

inductive Kind where
  | container
  | network
  | volume
  | image
deriving DecidableEq

inductive Verb where
  | creating
  | created
  | starting
  | started
  | stopping
  | stopped
  | removing
  | removed
  | pulling
  | pulled
  | building
  | built
  | waiting
  | healthy
  | running
  | exists_
  | skipped
  | error
deriving DecidableEq

def verbWords : List (String × Verb × State) :=
  [("creating", .creating, .working), ("created", .created, .done), ("recreating", .creating, .working),
    ("recreated", .created, .done), ("starting", .starting, .working), ("started", .started, .done),
    ("restarting", .starting, .working), ("stopping", .stopping, .working), ("stopped", .stopped, .done),
    ("removing", .removing, .working), ("removed", .removed, .done), ("pulling", .pulling, .working),
    ("pulled", .pulled, .done), ("building", .building, .working), ("built", .built, .done),
    ("waiting", .waiting, .working), ("healthy", .healthy, .done), ("running", .running, .done),
    ("exists", .exists_, .done), ("skipped", .skipped, .done), ("error", .error, .failed), ("failed", .error, .failed)]

def kindWords : List (String × Kind) :=
  [("container", .container), ("network", .network), ("volume", .volume), ("image", .image)]

def verbs : List (Text × Verb × State) := verbWords.map fun entry => (utf16 entry.1, entry.2)

def kinds : List (Text × Kind) := kindWords.map fun entry => (utf16 entry.1, entry.2)

/-! ## Words looked up in an object -/

/-- What an object literal has under a word: a property of its own, or one that every object inherits -/
inductive Property (Value : Type) where
  | own (value : Value)
  | inherited (word : Text)
deriving DecidableEq

/-- The inherited properties whose names are in lower case -/
def inheritedWords : List Text := [utf16 "constructor", utf16 "__proto__"]

def lookup {Value : Type} (table : List (Text × Value)) (word : Text) : Option (Property Value) :=
  match table.find? fun entry => entry.1 = word with
  | some entry => some (.own entry.2)
  | none => if word ∈ inheritedWords then some (.inherited word) else none

def Kind.text : Kind → Text
  | .container => utf16 "container"
  | .network => utf16 "network"
  | .volume => utf16 "volume"
  | .image => utf16 "image"

/-- What a template string makes of it -/
def Property.text : Property Kind → Text
  | .own kind => kind.text
  | .inherited word =>
      if word = utf16 "constructor" then utf16 "function Object() \x7b [native code] \x7d" else utf16 "[object Object]"

/-! ## Texts -/

def isSpace (unit : Nat) : Bool :=
  unit ∈ [9, 10, 11, 12, 13, 32, 160, 5760, 8232, 8233, 8239, 8287, 12288, 65279] || (8192 ≤ unit && unit ≤ 8202)

def isDigit (unit : Nat) : Bool := 48 ≤ unit && unit ≤ 57

def isLetter (unit : Nat) : Bool := 65 ≤ unit && unit ≤ 90 || 97 ≤ unit && unit ≤ 122

def trim (text : Text) : Text := ((text.dropWhile isSpace).reverse.dropWhile isSpace).reverse

/-- What follows the control sequence a text begins with -/
def afterEscape : Text → Option Text
  | 27 :: 91 :: rest =>
      let parameters := rest.dropWhile fun unit => isDigit unit || unit == 59 || unit == 63
      match parameters.dropWhile fun unit => 32 ≤ unit && unit ≤ 47 with
      | [] => none
      | last :: after => if 64 ≤ last ∧ last ≤ 126 then some after else none
  | 27 :: 93 :: rest =>
      match rest.dropWhile fun unit => unit != 7 && unit != 27 with
      | 7 :: after => some after
      | 27 :: 92 :: after => some after
      | _ => none
  | _ => none

def stripTurns : Nat → Text → Text
  | 0, text => text
  | _, [] => []
  | turns + 1, unit :: rest =>
      match afterEscape (unit :: rest) with
      | some after => stripTurns turns after
      | none => unit :: stripTurns turns rest

/-- `output.replace(ANSI, "")`; every turn takes a unit at least. -/
def stripAnsi (output : Text) : Text := stripTurns output.length output

def putFront (unit : Nat) : List Text → List Text
  | [] => [[unit]]
  | first :: others => (unit :: first) :: others

/-- `split(/\r?\n/)` -/
def splitLines : Text → List Text
  | [] => [[]]
  | 13 :: 10 :: rest => [] :: splitLines rest
  | 10 :: rest => [] :: splitLines rest
  | unit :: rest => putFront unit (splitLines rest)

/-- `split(/\s+/)` -/
def splitSpaces : Text → List Text
  | [] => [[]]
  | unit :: rest =>
      if isSpace unit then
        if rest.head?.any isSpace then splitSpaces rest else [] :: splitSpaces rest
      else putFront unit (splitSpaces rest)

/-- The word and the two numbers of a headline -/
def headline : Text → Option (Text × Text × Text)
  | 91 :: 43 :: 93 :: rest =>
      let words := rest.dropWhile isSpace
      let phase := words.takeWhile isLetter
      let gap := words.dropWhile isLetter
      let counter := gap.dropWhile isSpace
      let done := counter.takeWhile isDigit
      match counter.dropWhile isDigit with
      | 47 :: others =>
          let total := others.takeWhile isDigit
          if rest.head?.any isSpace && phase != [] && gap.head?.any isSpace && done != [] && total != [] then
            some (phase, done, total)
          else none
      | _ => none
  | _ => none

def isLayerId (name : Text) : Bool :=
  10 ≤ name.length && name.length ≤ 64 && name.all fun unit => isDigit unit || (97 ≤ unit && unit ≤ 102)

/-- The number of a duration such as `1.2s` -/
def secondsOf (word : Text) : Option Text :=
  let whole := word.takeWhile isDigit
  if whole = [] then none
  else
    match word.dropWhile isDigit with
    | [115] => some whole
    | 46 :: rest =>
        let fraction := rest.takeWhile isDigit
        if fraction != [] && rest.dropWhile isDigit == [115] then some (whole ++ 46 :: fraction) else none
    | _ => none

def doneMarks : Text := utf16 "✔✓"

def failedMarks : Text := utf16 "✘✗"

def workingMarks : Text := utf16 "⠋⠙⠹⠸⠼⠴⠦⠧⠇⠏⠿⣾⣽⣻⢿⡿⣟⣯⣷-"

/-- The code point a text begins with, and what follows it -/
def codePoint : Text → Option (Nat × Text)
  | [] => none
  | [unit] => some (unit, [])
  | high :: low :: rest =>
      if 0xD800 ≤ high ∧ high ≤ 0xDBFF ∧ 0xDC00 ≤ low ∧ low ≤ 0xDFFF then
        some (0x10000 + (high - 0xD800) * 0x400 + (low - 0xDC00), rest)
      else some (high, low :: rest)

variable {Number : Type} (language : Language Number)

/-- `UNKNOWN_MARK.test(rest)` -/
def unknownMark (text : Text) : Bool :=
  match codePoint text with
  | some (point, space :: _) => !language.isWord point && !isSpace point && isSpace space
  | _ => false

/-! ## Steps -/

/-- Where a word was found that every object has, the kind is what was found, and the verb and the state are undefined. -/
structure ComposeTask (Number : Type) where
  key : Text
  kind : Property Kind
  name : Text
  verb : Option Verb
  state : Option State
  seconds : Option Number
deriving DecidableEq

/-- The state a mark stands for, and the line without its mark -/
def readMark (line : Text) : Option State × Text :=
  match line with
  | [] => (some .done, [])
  | mark :: rest =>
      if mark ∈ doneMarks then (some .done, trim rest)
      else if mark ∈ failedMarks then (some .failed, trim rest)
      else if mark ∈ workingMarks ∨ unknownMark language line = true then (none, trim rest)
      else (none, line)

/-- The seconds at the end of the words, and the words before them -/
def readSeconds (words : List Text) : Option Number × List Text :=
  match words.getLast?.bind secondsOf with
  | some text => (some (language.number text), words.dropLast)
  | none => (none, words)

def joinSpaces (words : List Text) : Text := [32].intercalate words

/-- `VERBS[tokens.join(" ").toLowerCase()]` -/
def verbOf (words : List Text) : Option (Property (Verb × State)) :=
  lookup verbs (language.toLowerCase (joinSpaces words))

def Property.verb : Property (Verb × State) → Option Verb
  | .own (verb, _) => some verb
  | .inherited _ => none

def Property.state : Property (Verb × State) → Option State
  | .own (_, state) => some state
  | .inherited _ => none

/-- The kind of a line without a word for it -/
def impliedKind (verb : Option Verb) : Option (Property Kind) :=
  if verb = some .pulling ∨ verb = some .pulled then some (.own .image) else none

def parseNamed (marked : Option State) (kindWord : Option (Property Kind)) (tokens : List Text) :
    Option (ComposeTask Number) :=
  match tokens with
  | [] => none
  | name :: words =>
      if name = [] ∨ isLayerId name = true then none
      else
        match verbOf language (readSeconds language words).2 with
        | none => none
        | some verb =>
            match kindWord <|> impliedKind verb.verb with
            | none => none
            | some kind =>
                some { key := kind.text ++ utf16 ":" ++ name, kind, name, verb := verb.verb
                       state := marked <|> verb.state, seconds := (readSeconds language words).1 }

def parseTokens (marked : Option State) (tokens : List Text) : Option (ComposeTask Number) :=
  match lookup kinds (language.toLowerCase (tokens.headD [])) with
  | some kindWord => parseNamed language marked (some kindWord) tokens.tail
  | none => parseNamed language marked none tokens

def parseTask (line : Text) : Option (ComposeTask Number) :=
  parseTokens language (readMark language line).1 (splitSpaces (readMark language line).2)

/-! ## The whole output -/

structure Scan (Number : Type) where
  phase : Text
  done : Number
  total : Number
  tasks : OrderedMap Text (ComposeTask Number)

structure ComposeProgress (Number : Type) where
  phase : Text
  done : Number
  total : Number
  tasks : List (ComposeTask Number)
  failed : Bool
deriving DecidableEq

def readLine (scan : Scan Number) (raw : Text) : Scan Number :=
  let line := trim raw
  if line = [] then scan
  else
    match headline line with
    | some (word, done, total) =>
        { scan with phase := language.toLowerCase word, done := language.number done, total := language.number total }
    | none =>
        match parseTask language line with
        | some task => { scan with tasks := scan.tasks.set task.key task }
        | none => scan

def Scan.progress (scan : Scan Number) : ComposeProgress Number :=
  let list := scan.tasks.entries.map Prod.snd
  { phase := scan.phase, done := scan.done, total := scan.total, tasks := list
    failed := list.any fun item => item.state == some .failed }

def parseComposeProgress [Zero Number] (output : Text) : ComposeProgress Number :=
  ((splitLines (stripAnsi output)).foldl (readLine language) ⟨[], 0, 0, .empty⟩).progress

end Dockge.ComposeProgress
