import Dockge.Data.Decimal
import Dockge.Updater.Operation
import Mathlib.Data.Prod.Lex
import Mathlib.Data.Sum.Order
import Mathlib.Order.WithBot

namespace Dockge.Updater

open Data

/-! The order of versions by which an update refuses a downgrade. -/

/-- `strings.Compare` -/
def stringsCompare (left right : List Char) : Int :=
  if left = right then 0 else if left < right then -1 else 1

/-- `strconv.ParseUint` with base ten and 64 bits -/
def parseUint (text : List Char) : Option Nat :=
  if text ≠ [] ∧ text.all isDigit ∧ decimalValue text < 2 ^ 64 then some (decimalValue text) else none

/-- What `versionPattern` captures; without a prerelease its text is empty. -/
structure Submatches where
  numbers : List (List Char)
  prerelease : List Char
deriving DecidableEq, Repr

/-- `versionPattern.FindStringSubmatch` -/
def findSubmatches (version : String) : Option Submatches :=
  if versionPattern version then
    some
      { numbers := (version.toList.takeWhile (· ≠ '-')).splitOnP (· = '.')
        prerelease := (version.toList.dropWhile (· ≠ '-')).drop 1 }
  else none

/-- The loop over the three numbers; none where all of them are the same. -/
def compareNumbers : List (List Char) → List (List Char) → Option Int
  | x :: xs, y :: ys =>
      if x.length ≠ y.length then some (if x.length < y.length then -1 else 1)
      else if stringsCompare x y ≠ 0 then some (stringsCompare x y)
      else compareNumbers xs ys
  | _, _ => none

/-- The loop over the identifiers of two prereleases, and the comparison of their counts behind it -/
def compareIdentifiers : List (List Char) → List (List Char) → Int
  | x :: xs, y :: ys =>
      if x = y then compareIdentifiers xs ys
      else
        match parseUint x, parseUint y with
        | some xi, some yi => if xi < yi then -1 else 1
        | some _, none => -1
        | none, some _ => 1
        | none, none => stringsCompare x y
  | [], _ :: _ => -1
  | _, [] => 1

def Submatches.identifiers (matched : Submatches) : List (List Char) := matched.prerelease.splitOn '.'

def compareSubmatches (aa bb : Submatches) : Int :=
  match compareNumbers aa.numbers bb.numbers with
  | some order => order
  | none =>
      if aa.prerelease = bb.prerelease then 0
      else if aa.prerelease = [] then 1
      else if bb.prerelease = [] then -1
      else compareIdentifiers aa.identifiers bb.identifiers

/-- An error is a panic. -/
def compareVersion (a b : String) : Except String Int :=
  match findSubmatches a, findSubmatches b with
  | some aa, some bb => .ok (compareSubmatches aa bb)
  | _, _ => .error "version must be validated before comparison"

/-- The guard of `execute` against a downgrade, and that against what runs being too old -/
def older (a b : String) : Bool :=
  match compareVersion a b with
  | .ok order => order < 0
  | .error _ => false

/-- The guard of the upgrade path of a release -/
def unsupportedUpgrade (release active minimum : String) : Bool := older release active || older active minimum

/-! ## Precedence -/

/-- An identifier of digits counts as its number, and comes before every other. -/
def identifier (text : List Char) : ℕ ⊕ₗ List Char :=
  if text ≠ [] ∧ text.all isDigit then toLex (.inl (decimalValue text)) else toLex (.inr text)

/-- The precedence of a version: its numbers, then its prerelease, where none comes last. -/
def Submatches.precedence (matched : Submatches) : List ℕ ×ₗ WithTop (List (ℕ ⊕ₗ List Char)) :=
  toLex (matched.numbers.map decimalValue,
    if matched.prerelease = [] then ⊤ else ↑(matched.identifiers.map identifier))

/-- Two versions of which neither precedes the other -/
def SamePrecedence (a b : String) : Prop :=
  (findSubmatches a).map Submatches.precedence = (findSubmatches b).map Submatches.precedence

/-- In the first place where they differ, both have the same number below `2 ^ 64`. -/
def sameNumber : List (List Char) → List (List Char) → Bool
  | x :: xs, y :: ys => if x = y then sameNumber xs ys else (parseUint x).isSome && parseUint x = parseUint y
  | _, _ => false

/-- Two versions with the same three numbers whose prereleases first differ in the zeros before a number -/
def respelled (a b : String) : Bool :=
  match findSubmatches a, findSubmatches b with
  | some aa, some bb => aa.numbers = bb.numbers && sameNumber aa.identifiers bb.identifiers
  | _, _ => false

end Dockge.Updater
