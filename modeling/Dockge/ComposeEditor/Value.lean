import Mathlib.Data.List.Forall2
import Mathlib.Data.Option.Basic

namespace Dockge.ComposeEditor

/-! Values as the editor and the YAML library hand them over. -/

inductive Number where
  | rational (value : Rat)
  | infinity
  | negInfinity
  | nan
deriving DecidableEq, Repr

def Number.isFinite : Number → Bool
  | .rational _ => true
  | _ => false

inductive Scalar where
  | null
  | bool (value : Bool)
  | num (value : Number)
  | str (value : String)
deriving DecidableEq, Repr

/-- A plain value: what `toJS` makes of a document, and what the screens hold. -/
inductive Value where
  | scalar (value : Scalar)
  | arr (items : List Value)
  | obj (fields : List (String × Value))
deriving Repr

abbrev Fields := List (String × Value)

namespace Value

mutual

def decEq : (left right : Value) → Decidable (left = right)
  | .scalar left, .scalar right => decidable_of_iff (left = right) (by simp)
  | .arr left, .arr right =>
      have := decEqItems left right
      decidable_of_iff (left = right) (by simp)
  | .obj left, .obj right =>
      have := decEqFields left right
      decidable_of_iff (left = right) (by simp)
  | .scalar _, .arr _ | .scalar _, .obj _ | .arr _, .scalar _ | .arr _, .obj _ | .obj _, .scalar _ | .obj _, .arr _ =>
      isFalse (by simp)

def decEqItems : (left right : List Value) → Decidable (left = right)
  | [], [] => isTrue rfl
  | [], _ :: _ | _ :: _, [] => isFalse (by simp)
  | left :: lefts, right :: rights =>
      have := decEq left right
      have := decEqItems lefts rights
      decidable_of_iff (left = right ∧ lefts = rights) (by simp)

def decEqFields : (left right : List (String × Value)) → Decidable (left = right)
  | [], [] => isTrue rfl
  | [], _ :: _ | _ :: _, [] => isFalse (by simp)
  | (key, left) :: lefts, (other, right) :: rights =>
      have := decEq left right
      have := decEqFields lefts rights
      decidable_of_iff ((key = other ∧ left = right) ∧ lefts = rights) (by simp)

end

instance : DecidableEq Value := decEq

end Value

/-! ## Objects

The properties of an object stand in the order in which they are enumerated: array
indices first, ascending, and the others in the order in which they were set.
-/

def decimal (digits : List Char) : Nat :=
  digits.foldl (fun number digit => number * 10 + (digit.toNat - '0'.toNat)) 0

/-- The number a key is enumerated under, when it is an array index. -/
def indexKey (key : String) : Option Nat :=
  let digits := key.toList
  if digits.all Char.isDigit && (digits.length = 1 || digits.head?.any (· ≠ '0')) && decimal digits < 4294967295
  then some (decimal digits) else none

def setField (fields : Fields) (key : String) (value : Value) : Fields :=
  if (fields.lookup key).isSome then fields.map fun field => if field.1 = key then (key, value) else field
  else
    match indexKey key with
    | none => fields ++ [(key, value)]
    | some index =>
        let before : String × Value → Bool := fun field => (indexKey field.1).any (· < index)
        fields.takeWhile before ++ (key, value) :: fields.dropWhile before

section Fields

variable {fields : Fields} {key other : String} {value : Value}

theorem lookup_cons : List.lookup other ((key, value) :: fields) =
    if other = key then some value else fields.lookup other := by
  by_cases same : other = key
  · simp [same]
  · have differs : (other == key) = false := by simp [same]
    simp [List.lookup_cons, differs, same]

theorem lookup_replaced : (fields.map fun field => if field.1 = key then (key, value) else field).lookup other =
    if other = key then (fields.lookup key).map fun _ => value else fields.lookup other := by
  induction fields with
  | nil => simp
  | cons field rest ih =>
      obtain ⟨held, old⟩ := field
      by_cases here : held = key
      · subst here
        by_cases asked : other = held
        · simp [asked]
        · simpa [lookup_cons, asked] using ih
      · by_cases asked : other = key
        · subst asked
          simpa [lookup_cons, here, Ne.symm here] using ih
        · simp [lookup_cons, here, asked] at ih ⊢
          rw [ih]

theorem lookup_setField : (setField fields key value).lookup other =
    if other = key then some value else fields.lookup other := by
  unfold setField
  split
  · next held =>
      obtain ⟨old, found⟩ := Option.isSome_iff_exists.mp held
      rw [lookup_replaced, found]
      rfl
  · next fresh =>
      have absent : fields.lookup key = none := Option.not_isSome_iff_eq_none.mp fresh
      split
      · rw [List.lookup_append]
        by_cases asked : other = key
        · simp [asked, absent]
        · simp [asked, lookup_cons]
      · next index _ =>
          rw [List.lookup_append, lookup_cons]
          have whole : fields.lookup other =
              (List.lookup other (fields.takeWhile fun field => (indexKey field.1).any (· < index))).or
                (List.lookup other (fields.dropWhile fun field => (indexKey field.1).any (· < index))) := by
            rw [← List.lookup_append, List.takeWhile_append_dropWhile]
          by_cases asked : other = key
          · subst asked
            rw [absent] at whole
            simp [Option.or_eq_none_iff.mp whole.symm]
          · simp only [asked, if_false]
            exact whole.symm

theorem lookup_isSome : (fields.lookup key).isSome ↔ key ∈ fields.map (·.1) := by
  induction fields with
  | nil => simp
  | cons field rest ih =>
      obtain ⟨held, value⟩ := field
      by_cases here : key = held <;> simp [lookup_cons, here, ih]

theorem mem_of_lookup (found : fields.lookup key = some value) : (key, value) ∈ fields := by
  induction fields with
  | nil => contradiction
  | cons field rest ih =>
      obtain ⟨held, old⟩ := field
      rw [lookup_cons] at found
      by_cases here : key = held
      · simp only [here, if_true, Option.some.injEq] at found
        simp [here, found]
      · simp only [here, if_false] at found
        exact List.mem_cons_of_mem _ (ih found)

end Fields

/-! ## JSON

`JSON.stringify` writes a number that is not finite as null, and tells all other
values apart; comparing two texts is comparing the values as far as they are written.
-/

mutual

def jsonForm : Value → Value
  | .scalar (.num number) => if number.isFinite then .scalar (.num number) else .scalar .null
  | .scalar value => .scalar value
  | .arr items => .arr (jsonItems items)
  | .obj fields => .obj (jsonFields fields)

def jsonItems : List Value → List Value
  | [] => []
  | item :: rest => jsonForm item :: jsonItems rest

def jsonFields : List (String × Value) → List (String × Value)
  | [] => []
  | (key, value) :: rest => (key, jsonForm value) :: jsonFields rest

end

example : jsonForm (.obj [("a", .arr [.scalar (.num .nan), .scalar (.str "x")])]) =
    .obj [("a", .arr [.scalar .null, .scalar (.str "x")])] := by decide

mutual

/-- A value that JSON has: its numbers are finite, and its objects have each key once. -/
def isJson : Value → Bool
  | .scalar (.num number) => number.isFinite
  | .scalar _ => true
  | .arr items => isJsonItems items
  | .obj fields => (fields.map (·.1)).Nodup && isJsonFields fields

def isJsonItems : List Value → Bool
  | [] => true
  | item :: rest => isJson item && isJsonItems rest

def isJsonFields : List (String × Value) → Bool
  | [] => true
  | (_, value) :: rest => isJson value && isJsonFields rest

end

/-- Equal up to the order of keys. -/
inductive Same : Value → Value → Prop where
  | scalar (value : Scalar) : Same (.scalar value) (.scalar value)
  | arr {items others : List Value} : List.Forall₂ Same items others → Same (.arr items) (.arr others)
  | obj {fields others : Fields} : (∀ key, Option.Rel Same (fields.lookup key) (others.lookup key)) →
      Same (.obj fields) (.obj others)

mutual

theorem Same.refl : (value : Value) → Same value value
  | .scalar value => .scalar value
  | .arr items => .arr (Same.refl_items items)
  | .obj fields => .obj (Same.refl_fields fields)

theorem Same.refl_items : (items : List Value) → List.Forall₂ Same items items
  | [] => .nil
  | item :: rest => .cons (Same.refl item) (Same.refl_items rest)

theorem Same.refl_fields : (fields : List (String × Value)) → (key : String) →
    Option.Rel Same (fields.lookup key) (fields.lookup key)
  | [], _ => .none
  | (held, value) :: rest, key => by
      rw [lookup_cons]
      by_cases here : key = held
      · rw [if_pos here]
        exact .some (Same.refl value)
      · rw [if_neg here]
        exact Same.refl_fields rest key

end

end Dockge.ComposeEditor
