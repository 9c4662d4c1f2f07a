import Dockge.Data.Json
import Mathlib.Data.List.Infix

namespace Dockge.Data

/-! Values at paths of nested objects, and what a list of edits leaves at one of them. -/

/-- What is kept of a value that is read as an object -/
def fieldsOf : Option Json → Fields
  | some (.obj fields) => fields
  | _ => []

def itemsOf : Option Json → List Json
  | some (.arr items) => items
  | _ => []

/-- Change the value at a path; the objects on the way are made when they are missing. -/
def updateAt (fields : Fields) (path : List String) (change : Option Json → Json) : Fields :=
  match path with
  | [] => fields
  | [last] => fields.set last (change (fields.get last))
  | key :: rest => fields.set key (.obj (updateAt (fieldsOf (fields.get key)) rest change))

def valueAt (fields : Fields) : List String → Option Json
  | [] => none
  | [last] => fields.get last
  | key :: rest => valueAt (fieldsOf (fields.get key)) rest

/-- Neither path leads through the other. -/
def PathsApart (left right : List String) : Prop := ¬ left <+: right ∧ ¬ right <+: left

instance (left right : List String) : Decidable (PathsApart left right) := inferInstanceAs (Decidable (_ ∧ _))

variable {fields : Fields} {path other : List String} {key : String} {change : Option Json → Json}

theorem updateAt_cons (more : path ≠ []) :
    updateAt fields (key :: path) change = fields.set key (.obj (updateAt (fieldsOf (fields.get key)) path change)) := by
  cases path with
  | nil => exact absurd rfl more
  | cons => rfl

theorem valueAt_cons (more : path ≠ []) : valueAt fields (key :: path) = valueAt (fieldsOf (fields.get key)) path := by
  cases path with
  | nil => exact absurd rfl more
  | cons => rfl

/-- Only the value at the first key of a path counts. -/
theorem valueAt_congr {left right : Fields} {key : String} {path : List String} (same : left.get key = right.get key) :
    valueAt left (key :: path) = valueAt right (key :: path) := by
  cases path with
  | nil => exact same
  | cons next rest =>
      rw [valueAt_cons (List.cons_ne_nil _ _), valueAt_cons (List.cons_ne_nil _ _), same]

theorem valueAt_nil (path : List String) : valueAt [] path = none := by
  induction path with
  | nil => rfl
  | cons key rest ih =>
      cases rest with
      | nil => rfl
      | cons => exact ih

/-- Nothing but the first key of a path is touched. -/
theorem get_updateAt_other {first : String} (differs : key ≠ first) :
    (updateAt fields (first :: path) change).get key = fields.get key := by
  cases path with
  | nil => simp [updateAt, differs]
  | cons => simp [updateAt, differs]

theorem valueAt_updateAt (some_ : path ≠ []) :
    valueAt (updateAt fields path change) path = some (change (valueAt fields path)) := by
  induction path generalizing fields with
  | nil => exact absurd rfl some_
  | cons key rest ih =>
      by_cases last : rest = []
      · subst last
        simp [updateAt, valueAt]
      · rw [updateAt_cons last, valueAt_cons last, valueAt_cons last, Fields.get_set, if_pos rfl, fieldsOf, ih last]

theorem valueAt_updateAt_other (apart : PathsApart path other) :
    valueAt (updateAt fields path change) other = valueAt fields other := by
  induction path generalizing fields other with
  | nil => exact absurd List.nil_prefix apart.1
  | cons key rest ih =>
      cases other with
      | nil => exact absurd List.nil_prefix apart.2
      | cons first others =>
          by_cases same : first = key
          · subst same
            have inner : PathsApart rest others :=
              ⟨fun held => apart.1 (List.cons_prefix_cons.mpr ⟨rfl, held⟩),
                fun held => apart.2 (List.cons_prefix_cons.mpr ⟨rfl, held⟩)⟩
            have more : rest ≠ [] := fun none_ => inner.1 (none_ ▸ List.nil_prefix)
            have more' : others ≠ [] := fun none_ => inner.2 (none_ ▸ List.nil_prefix)
            rw [updateAt_cons more, valueAt_cons more', valueAt_cons more', Fields.get_set, if_pos rfl, fieldsOf, ih inner]
          · by_cases last : others = []
            · subst last
              exact get_updateAt_other same
            · rw [valueAt_cons last, valueAt_cons last, get_updateAt_other same]

/-! ## Lists of writes -/

namespace Fields

/-- Set one field after another. -/
def setAll (fields writes : Fields) : Fields := writes.foldl (fun fields write => fields.set write.1 write.2) fields

/-- The values written to a key -/
def written (writes : Fields) (key : String) : List Json :=
  writes.filterMap fun write => if write.1 = key then some write.2 else none

theorem written_cons (write : String × Json) (rest : Fields) (key : String) :
    written (write :: rest) key = if write.1 = key then write.2 :: written rest key else written rest key := by
  rw [written, List.filterMap_cons]
  by_cases same : write.1 = key
  · simp only [if_pos same]
    rfl
  · simp only [if_neg same]
    rfl

/-- The last write to a key counts. -/
theorem get_setAll (fields writes : Fields) (key : String) :
    (fields.setAll writes).get key = (written writes key).getLast?.or (fields.get key) := by
  induction writes generalizing fields with
  | nil => rfl
  | cons write rest ih =>
      rw [setAll, List.foldl_cons]
      refine (ih _).trans ?_
      rw [get_set, written_cons]
      by_cases same : write.1 = key
      · rw [if_pos same.symm, if_pos same, List.getLast?_cons]
        cases (written rest key).getLast? <;> rfl
      · rw [if_neg (Ne.symm same), if_neg same]

theorem mem_keys_iff {fields : Fields} {key : String} : key ∈ fields.keys ↔ (fields.get key).isSome = true := by
  induction fields with
  | nil => simp [keys]
  | cons field rest ih =>
      obtain ⟨held, value⟩ := field
      rw [get_cons]
      by_cases same : key = held
      · simp [keys, same]
      · rw [if_neg same, ← ih]
        simp [keys, same]

theorem keys_set (fields : Fields) (key : String) (value : Json) :
    (fields.set key value).keys = if key ∈ fields.keys then fields.keys else fields.keys ++ [key] := by
  induction fields with
  | nil => rfl
  | cons field rest ih =>
      obtain ⟨held, old⟩ := field
      rw [set]
      by_cases same : held = key
      · simp [keys, same]
      · have cons {value : Json} {others : Fields} : keys ((held, value) :: others) = held :: keys others := rfl
        rw [if_neg same, cons, cons, ih]
        by_cases listed : key ∈ keys rest
        · simp [listed]
        · simp [listed, Ne.symm same]

theorem nodup_set {fields : Fields} (distinct : fields.keys.Nodup) (key : String) (value : Json) :
    (fields.set key value).keys.Nodup := by
  rw [keys_set]
  split
  next => exact distinct
  next fresh =>
    refine List.nodup_append.mpr ⟨distinct, List.pairwise_singleton _ key, fun held member other listed same => ?_⟩
    rw [same, List.mem_singleton.mp listed] at member
    exact fresh member

/-- Without repeated keys there is one write to each. -/
theorem written_getLast? {fields : Fields} (distinct : fields.keys.Nodup) (key : String) :
    (written fields key).getLast? = fields.get key := by
  induction fields with
  | nil => rfl
  | cons field rest ih =>
      obtain ⟨held, value⟩ := field
      obtain ⟨fresh, distinctRest⟩ := List.nodup_cons.mp distinct
      rw [get_cons, written_cons]
      by_cases same : key = held
      · have none_ : (written rest key).getLast? = none := by
          rw [ih distinctRest]
          cases found : Fields.get rest key with
          | none => rfl
          | some => exact absurd (mem_keys_iff.mpr (by rw [← same, found]; rfl)) fresh
        have tail : written rest key = [] := List.getLast?_eq_none_iff.mp none_
        rw [if_pos same, if_pos same.symm, tail]
        rfl
      · rw [if_neg same, if_neg (Ne.symm same), ih distinctRest]

theorem get_setAll_distinct {writes : Fields} (distinct : writes.keys.Nodup) (fields : Fields) (key : String) :
    (fields.setAll writes).get key = (writes.get key).or (fields.get key) := by
  rw [get_setAll, written_getLast? distinct]

theorem nodup_setAll {fields : Fields} (distinct : fields.keys.Nodup) (writes : Fields) :
    (fields.setAll writes).keys.Nodup := by
  induction writes generalizing fields with
  | nil => exact distinct
  | cons write rest ih => exact ih (nodup_set distinct write.1 write.2)

end Fields

/-! ## Lists of edits -/

structure Edit where
  path : List String
  change : Option Json → Json

def Edit.apply (edit : Edit) (fields : Fields) : Fields := updateAt fields edit.path edit.change

/-- What the edits at a path leave there, one after another -/
def settle (edits : List Edit) (path : List String) (old : Option Json) : Option Json :=
  (edits.filter (·.path = path)).foldl (fun old edit => some (edit.change old)) old

theorem valueAt_foldl {edits : List Edit} (some_ : path ≠ [])
    (apart : ∀ edit ∈ edits, edit.path = path ∨ PathsApart edit.path path) (fields : Fields) :
    valueAt (edits.foldl (fun fields edit => edit.apply fields) fields) path = settle edits path (valueAt fields path) := by
  induction edits generalizing fields with
  | nil => rfl
  | cons edit edits ih =>
      have others := ih fun other member => apart other (List.mem_cons_of_mem _ member)
      rw [List.foldl_cons, others, settle, settle]
      by_cases same : edit.path = path
      · rw [List.filter_cons_of_pos (by simpa using same), List.foldl_cons, Edit.apply, same, valueAt_updateAt some_]
      · rw [List.filter_cons_of_neg (by simpa using same), Edit.apply,
          valueAt_updateAt_other ((apart edit List.mem_cons_self).resolve_left same)]

end Dockge.Data
