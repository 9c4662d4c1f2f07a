namespace Dockge.Data

/-! Values of JSON.

The fields of an object stand in the order in which they were set; a key that is set again keeps
its place.
-/

inductive Json where
  | null
  | bool (value : Bool)
  | num (value : Rat)
  | str (value : String)
  | arr (items : List Json)
  | obj (fields : List (String × Json))

abbrev Fields := List (String × Json)

namespace Fields

variable {key other : String} {value : Json} {fields : Fields}

def get (fields : Fields) (key : String) : Option Json := fields.lookup key

def keys (fields : Fields) : List String := fields.map (·.1)

def set (fields : Fields) (key : String) (value : Json) : Fields :=
  match fields with
  | [] => [(key, value)]
  | (held, old) :: rest => if held = key then (key, value) :: rest else (held, old) :: set rest key value

/-- `delete fields[key]` -/
def erase (fields : Fields) (key : String) : Fields := fields.filter (·.1 ≠ key)

@[simp] theorem get_nil : get [] key = none := rfl

theorem get_cons {rest : Fields} :
    get ((other, value) :: rest) key = if key = other then some value else get rest key := by
  by_cases same : key = other
  · simp [get, same]
  · have differs : (key == other) = false := by simp [same]
    simp [get, List.lookup_cons, differs, same]

@[simp] theorem get_set : (fields.set key value).get other = if other = key then some value else fields.get other := by
  induction fields with
  | nil => simp [set, get_cons]
  | cons field rest ih =>
      obtain ⟨held, old⟩ := field
      by_cases same : held = key
      · subst same
        by_cases asked : other = held <;> simp [set, get_cons, asked]
      · by_cases asked : other = held
        · subst asked
          simp [set, get_cons, same]
        · simp [set, get_cons, same, asked, ih]

@[simp] theorem get_erase : (fields.erase key).get other = if other = key then none else fields.get other := by
  induction fields with
  | nil => simp [erase]
  | cons field rest ih =>
      obtain ⟨held, old⟩ := field
      by_cases same : held = key
      · subst same
        have tail : erase ((held, old) :: rest) held = erase rest held := by simp [erase]
        rw [tail, ih]
        by_cases asked : other = held <;> simp [get_cons, asked]
      · have tail : erase ((held, old) :: rest) key = (held, old) :: erase rest key := by simp [erase, same]
        rw [tail, get_cons, ih, get_cons]
        by_cases asked : other = held
        · subst asked
          simp [same]
        · simp [asked]

theorem set_set {first second : Json} : (fields.set key first).set key second = fields.set key second := by
  induction fields with
  | nil => simp [set]
  | cons field rest ih =>
      obtain ⟨held, old⟩ := field
      by_cases same : held = key
      · simp [set, same]
      · simp [set, same, ih]

theorem set_get (there : fields.get key = some value) : fields.set key value = fields := by
  induction fields with
  | nil => cases there
  | cons field rest ih =>
      obtain ⟨held, old⟩ := field
      rw [get_cons] at there
      by_cases same : held = key
      · rw [if_pos same.symm] at there
        cases there
        simp [set, same]
      · rw [if_neg (Ne.symm same)] at there
        simp [set, same, ih there]

/-- A key that is there keeps its place, whatever is set besides. -/
theorem set_comm {first second : Json} (differs : key ≠ other) (there : (fields.get key).isSome = true) :
    (fields.set other second).set key first = (fields.set key first).set other second := by
  induction fields with
  | nil => cases there
  | cons field rest ih =>
      obtain ⟨held, old⟩ := field
      rw [get_cons] at there
      by_cases same : held = key
      · subst same
        simp [set, differs]
      · rw [if_neg (Ne.symm same)] at there
        by_cases here : held = other
        · simp [set, here, Ne.symm differs]
        · simp [set, here, same, ih there]

end Fields

end Dockge.Data
