import Dockge.ComposeEditor.Octal
import Dockge.ComposeEditor.Places

namespace Dockge.ComposeEditor

/-! The keys of a mapping, and how the editor finds the one it means. -/

variable (yaml : Yaml)

/-- The value that a property of the plain object comes from: later pairs replace earlier ones. -/
def valueAt (items : Items) (key : String) : Option Node :=
  match items with
  | [] => none
  | (held, value) :: rest => (valueAt rest key).or (if yaml.stringifyKey held = key then some value else none)

/-- A key that has a text, as a property or where the editor looks for one. -/
def claims (key : String) (held : Node) : Bool :=
  yaml.stringifyKey held = key ||
    match held with
    | .scalar value _ => yaml.scalarText value = key
    | _ => false

/-- A key that `get`, `set` and `delete` find by its own value. -/
def isAddress : Node → Bool
  | .scalar value _ => value ≠ .null && value ≠ .num .nan
  | _ => false

/-- At most one key of the mapping has the text, and that one can be named. -/
def addressable (items : Items) (key : String) : Bool :=
  match items.filter (claims yaml key ·.1) with
  | [] => true
  | [item] => isAddress item.1
  | _ => false

variable {yaml}
variable {items before behind : Items} {key other : String} {value : Scalar} {source : Option String}
variable {child node : Node} {doc : Node} {path : List Scalar} {fields : Fields}

theorem lookup_toJSPairs : (yaml.toJSPairs fields items).lookup key =
    ((valueAt yaml items key).map yaml.toJS).or (fields.lookup key) := by
  induction items generalizing fields with
  | nil => simp [Yaml.toJSPairs, valueAt]
  | cons item rest ih =>
      obtain ⟨held, value⟩ := item
      rw [Yaml.toJSPairs, ih, lookup_setField, valueAt]
      by_cases own : yaml.stringifyKey held = key
      · cases valueAt yaml rest key <;> simp [own]
      · have other : ¬ key = yaml.stringifyKey held := Ne.symm own
        cases valueAt yaml rest key <;> simp [own, other]

@[simp] theorem lookup_toJSPairs_nil : (yaml.toJSPairs [] items).lookup key = (valueAt yaml items key).map yaml.toJS := by
  rw [lookup_toJSPairs]
  simp

theorem valueAt_append : valueAt yaml (before ++ behind) key = (valueAt yaml behind key).or (valueAt yaml before key) := by
  induction before with
  | nil => simp [valueAt]
  | cons item rest ih =>
      obtain ⟨held, value⟩ := item
      simp only [List.cons_append, valueAt, ih, Option.or_assoc]

/-- No key has the text. -/
def Unclaimed (yaml : Yaml) (items : Items) (key : String) : Prop := ∀ item ∈ items, claims yaml key item.1 = false

theorem Unclaimed.valueAt (unclaimed : Unclaimed yaml items key) : valueAt yaml items key = none := by
  induction items with
  | nil => rfl
  | cons item rest ih =>
      obtain ⟨held, value⟩ := item
      have here := unclaimed (held, value) (by simp)
      have tail : Unclaimed yaml rest key := fun item member => unclaimed item (List.mem_cons_of_mem _ member)
      simp only [claims, Bool.or_eq_false_iff, decide_eq_false_iff_not] at here
      simp [ComposeEditor.valueAt, ih tail, here.1]

/-- The one key with a text, between keys that do not have it. -/
structure Addressed (yaml : Yaml) (items : Items) (key : String) (before : Items) (value : Scalar)
    (source : Option String) (child : Node) (behind : Items) : Prop where
  parts : items = before ++ (.scalar value source, child) :: behind
  text : yaml.scalarText value = key
  named : value ≠ .null ∧ value ≠ .num .nan
  earlier : Unclaimed yaml before key
  later : Unclaimed yaml behind key

theorem stringifyKey_scalar (named : value ≠ .null) : yaml.stringifyKey (.scalar value source) = yaml.scalarText value := by
  cases value <;> first | rfl | contradiction

theorem addressable_cases (addressed : addressable yaml items key = true) :
    Unclaimed yaml items key ∨
      ∃ before value source child behind, Addressed yaml items key before value source child behind := by
  unfold addressable at addressed
  split at addressed
  · next nothing =>
      refine Or.inl fun item member => ?_
      have := List.filter_eq_nil_iff.mp nothing item member
      simpa using this
  · next item only =>
      obtain ⟨before, behind, parts, earlier, own, later⟩ := List.filter_eq_cons_iff.mp only
      obtain ⟨held, child⟩ := item
      cases held with
      | scalar value source =>
          simp only [isAddress, ne_eq, Bool.and_eq_true, decide_not, Bool.not_eq_eq_eq_not,
            Bool.not_true, decide_eq_false_iff_not] at addressed
          refine Or.inr ⟨before, value, source, child, behind, parts, ?_, addressed, ?_, ?_⟩
          · simp only [claims, Bool.or_eq_true, decide_eq_true_eq, stringifyKey_scalar addressed.1, or_self] at own
            exact own
          · intro item member
            simpa using earlier item member
          · intro item member
            have := List.filter_eq_nil_iff.mp later item member
            simpa using this
      | map pairs => contradiction
      | seq nodes => contradiction
  · contradiction

theorem scalarText_injective_on {value held : Scalar} (same : strictEqual held value = true) : held = value := by
  simp only [strictEqual, Bool.and_eq_true, decide_eq_true_eq] at same
  exact same.1

/-- A pair that is found by a key has a text of that key. -/
theorem claims_of_isPairOf {item : Node × Node} (found : isPairOf value item = true) :
    claims yaml (yaml.scalarText value) item.1 = true := by
  obtain ⟨held, child⟩ := item
  cases held with
  | scalar own source =>
      have same := scalarText_injective_on found
      subst same
      simp [claims]
  | map pairs => contradiction
  | seq nodes => contradiction

theorem Unclaimed.not_found (unclaimed : Unclaimed yaml items (yaml.scalarText value)) :
    ∀ item ∈ items, isPairOf value item = false := by
  intro item member
  cases found : isPairOf value item with
  | false => rfl
  | true =>
      have := unclaimed item member
      rw [claims_of_isPairOf found] at this
      contradiction

/-- The key the editor uses for a text in a mapping. -/
def resolved (yaml : Yaml) (items : Items) (key : String) : Scalar :=
  (items.findSome? (typedKey yaml key)).getD (.str key)

theorem resolveMapKey_eq (found : doc.getIn yaml path = some (.map items)) :
    resolveMapKey yaml doc path key = resolved yaml items key := by
  unfold resolveMapKey
  rw [found]
  rfl

theorem Unclaimed.typedKey (unclaimed : Unclaimed yaml items key) : items.findSome? (typedKey yaml key) = none := by
  apply List.findSome?_eq_none_iff.mpr
  intro item member
  have nobody := unclaimed item member
  obtain ⟨held, child⟩ := item
  cases held with
  | scalar value source =>
      simp only [claims, Bool.or_eq_false_iff, decide_eq_false_iff_not] at nobody
      cases value <;> simp [ComposeEditor.typedKey, nobody.2]
  | map pairs => rfl
  | seq nodes => rfl

theorem Unclaimed.resolved (unclaimed : Unclaimed yaml items key) : resolved yaml items key = .str key := by
  rw [ComposeEditor.resolved, unclaimed.typedKey]
  rfl

theorem Addressed.resolved (addressed : Addressed yaml items key before value source child behind) :
    resolved yaml items key = value := by
  rw [ComposeEditor.resolved, addressed.parts, List.findSome?_append, addressed.earlier.typedKey, List.findSome?_cons]
  have text := addressed.text
  cases value with
  | str own =>
      have same : own = key := text
      simp [typedKey, addressed.later.typedKey, same]
  | null => simp [typedKey, text]
  | bool own => simp [typedKey, text]
  | num own => simp [typedKey, text]

theorem isPairOf_own (named : value ≠ .num .nan) : isPairOf value (.scalar value source, child) = true := by
  simp [isPairOf, strictEqual, named]

theorem findPair_append (absent : ∀ item ∈ before, isPairOf value item = false) :
    findPair (before ++ behind) value = findPair behind value := by
  rw [findPair, List.find?_append, List.find?_eq_none.mpr]
  · rfl
  · intro item member found
    rw [absent item member] at found
    contradiction

theorem modifyPair_append {change : Node → Node} (absent : ∀ item ∈ before, isPairOf value item = false) :
    modifyPair (before ++ behind) value change = before ++ modifyPair behind value change := by
  induction before with
  | nil => rfl
  | cons item rest ih =>
      have here := absent item (by simp)
      have tail : ∀ item ∈ rest, isPairOf value item = false :=
        fun item member => absent item (List.mem_cons_of_mem _ member)
      simp [modifyPair, here, ih tail]

namespace Addressed

variable (addressed : Addressed yaml items key before value source child behind)

include addressed

theorem absent : ∀ item ∈ before, isPairOf value item = false := by
  apply Unclaimed.not_found
  rw [addressed.text]
  exact addressed.earlier

theorem findPair : findPair items value = some (.scalar value source, child) := by
  rw [addressed.parts, findPair_append addressed.absent]
  simp [ComposeEditor.findPair, isPairOf_own addressed.named.2]

theorem modifyPair (change : Node → Node) :
    modifyPair items value change = before ++ (.scalar value source, change child) :: behind := by
  rw [addressed.parts, modifyPair_append addressed.absent]
  simp [ComposeEditor.modifyPair, isPairOf_own addressed.named.2]

theorem eraseP : items.eraseP (isPairOf value) = before ++ behind := by
  have absent : ∀ item ∈ before, ¬ isPairOf value item = true := by
    intro item member found
    rw [addressed.absent item member] at found
    contradiction
  rw [addressed.parts, List.eraseP_append_right _ absent,
    List.eraseP_cons_of_pos (isPairOf_own addressed.named.2)]

theorem valueAt : valueAt yaml items key = some child := by
  rw [addressed.parts, valueAt_append, ComposeEditor.valueAt, addressed.later.valueAt,
    stringifyKey_scalar addressed.named.1, addressed.text]
  simp

end Addressed

/-- The other keys do not notice what is put in the place of one value. -/
theorem valueAt_replace (differs : yaml.stringifyKey node ≠ other) (changed : Node) :
    valueAt yaml (before ++ (node, changed) :: behind) other = valueAt yaml (before ++ (node, child) :: behind) other := by
  simp [valueAt_append, valueAt, differs]

theorem valueAt_remove (differs : yaml.stringifyKey node ≠ other) :
    valueAt yaml (before ++ behind) other = valueAt yaml (before ++ (node, child) :: behind) other := by
  simp [valueAt_append, valueAt, differs]

/-- Whether a text can be named depends on the keys alone. -/
theorem addressable_congr {others : Items} (same : items.map (·.1) = others.map (·.1)) :
    addressable yaml items key = addressable yaml others key := by
  have filtered : (items.filter (claims yaml key ·.1)).map (·.1) = (others.filter (claims yaml key ·.1)).map (·.1) := by
    have commute : ∀ pairs : Items, (pairs.filter (claims yaml key ·.1)).map (·.1) =
        (pairs.map (·.1)).filter (claims yaml key) := by
      intro pairs
      rw [List.filter_map]
      rfl
    rw [commute, commute, same]
  unfold addressable
  generalize items.filter (claims yaml key ·.1) = left at filtered ⊢
  generalize others.filter (claims yaml key ·.1) = right at filtered ⊢
  match left, right with
  | [], [] => rfl
  | [], _ :: _ => simp at filtered
  | _ :: _, [] => simp at filtered
  | [item], [matching] =>
      have : item.1 = matching.1 := by simpa using filtered
      simp [this]
  | [_], _ :: _ :: _ => simp at filtered
  | _ :: _ :: _, [_] => simp at filtered
  | _ :: _ :: _, _ :: _ :: _ => rfl

theorem addressable_sublist (addressed : addressable yaml items key = true) {fewer : Items}
    (sublist : fewer.Sublist items) : addressable yaml fewer key = true := by
  have filtered : (fewer.filter (claims yaml key ·.1)).Sublist (items.filter (claims yaml key ·.1)) :=
    sublist.filter _
  unfold addressable at addressed ⊢
  generalize fewer.filter (claims yaml key ·.1) = left at filtered ⊢
  generalize items.filter (claims yaml key ·.1) = right at filtered addressed
  match left, right with
  | [], _ => rfl
  | [item], [held] =>
      obtain rfl := List.singleton_sublist.mp filtered |> List.mem_singleton.mp
      exact addressed
  | [_], [] => simp at filtered
  | _ :: _ :: _, [] => simp at filtered
  | _ :: _ :: _, [_] => simp at filtered
  | _, _ :: _ :: _ => contradiction

theorem addressable_append (addressed : addressable yaml items key = true) (differs : other ≠ key) :
    addressable yaml (items ++ [(.scalar (.str other) source, child)]) key = true := by
  have unclaimed : claims yaml key (.scalar (.str other) source) = false := by
    simp [claims, Yaml.stringifyKey, Yaml.scalarText, differs]
  unfold addressable at addressed ⊢
  simpa [List.filter_append, unclaimed] using addressed

end Dockge.ComposeEditor
