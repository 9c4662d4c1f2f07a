import Dockge.ComposeEditor.Node

namespace Dockge.ComposeEditor

/-! A place in a document: what is read there, and what writing there leaves alone. -/

variable {yaml : Yaml} {doc node child changed : Node} {path : List Scalar} {step key : Scalar}
variable {items : Items} {change : Node → Node}

theorem isPairOf_of_modified {item : Node × Node} (held : isPairOf key item = true) :
    isPairOf key (item.1, child) = true := held

theorem findPair_modifyPair (found : findPair items key = some (node, child)) :
    findPair (modifyPair items key change) key = some (node, change child) := by
  induction items with
  | nil => contradiction
  | cons item rest ih =>
      rw [findPair, List.find?_cons] at found
      by_cases own : isPairOf key item = true
      · simp only [own, Option.some.injEq] at found
        subst found
        have here : isPairOf key (node, change child) = true := own
        simp [findPair, modifyPair, own, here]
      · simp only [own] at found
        have tail : findPair (modifyPair rest key change) key = some (node, change child) := ih found
        simpa [findPair, modifyPair, own] using tail

theorem modifyPair_modifyPair {again : Node → Node} :
    modifyPair (modifyPair items key change) key again = modifyPair items key fun held => again (change held) := by
  induction items with
  | nil => rfl
  | cons item rest ih =>
      by_cases own : isPairOf key item = true
      · have here : isPairOf key (item.1, change item.2) = true := own
        simp [modifyPair, own, here]
      · simp [modifyPair, own, ih]

theorem modifyPair_id (found : findPair items key = some (node, child)) :
    modifyPair items key (fun _ => child) = items := by
  induction items with
  | nil => rfl
  | cons item rest ih =>
      rw [findPair, List.find?_cons] at found
      by_cases own : isPairOf key item = true
      · simp only [own, Option.some.injEq] at found
        subst found
        simp [modifyPair, own]
      · simp only [own] at found
        simp [modifyPair, own, ih found]

namespace Node

theorem get_collection (found : node.get yaml step = some child) : node.isCollection = true := by
  cases node with
  | scalar value source => contradiction
  | map items => rfl
  | seq items => rfl

@[simp] theorem put_isCollection : (node.put yaml step child).isCollection = node.isCollection := by
  cases node <;> rfl

theorem get_put (found : node.get yaml step = some child) :
    (node.put yaml step changed).get yaml step = some changed := by
  cases node with
  | scalar value source => contradiction
  | map items =>
      obtain ⟨⟨held, value⟩, pair, same⟩ := Option.map_eq_some_iff.mp found
      simp [put, get, findPair_modifyPair pair]
  | seq items =>
      obtain ⟨index, at_index, inside⟩ := Option.bind_eq_some_iff.mp found
      obtain ⟨bound, _⟩ := List.getElem?_eq_some_iff.mp inside
      simp [put, get, at_index, bound]

theorem put_put (found : node.get yaml step = some child) {last : Node} :
    (node.put yaml step changed).put yaml step last = node.put yaml step last := by
  cases node with
  | scalar value source => contradiction
  | map items => simp [put, modifyPair_modifyPair]
  | seq items =>
      obtain ⟨index, at_index, inside⟩ := Option.bind_eq_some_iff.mp found
      simp [put, at_index]

theorem put_get (found : node.get yaml step = some child) : node.put yaml step child = node := by
  cases node with
  | scalar value source => contradiction
  | map items =>
      obtain ⟨⟨held, value⟩, pair, same⟩ := Option.map_eq_some_iff.mp found
      subst same
      simp [put, modifyPair_id pair]
  | seq items =>
      obtain ⟨index, at_index, inside⟩ := Option.bind_eq_some_iff.mp found
      obtain ⟨bound, same⟩ := List.getElem?_eq_some_iff.mp inside
      simp [put, at_index, ← same]

/-- The document with another node at a place. -/
def putIn (yaml : Yaml) (node : Node) (path : List Scalar) (changed : Node) : Node :=
  match path with
  | [] => changed
  | step :: rest =>
      match node.get yaml step with
      | some child => node.put yaml step (putIn yaml child rest changed)
      | none => node

theorem getIn_append {more : List Scalar} (found : doc.getIn yaml path = some node) :
    doc.getIn yaml (path ++ more) = node.getIn yaml more := by
  induction path generalizing doc with
  | nil =>
      obtain rfl := Option.some.inj found
      rfl
  | cons step rest ih =>
      obtain ⟨child, here, below⟩ := Option.bind_eq_some_iff.mp found
      simp only [List.cons_append, getIn, here, Option.bind_some]
      exact ih below

theorem getIn_snoc (found : doc.getIn yaml path = some node) (inside : node.get yaml step = some child) :
    doc.getIn yaml (path ++ [step]) = some child := by
  rw [getIn_append found]
  simp [getIn, inside]

theorem getIn_putIn (found : doc.getIn yaml path = some node) :
    (putIn yaml doc path changed).getIn yaml path = some changed := by
  induction path generalizing doc with
  | nil => rfl
  | cons step rest ih =>
      obtain ⟨child, here, below⟩ := Option.bind_eq_some_iff.mp found
      simp only [putIn, here, getIn, get_put here, Option.bind_some]
      exact ih below

theorem putIn_putIn (found : doc.getIn yaml path = some node) {last : Node} :
    putIn yaml (putIn yaml doc path changed) path last = putIn yaml doc path last := by
  induction path generalizing doc with
  | nil => rfl
  | cons step rest ih =>
      obtain ⟨child, here, below⟩ := Option.bind_eq_some_iff.mp found
      simp only [putIn, here, get_put here, put_put here, ih below]

theorem putIn_getIn (found : doc.getIn yaml path = some node) : putIn yaml doc path node = doc := by
  induction path generalizing doc with
  | nil => exact (Option.some.inj found).symm
  | cons step rest ih =>
      obtain ⟨child, here, below⟩ := Option.bind_eq_some_iff.mp found
      simp only [putIn, here, ih below, put_get here]

theorem putIn_snoc (found : doc.getIn yaml path = some node) (inside : node.get yaml step = some child) :
    putIn yaml doc (path ++ [step]) changed = putIn yaml doc path (node.put yaml step changed) := by
  induction path generalizing doc with
  | nil =>
      obtain rfl := Option.some.inj found
      simp [putIn, inside]
  | cons first rest ih =>
      obtain ⟨child', here, below⟩ := Option.bind_eq_some_iff.mp found
      simp only [List.cons_append, putIn, here, ih below]

/-- Where a path leads to a collection, only that one is changed. -/
theorem along_eq {change : Node → Option Node} {missing : List Scalar → Option Node}
    (found : doc.getIn yaml path = some node) (collection : node.isCollection = true) :
    along yaml doc path change missing = (change node).map (putIn yaml doc path) := by
  induction path generalizing doc with
  | nil =>
      obtain rfl := Option.some.inj found
      simp [along, putIn]
  | cons step rest ih =>
      obtain ⟨child, here, below⟩ := Option.bind_eq_some_iff.mp found
      have inner : child.isCollection = true := by
        cases rest with
        | nil =>
            obtain rfl := Option.some.inj below
            exact collection
        | cons next _ =>
            obtain ⟨_, deeper, _⟩ := Option.bind_eq_some_iff.mp below
            exact get_collection deeper
      simp only [along, here, inner, if_true, ih below, Option.map_map]
      congr 1
      funext changed
      simp [putIn, here]

theorem setIn_eq {value : Value} (found : doc.getIn yaml path = some node) (collection : node.isCollection = true) :
    doc.setIn yaml path step value = (node.set yaml step (nodeOf value)).map (putIn yaml doc path) :=
  along_eq found collection

theorem deleteIn_eq (found : doc.getIn yaml path = some node) (collection : node.isCollection = true) :
    doc.deleteIn yaml path step = (node.delete yaml step).map (putIn yaml doc path) :=
  along_eq found collection

theorem addIn_eq {value : Value} (found : doc.getIn yaml path = some node) (collection : node.isCollection = true) :
    doc.addIn yaml path value = (node.add value).map (putIn yaml doc path) :=
  along_eq found collection

end Node

end Dockge.ComposeEditor
