import Dockge.ComposeEditor.Value

namespace Dockge.ComposeEditor

/-! The node tree of a YAML document, and what the library does with it.

A text is modelled as the document it is parsed to, each scalar with the characters
it is written with; layout and comments are left out.
-/

inductive Node where
  | scalar (value : Scalar) (source : Option String)
  | map (items : List (Node × Node))
  | seq (items : List Node)
deriving Repr

abbrev Items := List (Node × Node)

/-- `===`, under which no number that is not one equals itself -/
def strictEqual (left right : Scalar) : Bool := left = right && left ≠ .num .nan

def Node.isCollection : Node → Bool
  | .scalar _ _ => false
  | _ => true

mutual

/-- `createNode` of a plain value -/
def nodeOf : Value → Node
  | .scalar value => .scalar value none
  | .arr items => .seq (nodesOf items)
  | .obj fields => .map (pairsOf fields)

def nodesOf : List Value → List Node
  | [] => []
  | item :: rest => nodeOf item :: nodesOf rest

def pairsOf : List (String × Value) → List (Node × Node)
  | [] => []
  | (key, value) :: rest => (.scalar (.str key) none, nodeOf value) :: pairsOf rest

end

mutual

/-- What a printed document is parsed to: the same contents, each scalar as it was written. -/
def reprinted (printed : Scalar → Option String → String) : Node → Node
  | .scalar value source => .scalar value (some (printed value source))
  | .map items => .map (reprintedPairs printed items)
  | .seq items => .seq (reprintedNodes printed items)

def reprintedNodes (printed : Scalar → Option String → String) : List Node → List Node
  | [] => []
  | item :: rest => reprinted printed item :: reprintedNodes printed rest

def reprintedPairs (printed : Scalar → Option String → String) : List (Node × Node) → List (Node × Node)
  | [] => []
  | (key, value) :: rest => (reprinted printed key, reprinted printed value) :: reprintedPairs printed rest

end

/-- What the language and the YAML library do with a single number, key or scalar. -/
structure Yaml where
  /-- `String(value)` -/
  numberText : Rat → String
  /-- The text of a key that is no scalar -/
  keyText : Node → String
  /-- `Number(text)`, when that is a whole number and not negative -/
  indexText : String → Option Nat
  /-- The characters of a scalar that had some source before -/
  printed : Scalar → Option String → String
  /-- `Number.parseInt(text, 10)`, and the number a text of digits resolves to -/
  parseInt : String → Number
  /-- Printing and parsing keeps the contents of a document, its keys among them. -/
  keyText_reprinted : ∀ key, keyText (reprinted printed key) = keyText key

namespace Yaml

variable (yaml : Yaml)

def scalarText : Scalar → String
  | .null => "null"
  | .bool true => "true"
  | .bool false => "false"
  | .num (.rational value) => yaml.numberText value
  | .num .infinity => "Infinity"
  | .num .negInfinity => "-Infinity"
  | .num .nan => "NaN"
  | .str value => value

/-- The property a key becomes: null is the empty text. -/
def stringifyKey : Node → String
  | .scalar .null _ => ""
  | .scalar value _ => yaml.scalarText value
  | key => yaml.keyText key

mutual

def toJS : Node → Value
  | .scalar value _ => .scalar value
  | .map items => .obj (toJSPairs [] items)
  | .seq items => .arr (toJSItems items)

def toJSItems : List Node → List Value
  | [] => []
  | item :: rest => toJS item :: toJSItems rest

def toJSPairs (fields : Fields) : List (Node × Node) → Fields
  | [] => fields
  | (key, value) :: rest => toJSPairs (setField fields (yaml.stringifyKey key) (toJS value)) rest

end

/-! ## Reading and writing at one place -/

def asItemIndex : Scalar → Option Nat
  | .num (.rational value) => if value.den = 1 ∧ 0 ≤ value.num then some value.num.toNat else none
  | .str text => if text = "" then none else yaml.indexText text
  | _ => none

end Yaml

/-- Index of an item, as it stands in a path -/
def indexStep (index : Nat) : Scalar := .num (.rational index)

def isPairOf (key : Scalar) (item : Node × Node) : Bool :=
  match item.1 with
  | .scalar value _ => strictEqual value key
  | _ => false

def findPair (items : Items) (key : Scalar) : Option (Node × Node) := items.find? (isPairOf key)

/-- A scalar that is replaced by a scalar keeps its node, with the source it had. -/
def overwrite (old new : Node) : Node :=
  match old, new with
  | .scalar _ source, .scalar value _ => .scalar value source
  | _, new => new

/-- Change the value of the first pair with a key. -/
def modifyPair (items : Items) (key : Scalar) (change : Node → Node) : Items :=
  match items with
  | [] => []
  | item :: rest =>
      if isPairOf key item then (item.1, change item.2) :: rest else item :: modifyPair rest key change

def setPair (items : Items) (key : Scalar) (new : Node) : Items :=
  if (findPair items key).isSome then modifyPair items key (overwrite · new)
  else items ++ [(.scalar key none, new)]

/-- `items[index] = value`, which leaves holes before an index behind the end -/
def setItem (items : List Node) (index : Nat) (new : Node) : List Node :=
  if index < items.length then items.modify index (overwrite · new)
  else items ++ List.replicate (index - items.length) (.scalar .null none) ++ [new]

namespace Node

variable (yaml : Yaml)

def get (node : Node) (step : Scalar) : Option Node :=
  match node with
  | .map items => (findPair items step).map (·.2)
  | .seq items => (yaml.asItemIndex step).bind (items[·]?)
  | .scalar _ _ => none

/-- `none` when the library throws -/
def set (node : Node) (step : Scalar) (new : Node) : Option Node :=
  match node with
  | .map items => some (.map (setPair items step new))
  | .seq items => (yaml.asItemIndex step).map fun index => .seq (setItem items index new)
  | .scalar _ _ => none

def delete (node : Node) (step : Scalar) : Option Node :=
  match node with
  | .map items => some (.map (items.eraseP (isPairOf step)))
  | .seq items => some (.seq ((yaml.asItemIndex step).elim items items.eraseIdx))
  | .scalar _ _ => none

/-- The pair that is added for a value: an object with a key is taken for a pair itself. -/
def pairOf : Value → Node × Node
  | .obj fields =>
      let value := nodeOf ((fields.lookup "value").getD (.scalar .null))
      match fields.lookup "key" with
      | some key => (nodeOf key, value)
      | none => (nodeOf (.obj fields), value)
  | value => (nodeOf value, .scalar .null none)

def add (node : Node) (value : Value) : Option Node :=
  match node with
  | .map items =>
      let pair := pairOf value
      let taken :=
        match pair.1 with
        | .scalar key _ => (findPair items key).isSome
        | _ => false
      if taken then none else some (.map (items ++ [pair]))
  | .seq items => some (.seq (items ++ [nodeOf value]))
  | .scalar _ _ => none

/-- Put a changed child back where it was found. -/
def put (node : Node) (step : Scalar) (child : Node) : Node :=
  match node with
  | .map items => .map (modifyPair items step fun _ => child)
  | .seq items => .seq ((yaml.asItemIndex step).elim items (items.set · child))
  | .scalar value source => .scalar value source

/-! ## Reading and writing along a path -/

def getIn (node : Node) : List Scalar → Option Node
  | [] => some node
  | step :: rest => (node.get yaml step).bind (getIn · rest)

def collectionFromPath (path : List Scalar) (value : Node) : Node :=
  match path with
  | [] => value
  | step :: rest =>
      match step with
      | .num (.rational number) =>
          if number.den = 1 ∧ 0 ≤ number.num then
            .seq (List.replicate number.num.toNat (.scalar .null none) ++ [collectionFromPath rest value])
          else .map [(.scalar step none, collectionFromPath rest value)]
      | _ => .map [(.scalar step none, collectionFromPath rest value)]

/-- Change the collection at the end of a path; a path that stops early is completed by a new value. -/
def along (node : Node) (path : List Scalar) (change : Node → Option Node) (missing : List Scalar → Option Node) :
    Option Node :=
  match path with
  | [] => change node
  | step :: rest =>
      match node.get yaml step with
      | some child =>
          if child.isCollection then (along child rest change missing).map (node.put yaml step) else none
      | none => (missing rest).bind (node.set yaml step)

def setIn (node : Node) (path : List Scalar) (last : Scalar) (value : Value) : Option Node :=
  along yaml node path (·.set yaml last (nodeOf value))
    fun rest => some (collectionFromPath (rest ++ [last]) (nodeOf value))

def deleteIn (node : Node) (path : List Scalar) (last : Scalar) : Option Node :=
  along yaml node path (·.delete yaml last) fun _ => none

def addIn (node : Node) (path : List Scalar) (value : Value) : Option Node :=
  along yaml node path (·.add value) fun rest => some (collectionFromPath rest (nodeOf value))

end Node

end Dockge.ComposeEditor
