import Dockge.ComposeEditor.Node
import Dockge.StackStatus.ComposeStatus

namespace Dockge.ComposeEditor

open Dockge.StackStatus (inheritedKeys)

/-! Writing the difference between two plain objects into a document. -/

/-- What reading a property answers. -/
inductive Held where
  | own (value : Value)
  | function
  /-- `Object.prototype` -/
  | prototype
  | undefined
deriving DecidableEq

/-- An object whose properties are read: one of the document, or the one they all inherit from. -/
inductive JsObject where
  | own (fields : Fields)
  | prototype

namespace JsObject

/-- `Object.keys` -/
def keys : JsObject → List String
  | .own fields => fields.map (·.1)
  | .prototype => []

/-- `key in object` -/
def has (object : JsObject) (key : String) : Bool :=
  key ∈ object.keys || key ∈ inheritedKeys

/-- `object[key]` -/
def get (object : JsObject) (key : String) : Held :=
  let inherited : Held := if key ∈ inheritedKeys then .function else .undefined
  match object with
  | .own fields =>
      match fields.lookup key with
      | some value => .own value
      | none => if key = "__proto__" then .prototype else inherited
  | .prototype => if key = "__proto__" then .own (.scalar .null) else inherited

end JsObject

/-- A plain object that can be merged key by key -/
def Held.object : Held → Option JsObject
  | .own (.obj fields) => some (.own fields)
  | .prototype => some .prototype
  | _ => none

def Held.array : Held → Option (List Value)
  | .own (.arr items) => some items
  | _ => none

/-- `JSON.stringify(held) === JSON.stringify(value)` -/
def Held.sameJson (held : Held) (value : Value) : Bool :=
  match held with
  | .own old => jsonForm old = jsonForm value
  | .prototype => jsonForm value = .obj []
  | _ => false

variable (yaml : Yaml)

/-- A key that is no text itself and is written like one. -/
def typedKey (key : String) (item : Node × Node) : Option Scalar :=
  match item.1 with
  | .scalar (.str _) _ => none
  | .scalar value _ => if yaml.scalarText value = key then some value else none
  | _ => none

/-- Find the key the document really uses for a stringified key. -/
def resolveMapKey (doc : Node) (path : List Scalar) (key : String) : Scalar :=
  match doc.getIn yaml path with
  | some (.map items) => (items.findSome? (typedKey yaml key)).getD (.str key)
  | _ => .str key

/-- Take out the keys that the editor removed. -/
def deleteMissing (doc : Node) (path : List Scalar) (next : Fields) : List String → Option Node
  | [] => some doc
  | key :: rest => do
      let doc ← if (JsObject.own next).has key then some doc
        else doc.deleteIn yaml path (resolveMapKey yaml doc path key)
      deleteMissing doc path next rest

/-- Items removed from the end go first, so the remaining indexes stay valid. -/
def deleteItems (doc : Node) (path : List Scalar) (kept : Nat) : Nat → Option Node
  | 0 => some doc
  | index + 1 =>
      if kept ≤ index then do
        let doc ← doc.deleteIn yaml path (indexStep index)
        deleteItems doc path kept index
      else some doc

mutual

/-- Write one value that stands under `last` in the collection at `path`. -/
def applyValue (doc : Node) (path : List Scalar) (last : Scalar) (current : Held) : Value → Option Node
  | .obj fields =>
      match current.object with
      | some object => do
          let doc ← deleteMissing yaml doc (path ++ [last]) fields object.keys
          applyEntries doc (path ++ [last]) object fields
      | none => if current.sameJson (.obj fields) then some doc else doc.setIn yaml path last (.obj fields)
  | .arr items =>
      match current.array with
      | some olds =>
          if (Held.own (.arr olds)).sameJson (.arr items) then some doc
          else do
            let doc ← deleteItems yaml doc (path ++ [last]) items.length olds.length
            applyItems doc (path ++ [last]) olds 0 items
      | none => if current.sameJson (.arr items) then some doc else doc.setIn yaml path last (.arr items)
  | .scalar value =>
      if current.sameJson (.scalar value) then some doc else doc.setIn yaml path last (.scalar value)

/-- The second loop of `applyDiff` -/
def applyEntries (doc : Node) (path : List Scalar) (current : JsObject) :
    List (String × Value) → Option Node
  | [] => some doc
  | (key, value) :: rest => do
      let last := resolveMapKey yaml doc path key
      let doc ← if current.has key then applyValue doc path last (current.get key) value
        else doc.setIn yaml path last value
      applyEntries doc path current rest

/-- The second loop of `applyArrayDiff` -/
def applyItems (doc : Node) (path : List Scalar) (current : List Value) (index : Nat) :
    List Value → Option Node
  | [] => some doc
  | item :: rest => do
      let doc ←
        match current[index]? with
        | none => doc.addIn yaml path item
        | some old =>
            if (Held.own old).sameJson item then some doc
            else
              match item, old with
              | .obj fields, .obj olds => do
                  let doc ← deleteMissing yaml doc (path ++ [indexStep index]) fields (JsObject.own olds).keys
                  applyEntries doc (path ++ [indexStep index]) (.own olds) fields
              | item, _ => doc.setIn yaml path (indexStep index) item
      applyItems doc path current (index + 1) rest

end

/-- Write the difference between two plain objects into a document. -/
def applyDiff (doc : Node) (path : List Scalar) (current : JsObject) (next : Fields) : Option Node := do
  let doc ← deleteMissing yaml doc path next current.keys
  applyEntries yaml doc path current next

/-- Write the difference between two arrays item by item. -/
def applyArrayDiff (doc : Node) (path : List Scalar) (current next : List Value) : Option Node :=
  if (Held.own (.arr current)).sameJson (.arr next) then some doc
  else do
    let doc ← deleteItems yaml doc path next.length current.length
    applyItems yaml doc path current 0 next

structure StructuredEditOptions where
  /-- Whether the source itself declared a top level `networks` key -/
  sourceHadNetworks : Bool
  /-- Set when the user explicitly removed the last network -/
  explicitNetworkRemoval : Bool := false

/-- `!networks`, or an object or a list without properties -/
def isEmptyNetworks : Option Value → Bool
  | none => true
  | some (.scalar value) =>
      match value with
      | .null => true
      | .bool held => !held
      | .num number => number = .rational 0 || number = .nan
      | .str text => text = ""
  | some (.arr items) => items.isEmpty
  | some (.obj fields) => fields.isEmpty

/-- Drop or keep an empty `networks` key according to what the source had. -/
def normaliseNetworks (config : Fields) (options : StructuredEditOptions) : Fields :=
  let networks := config.lookup "networks"
  if !isEmptyNetworks networks then config
  else if options.explicitNetworkRemoval || !options.sourceHadNetworks then
    config.filter (·.1 ≠ "networks")
  else
    match networks with
    | none | some (.scalar .null) => setField config "networks" (.obj [])
    | some held => setField config "networks" held

end Dockge.ComposeEditor
