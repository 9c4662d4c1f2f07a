import Dockge.ComposeEditor.Edit

namespace Dockge.ComposeEditor

/-! Legacy octal numbers, remembered before an edit and put back after it. -/

/-- `/^0[0-7]+$/` -/
def isLegacyOctal (text : String) : Bool :=
  match text.toList with
  | '0' :: digits => digits ≠ [] && digits.all fun digit => '0' ≤ digit && digit ≤ '7'
  | _ => false

abbrev OctalByPath := List (List Scalar × String)

/-- `result.set(path, text)`: a path that is set again keeps its place. -/
def remember (result : OctalByPath) (path : List Scalar) (text : String) : OctalByPath :=
  match result with
  | [] => [(path, text)]
  | (held, old) :: rest => if held = path then (held, text) :: rest else (held, old) :: remember rest path text

/-- The keys a value is found under, as long as all of them are texts. -/
def keysThrough (keys : Option (List Scalar)) (key : Node) : Option (List Scalar) :=
  match key with
  | .scalar (.str text) _ => keys.map (· ++ [.str text])
  | _ => none

mutual

/-- The visit of a document with the path built at each number: the keys of all pairs
above it, and its index when it is an item itself. -/
def visitOctal (keys : Option (List Scalar)) (index : Option Nat) (result : OctalByPath) : Node → OctalByPath
  | .scalar (.num _) (some source) =>
      match keys with
      | some keys =>
          if isLegacyOctal source then remember result (keys ++ index.toList.map indexStep) source else result
      | none => result
  | .scalar _ _ => result
  | .map items => visitOctalPairs keys result items
  | .seq items => visitOctalItems keys 0 result items

def visitOctalPairs (keys : Option (List Scalar)) (result : OctalByPath) : List (Node × Node) → OctalByPath
  | [] => result
  | (key, value) :: rest => visitOctalPairs keys (visitOctal (keysThrough keys key) none result value) rest

def visitOctalItems (keys : Option (List Scalar)) (index : Nat) (result : OctalByPath) : List Node → OctalByPath
  | [] => result
  | item :: rest => visitOctalItems keys (index + 1) (visitOctal keys (some index) result item) rest

end

/-- Find the values written as legacy octal, such as `mode: 01777`. -/
def collectLegacyOctal (doc : Node) : OctalByPath := visitOctal (some []) none [] doc

/-- Which child is taken at each level to reach a scalar; its range in the text stands for it. -/
abbrev Position := List Nat

variable (yaml : Yaml)

/-- The index of the child that `get` answers. -/
def Node.childIndex (node : Node) (step : Scalar) : Option Nat :=
  match node with
  | .map items => items.findIdx? (isPairOf step)
  | .seq items => (yaml.asItemIndex step).filter (· < items.length)
  | .scalar _ _ => none

def Node.childAt (node : Node) (index : Nat) : Option Node :=
  match node with
  | .map items => items[index]?.map (·.2)
  | .seq items => items[index]?
  | .scalar _ _ => none

/-- `getIn`, with the position of the node it answers. -/
def Node.locate (node : Node) : List Scalar → Option (Position × Node)
  | [] => some ([], node)
  | step :: rest => do
      let index ← node.childIndex yaml step
      let child ← node.childAt index
      let (position, found) ← locate child rest
      some (index :: position, found)

/-- Only a value that is still the same number is replaced, an edited one stays edited. -/
def octalEdits (doc : Node) (octalByPath : OctalByPath) : List (Position × String) :=
  octalByPath.filterMap fun (path, text) =>
    match doc.locate yaml path with
    | some (position, .scalar (.num number) _) =>
        if strictEqual (.num number) (.num (yaml.parseInt text)) then some (position, text) else none
    | _ => none

/-- `result.slice(0, start) + text + result.slice(end)` within the range of one scalar, whose end is
that of the text first printed there. -/
def splice (original current text : String) : String :=
  text ++ String.ofList (current.toList.drop original.toList.length)

/-- The ranges of different scalars lie apart and are edited from the back, so each scalar is
rewritten by the edits of its own range alone, one after another. -/
def rewriteScalar (texts : List String) (value : Scalar) (source : Option String) : Node :=
  if texts = [] then .scalar value source
  else
    let text := texts.foldl (splice (source.getD "")) (source.getD "")
    .scalar (.num (yaml.parseInt text)) (some text)

def textsAt (edits : List (Position × String)) (here : Position) : List String :=
  (edits.filter (·.1 = here)).map (·.2)

mutual

def rewritten (edits : List (Position × String)) (here : Position) : Node → Node
  | .scalar value source => rewriteScalar yaml (textsAt edits here) value source
  | .map items => .map (rewrittenPairs edits here 0 items)
  | .seq items => .seq (rewrittenItems edits here 0 items)

def rewrittenPairs (edits : List (Position × String)) (here : Position) (index : Nat) :
    List (Node × Node) → List (Node × Node)
  | [] => []
  | (key, value) :: rest =>
      (key, rewritten edits (here ++ [index]) value) :: rewrittenPairs edits here (index + 1) rest

def rewrittenItems (edits : List (Position × String)) (here : Position) (index : Nat) : List Node → List Node
  | [] => []
  | item :: rest => rewritten edits (here ++ [index]) item :: rewrittenItems edits here (index + 1) rest

end

/-- Put the original octal text back into a serialised document. -/
def restoreLegacyOctal (output : Node) (octalByPath : OctalByPath) : Node :=
  rewritten yaml (octalEdits yaml output octalByPath) [] output

/-- A compose source is a document whose root is a mapping. -/
abbrev Source := Items

def currentFields (source : Source) : Fields := yaml.toJSPairs [] source

/-- The document before it is printed. -/
def editedDocument (source : Source) (config : Fields) (options : StructuredEditOptions) : Option Node :=
  applyDiff yaml (.map source) [] (.own (currentFields yaml source)) (normaliseNetworks config options)

/-- Apply a structured edit to the original document. -/
def applyStructuredEdit (source : Source) (config : Fields) (options : StructuredEditOptions) : Option Node := do
  let doc ← editedDocument yaml source config options
  some (restoreLegacyOctal yaml (reprinted yaml.printed doc) (collectLegacyOctal (.map source)))

/-! ## What may be edited -/

def isMergeKey (key : Node) : Bool :=
  match key with
  | .scalar (.str text) _ => text = "<<"
  | _ => false

/-- Two keys of a mapping that the parser takes for the same -/
def sameKey (left right : Node) : Bool :=
  match left, right with
  | .scalar left _, .scalar right _ => strictEqual left right
  | _, _ => false

mutual

/-- Keys are unique, or the parser reports an error, and none is a merge key. -/
def isPlain : Node → Bool
  | .scalar _ _ => true
  | .map items => isPlainPairs items
  | .seq items => isPlainItems items

def isPlainPairs : List (Node × Node) → Bool
  | [] => true
  | (key, value) :: rest =>
      !isMergeKey key && isPlain key && isPlain value && !rest.any (sameKey key ·.1) && isPlainPairs rest

def isPlainItems : List Node → Bool
  | [] => true
  | item :: rest => isPlain item && isPlainItems rest

end

/-- Aliases, anchors and tags of its own have no place in the tree at all. -/
def canEditStructurally (source : Source) : Bool :=
  isPlainPairs source && (findPair source (.str "include")).isNone

end Dockge.ComposeEditor
