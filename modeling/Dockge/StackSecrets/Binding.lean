import Dockge.ComposeEditor.Node
import Dockge.StackConfig.FileConfig

namespace Dockge.StackSecrets

open Dockge.ComposeEditor Dockge.StackConfig
open Dockge.StackWrite (safeSegment classifyStackFile)

/-! What a secret reference makes of the compose text and of the stored bindings. -/

inductive SecretError where
  | stackFileNotSecret (file : String)
  | secretNameInvalid (name : String)
  | secretFileMissing (file : String)
  | serviceUnknown (service : String)
  /-- The YAML library throws. -/
  | document
deriving DecidableEq, Repr

/-- A parsed document: its contents, or nothing for an empty text. -/
abbrev Document := Option Node

/-- What the YAML library makes of a text and of a document. -/
structure Library where
  yaml : Yaml
  parseDocument : String → Document
  /-- `readComposeServices` -/
  readComposeServices : String → List String
  /-- `serialiseEditedDocument`, unless the document has errors -/
  serialiseEditedDocument : String → Document → Option String

section
variable (yaml : Yaml)

namespace Document

def getIn (doc : Document) (path : List String) : Option Node :=
  doc.bind (·.getIn yaml (path.map .str))

def setIn (doc : Document) (path : List String) (last : String) (value : Value) : Option Document :=
  match doc with
  | none => some (some (Node.collectionFromPath ((path ++ [last]).map .str) (nodeOf value)))
  | some contents => (contents.setIn yaml (path.map .str) (.str last) value).map some

def deleteIn (doc : Document) (path : List String) (last : String) : Option Document :=
  match doc with
  | none => none
  | some contents => (contents.deleteIn yaml (path.map .str) (.str last)).map some

end Document

/-- The items of the sequence at a path. -/
def listAt (doc : Document) (path : List String) : Option (List Value) :=
  match Document.getIn yaml doc path with
  | some (.seq items) => some (yaml.toJSItems items)
  | _ => none

/-- Put the secret on the list of one service. -/
def grantSecret (secretName : String) (doc : Document) (service : String) : Option Document :=
  let list := (listAt yaml doc ["services", service, "secrets"]).getD []
  Document.setIn yaml doc ["services", service] "secrets"
    (.arr (if .scalar (.str secretName) ∈ list then list else list ++ [.scalar (.str secretName)]))

/-- Take the secret off the list of one service; whether it was there. -/
def revokeSecret (secretName : String) (edited : Document × Bool) (service : String) : Option (Document × Bool) :=
  match listAt yaml edited.1 ["services", service, "secrets"] with
  | none => some edited
  | some currentList =>
      let list := currentList.filter (· ≠ .scalar (.str secretName))
      if list.length = currentList.length then some edited
      else do
        let doc ← if list.isEmpty then Document.deleteIn yaml edited.1 ["services", service] "secrets"
          else Document.setIn yaml edited.1 ["services", service] "secrets" (.arr list)
        pure (doc, true)

/-- Take the declaration of the secret out, and the whole section with the last one. -/
def dropDeclaration (secretName : String) (doc : Document) : Option (Document × Bool) := do
  let declared := (Document.getIn yaml doc ["secrets", secretName]).isSome
  let doc ← if declared then Document.deleteIn yaml doc ["secrets"] secretName else some doc
  let doc ← match Document.getIn yaml doc ["secrets"] with
    | some (.map []) => Document.deleteIn yaml doc [] "secrets"
    | _ => some doc
  pure (doc, declared)

end

section
variable (library : Library)

/-- The compose text that refers to the secret. -/
def boundText (secretName fileName : String) (services : List String) (composeYAML : String) :
    Except SecretError String :=
  let declaredServices := library.readComposeServices composeYAML
  match services.find? (· ∉ declaredServices) with
  | some service => .error (.serviceUnknown service)
  | none =>
      let edited := do
        let doc ← Document.setIn library.yaml (library.parseDocument composeYAML) ["secrets", secretName] "file"
          (.scalar (.str ("./" ++ fileName)))
        let doc ← services.foldlM (grantSecret library.yaml secretName) doc
        library.serialiseEditedDocument composeYAML doc
      match edited with
      | some text => .ok text
      | none => .error .document

/-- The compose text without the secret, or nothing where the document did not change. -/
def unboundText (secretName : String) (composeYAML : String) : Except SecretError (Option String) :=
  let edited := do
    let start ← dropDeclaration library.yaml secretName (library.parseDocument composeYAML)
    (library.readComposeServices composeYAML).foldlM (revokeSecret library.yaml secretName) start
  match edited with
  | none => .error .document
  | some (_, false) => .ok none
  | some (doc, true) =>
      match library.serialiseEditedDocument composeYAML doc with
      | some text => .ok (some text)
      | none => .error .document

end

inductive Secret where
  | bind (secretName fileName : String) (services : List String)
  | unbind (secretName : String)

namespace Secret

/-- The checks before the first file is touched. -/
def refusal : Secret → Option SecretError
  | .bind secretName fileName _ =>
      if !safeSegment secretName.toList then some (.secretNameInvalid secretName)
      else if classifyStackFile fileName ≠ some .secret then some (.stackFileNotSecret fileName)
      else none
  | .unbind _ => none

/-- The secret file that has to be there. -/
def needs : Secret → Option String
  | .bind _ fileName _ => some fileName
  | .unbind _ => none

/-- The new compose text, if it is written at all. -/
def text (library : Library) (secret : Secret) (composeYAML : String) : Except SecretError (Option String) :=
  match secret with
  | .bind secretName fileName services =>
      (boundText library secretName fileName services composeYAML).map some
  | .unbind secretName => unboundText library secretName composeYAML

/-- The bindings to store. -/
def bindings (secret : Secret) (before : List SecretBinding) : List SecretBinding :=
  match secret with
  | .bind secretName fileName services =>
      before.filter (·.name ≠ secretName) ++ [{ name := secretName, fileName, services }]
  | .unbind secretName => before.filter (·.name ≠ secretName)

end Secret

end Dockge.StackSecrets
