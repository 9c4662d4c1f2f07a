import Mathlib
import Dockge.Data.Json
import Dockge.Data.Text
import Dockge.Data.Walk
import Dockge.Git.TreeHash
import Dockge.StackConfig.FileConfig

namespace Dockge.Mcp.Fingerprint

open Data
open Dockge.Git (FileState)
open Dockge.StackConfig (StackFileConfig SecretBinding)
open Dockge.StackWrite (acceptedComposeFileNames)

/-! The fingerprint of what Compose reads in a stack directory, `stackOperationFingerprint`. -/

abbrev Part := List Char

/-- A path inside the directory -/
abbrev Path := List Part

/-- What `lstat` finds, and the content that can be read there -/
inductive Stat where
  | missing
  | failing
  | directory
  | file (state : FileState)
  | other
deriving DecidableEq

/-- A number of milliseconds as it is printed -/
structure Printed where
  text : List Char
  plain : ∀ char ∈ text, char.isDigit = true ∨ char = '.' ∨ char = '-' ∨ char = '+' ∨ char = 'e'
deriving DecidableEq

structure Identity where
  dev : Nat
  ino : Nat
  birthtimeMs : Printed
deriving DecidableEq

structure Directory where
  place : Path
  /-- The parts of an absolute path -/
  parted : ∀ part ∈ place, '/' ∉ part
  /-- Nothing where the place is no directory of its own -/
  identity : Option Identity
  names : List String
  stat : Path → Stat

inductive Refusal where
  | mcpOperationStale
  | mcpUnsupportedComposeInput
  /-- The error of `lstat`, or of the YAML library -/
  | thrown
  /-- The model ran out of turns. -/
  | outOfTurns
deriving DecidableEq

structure Reading where
  /-- What was fed to the hash -/
  fed : Bytes := []
  bytes : Nat := 0
  entries : Nat := 0
  seen : List (Path × Option FileState) := []
  composeSeen : List Path := []
deriving DecidableEq

abbrev Hashing := Walk Reading Refusal

/-! ## What is fed -/

/-- A path as its text -/
def textOf (path : Path) : List Char := ['/'].intercalate path

def fieldThen (name : String) (rest : List Char) : List Char := quoteThen name.toList (':' :: rest)

def textThen (text : String) (rest : List Char) : List Char := quoteThen text.toList rest

def bindingThen (binding : SecretBinding) (rest : List Char) : List Char :=
  '\x7b' :: fieldThen "name" (textThen binding.name (',' :: fieldThen "fileName" (textThen binding.fileName
    (',' :: fieldThen "services" (arrayThen textThen binding.services ('\x7d' :: rest))))))

/-- `JSON.stringify(config ?? null)`, with what follows it -/
def configThen (config : Option StackFileConfig) (rest : List Char) : List Char :=
  match config with
  | none => "null".toList ++ rest
  | some config =>
      '\x7b' :: fieldThen "composeFileName" (textThen config.composeFileName
        (',' :: fieldThen "envFileNames" (arrayThen textThen config.envFileNames
          (',' :: fieldThen "activeEnvFileName" (textThen config.activeEnvFileName
            (',' :: fieldThen "secretBindings" (arrayThen bindingThen config.secretBindings ('\x7d' :: rest))))))))

def headThen (identity : Identity) (config : Option StackFileConfig) (rest : List Char) : List Char :=
  numberThen identity.dev (':' :: numberThen identity.ino (':' :: (identity.birthtimeMs.text ++ configThen config rest)))

/-- `JSON.stringify([ relative, "absent" ])`, with what follows it -/
def absentThen (path : Path) (rest : List Char) : List Char :=
  '[' :: quoteThen (textOf path) (',' :: quoteThen "absent".toList (']' :: rest))

def record (item : Path × Option FileState) : Bytes :=
  match item.2 with
  | none => encodeUtf8 (absentThen item.1 [])
  | some file => Git.record (String.ofList (textOf item.1), file)

/-! ## Paths -/

/-- `path.resolve`, part by part -/
def resolved (parts : List Part) : Path :=
  parts.foldl (fun done part =>
    if part = [] ∨ part = ['.'] then done else if part = ['.', '.'] then done.dropLast else done ++ [part]) []

/-- `path.relative` -/
def relativeTo : Path → Path → Path
  | here :: rest, there :: others =>
      if here = there then relativeTo rest others
      else (here :: rest).map (fun _ => ['.', '.']) ++ there :: others
  | here, there => here.map (fun _ => ['.', '.']) ++ there

def gitDirectory : Part := ".git".toList

/-- The path a name stands for, `resolve` -/
def resolve (directory : Directory) (base : Path) (name : Option Json) : Hashing Path :=
  match name with
  | some (.str name) =>
      if name.toList = [] ∨ '$' ∈ name.toList ∨ Char.ofNat 0 ∈ name.toList ∨ name.toList.head? = some '/' then
        throw .mcpUnsupportedComposeInput
      else
        let relative := relativeTo (resolved directory.place) (resolved (directory.place ++ base ++ name.toList.splitOn '/'))
        if relative.head? = some ['.', '.'] ∨ gitDirectory ∈ relative then throw .mcpUnsupportedComposeInput
        else pure relative
  | _ => throw .mcpUnsupportedComposeInput

/-! ## Reading -/

def maxEntries : Nat := 1000

def maxFileBytes : Nat := 1024 * 1024

def maxBytes : Nat := 20 * 1024 * 1024

def maxComposeFiles : Nat := 32

/-- The directories a path leads through -/
def parentsOf (path : Path) : List Path := path.dropLast.inits.tail

def enter (directory : Directory) (parent : Path) : Hashing Unit :=
  match directory.stat parent with
  | .directory => pure ()
  | .missing | .failing => throw .thrown
  | _ => throw .mcpOperationStale

def remember (item : Path × Option FileState) (reading : Reading) : Reading :=
  { reading with fed := reading.fed ++ record item, seen := reading.seen ++ [item] }

def readNew (directory : Directory) (relative : Path) (optional : Bool) : Hashing (Option FileState) := do
  modifyThe Reading fun reading => { reading with entries := reading.entries + 1 }
  refuseIf (maxEntries < (← get).entries) .mcpOperationStale
  walkEach (parentsOf relative) (enter directory)
  match directory.stat relative with
  | .missing =>
      if optional then
        modifyThe Reading (remember (relative, none))
        pure none
      else throw .thrown
  | .failing => throw .thrown
  | .file file =>
      refuseIf (maxFileBytes < file.bytes.length) .mcpOperationStale
      modifyThe Reading fun reading => { reading with bytes := reading.bytes + file.bytes.length }
      refuseIf (maxBytes < (← get).bytes) .mcpOperationStale
      modifyThe Reading (remember (relative, some file))
      pure (some file)
  | _ => throw .mcpOperationStale

def read (directory : Directory) (relative : Path) (optional : Bool) : Hashing (Option FileState) := do
  match (← get).seen.find? fun item => item.1 = relative with
  | some held => pure held.2
  | none => readNew directory relative optional

/-! ## References -/

/-- Whether a value counts as true -/
def truthy : Option Json → Bool
  | none | some .null | some (.bool false) => false
  | some (.num value) => value != 0
  | some (.str text) => text != ""
  | _ => true

/-- `value && typeof value === "object"` -/
def isObject : Option Json → Bool
  | some (.arr _) | some (.obj _) => true
  | _ => false

def field (value : Option Json) (name : String) : Option Json :=
  match value with
  | some (.obj fields) => Fields.get fields name
  | _ => none

/-- `Object.values(value)`, of an object -/
def valuesOf : Option Json → List Json
  | some (.arr items) => items
  | some (.obj fields) => fields.map (·.2)
  | _ => []

/-- The items of a list, or the one value that stands for it -/
def entriesOf : Option Json → List Json
  | some (.arr items) => items
  | value => if truthy value then value.toList else []

def isFalse : Option Json → Bool
  | some (.bool false) => true
  | _ => false

variable (directory : Directory)

def fileRefs (value : Option Json) (base : Path) : Hashing Unit :=
  walkEach (entriesOf value) fun entry => do
    let object := isObject (some entry)
    let path ← resolve directory base (if object then field (some entry) "path" else some entry)
    discard <| read directory path (object && isFalse (field (some entry) "required"))

/-- The file that an object names, where it does -/
def fileRef (value : Option Json) (base : Path) (use : Path → Hashing Unit) : Hashing Unit :=
  if isObject value && (field value "file").isSome then do use (← resolve directory base (field value "file")) else pure ()

def readPlain (path : Path) : Hashing Unit := discard <| read directory path false

def serviceRefs (deployment : Bool) (compose : Path → Hashing Unit) (base : Path) (service : Json) : Hashing Unit := do
  let service := some service
  refuseIf (deployment = true ∧
    (truthy (field service "build") || truthy (field service "develop") || truthy (field service "provider")) = true)
    .mcpUnsupportedComposeInput
  fileRefs directory (field service "env_file") base
  fileRefs directory (field service "label_file") base
  fileRef directory (field service "credential_spec") base (readPlain directory)
  fileRef directory (field service "extends") base compose

def sectionRefs (document : Option Json) (base : Path) : Hashing Unit :=
  walkEach [field document "configs", field document "secrets"] fun part =>
    walkEach (valuesOf part) fun value => fileRef directory (some value) base (readPlain directory)

def includedPath (environment : Option Json) (compose : Path → Hashing Unit) (base : Path) (name : Option Json) : Hashing Unit := do
  let path ← resolve directory base name
  let dotEnv ← resolve directory path.dropLast (some (.str ".env"))
  discard <| read directory dotEnv true
  fileRefs directory environment path.dropLast
  compose path

def includeRefs (document : Option Json) (compose : Path → Hashing Unit) (base : Path) : Hashing Unit :=
  walkEach (entriesOf (field document "include")) fun entry => do
    let object := isObject (some entry)
    refuseIf (truthy (field (some entry) "project_directory") = true) .mcpUnsupportedComposeInput
    let paths := if object then field (some entry) "path" else some entry
    walkEach (match paths with
      | some (.arr items) => items.map some
      | path => [path]) (includedPath directory (field (some entry) "env_file") compose base)

variable (parse : Bytes → Option Json) (deployment : Bool)

def documentRefs (compose : Path → Hashing Unit) (base : Path) (content : Bytes) : Hashing Unit :=
  match parse content with
  | none => throw .thrown
  | some document => do
      refuseIf (isObject (some document) = false) .mcpUnsupportedComposeInput
      let services := field (some document) "services"
      walkEach (if isObject services then valuesOf services else []) fun service =>
        if isObject (some service) then serviceRefs directory deployment compose base service else pure ()
      sectionRefs directory (some document) base
      includeRefs directory (some document) compose base

/-- A compose file and what it names. -/
def compose : Nat → Path → Hashing Unit
  | turns, relative => do
      if relative ∈ (← get).composeSeen then pure ()
      else do
        modifyThe Reading fun reading => { reading with composeSeen := reading.composeSeen ++ [relative] }
        refuseIf (maxComposeFiles < (← get).composeSeen.length) .mcpUnsupportedComposeInput
        match ← read directory relative false with
        | none => pure ()
        | some file =>
            match turns with
            | 0 => throw .outOfTurns
            | turns + 1 => documentRefs directory parse deployment (compose turns) relative.dropLast file.bytes

/-- The compose file of a stack -/
def mainName (config : Option StackFileConfig) : Option String :=
  match config with
  | some config => if config.composeFileName ≠ "" then some config.composeFileName
      else directory.names.find? (· ∈ acceptedComposeFileNames)
  | none => directory.names.find? (· ∈ acceptedComposeFileNames)

def readName (name : String) : Hashing Unit := do
  readPlain directory (← resolve directory [] (some (.str name)))

def traversal (config : Option StackFileConfig) : Hashing Unit :=
  match mainName directory config with
  | none => throw .mcpUnsupportedComposeInput
  | some name => do
      if name = "" then throw .mcpUnsupportedComposeInput
      else do
        let path ← resolve directory [] (some (.str name))
        compose directory parse deployment maxComposeFiles path
        discard <| read directory [".env".toList] true
        walkEach (config.elim [] (·.envFileNames)) (readName directory)
        walkEach (config.elim [] fun config => config.secretBindings.map (·.fileName)) (readName directory)

/-- What was read, where nothing was refused -/
def readings (config : Option StackFileConfig) : Except Refusal Reading :=
  match directory.identity with
  | none => .error .mcpOperationStale
  | some identity =>
      ((traversal directory parse deployment config).run { fed := encodeUtf8 (headThen identity config []) }).map (·.2)

variable {Digest : Type} (hash : Bytes → Digest)

def stackOperationFingerprint (config : Option StackFileConfig) : Except Refusal Digest :=
  (readings directory parse deployment config).map fun reading => hash reading.fed

end Dockge.Mcp.Fingerprint
