import Dockge.StackWrite.FileName

namespace Dockge.StackConfig

open Dockge.StackWrite (acceptedComposeFileNames)

/-! Which of the files that are there a stack uses. -/

/-- A compose secret, the file that holds it and the services it was given to. -/
structure SecretBinding where
  name : String
  fileName : String
  services : List String
deriving DecidableEq, Repr

structure StackFileConfig where
  composeFileName : String
  envFileNames : List String
  activeEnvFileName : String
  secretBindings : List SecretBinding
deriving DecidableEq, Repr

/-- What a scan found in the stack directory, by kind. -/
structure Found where
  composeFileNames : List String
  envFileNames : List String
  secretFileNames : List String

/-- `sort()[0]` -/
def firstSorted : List String → Option String
  | [] => none
  | name :: rest =>
      match firstSorted rest with
      | some least => if least < name then some least else some name
      | none => some name

/-- The compose file of a stack without metadata. -/
def pickDefaultComposeFile (composeFileNames : List String) : String :=
  match acceptedComposeFileNames.find? (· ∈ composeFileNames) with
  | some accepted => accepted
  | none => (firstSorted composeFileNames).getD ""

/-- A stored choice survives as long as the file it names is still on disk. -/
def resolveConfig (stored : Option StackFileConfig) (found : Found) : StackFileConfig :=
  let kept := stored.bind fun stored =>
    if stored.composeFileName ≠ "" ∧ stored.composeFileName ∈ found.composeFileNames
    then some stored.composeFileName else none
  -- A stack that never had metadata keeps the historic behaviour of using .env
  let historic := stored.isNone && decide (".env" ∈ found.envFileNames)
  let envFileNames := (stored.elim [] fun stored => stored.envFileNames.filter (· ∈ found.envFileNames)) ++
    if historic then [".env"] else []
  let active := match stored with
    | some stored => if stored.activeEnvFileName ∈ found.envFileNames then stored.activeEnvFileName else ""
    | none => if historic then ".env" else ""
  { composeFileName := kept.getD (pickDefaultComposeFile found.composeFileNames)
    envFileNames
    activeEnvFileName := if active = "" then envFileNames.headD "" else active
    secretBindings := stored.elim [] fun stored =>
      stored.secretBindings.filter (·.fileName ∈ found.secretFileNames) }

end Dockge.StackConfig
