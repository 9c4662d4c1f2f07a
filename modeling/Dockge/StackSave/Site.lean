import Dockge.StackConfig.FileConfig
import Dockge.StackWrite.Write

namespace Dockge.StackSave

open Dockge.Data Program
open Dockge.StackConfig (Found StackFileConfig resolveConfig)
open Dockge.StackWrite

/-! A stack directory beside the stored selections, and what a page of the stack reads of them. -/

variable {Hash : Type}

structure Site (Hash : Type) where
  disk : Disk Hash StackFileConfig
  /-- The stack directory is there. -/
  directory : Bool
  /-- The names under which the directory may hold a file. -/
  entries : List String

def Site.present (site : Site Hash) (name : String) : Bool := (site.disk.files name).isSome

/-- Every file lies in the directory, under one of its names, and a file system takes the name. -/
structure Site.WellFormed (site : Site Hash) : Prop where
  listed : ∀ name, site.present name = true → name ∈ site.entries
  short : ∀ name, site.present name = true → name.toList.length ≤ maxFileNameLength
  empty : site.directory = false → ∀ name, site.present name = false

/-- Somebody else writes or removes a file. -/
def Site.edit (site : Site Hash) (change : String × Option File) : Site Hash :=
  { site with
    disk := site.disk.setFile change.1 change.2
    entries := change.1 :: site.entries }

inductive SaveError where
  | stackNameInvalid
  /-- `yaml.parse` threw. -/
  | yaml
  | envFormatInvalid
  | stackNameExists
  | stackNotFound
  | stackFileNameInvalid (file : String)
  /-- The selection names another file than the editor had open. -/
  | selectionConflict (expected actual : String)
  | write (error : WriteError)
  | io

/-- The save was refused as a conflict. -/
def SaveError.isConflict : SaveError → Bool
  | .selectionConflict _ _ => true
  | .write (.conflict _) => true
  | _ => false

abbrev SiteTask (Hash : Type) := Program (Site Hash) SaveError

def onDisk {α : Type} (task : DiskTask Hash StackFileConfig α) : SiteTask Hash α :=
  zoom (·.disk) (fun disk site => { site with disk }) SaveError.write task

def refuse (error : Option SaveError) : SiteTask Hash Unit :=
  match error with
  | some error => fail error
  | none => pure ()

/-- An operation that only reads, and what it answers where it fails. -/
def answering {α : Type} (answer : Site Hash → α) (failed : α) : SiteTask Hash α :=
  .operation fun fate site =>
    match fate with
    | .ok => (.done (answer site), site)
    | .fail | .late => (.done failed, site)
    | .kill => (.killed, site)

/-- `access` and `existsSync`: a failure means no. -/
def fileExists (there : Site Hash → Bool) : SiteTask Hash Bool := answering there false

/-- The first of the accepted names that is there: the file a `Stack` starts out with. -/
def constructed : List String → SiteTask Hash String
  | [] => pure "compose.yaml"
  | filename :: rest => do
      let there ← fileExists (·.present filename)
      if there then pure filename else constructed rest

/-- The entries that `lstat` finds. -/
def statEntries : List String → SiteTask Hash (List String)
  | [] => pure []
  | entry :: rest => do
      let there ← fileExists (·.present entry)
      let others ← statEntries rest
      pure (if there then entry :: others else others)

def byKind (entries : List String) : Found :=
  { composeFileNames := entries.filter (classifyStackFile · = some .compose)
    envFileNames := entries.filter (classifyStackFile · = some .env)
    secretFileNames := entries.filter (classifyStackFile · = some .secret) }

/-- What lies in the stack directory, by kind.  The lists are not sorted here: only the choice of a
default compose file depends on their order, and it sorts. -/
def scan : SiteTask Hash Found := do
  let entries ← answering (fun site => site.entries.filter site.present) []
  let there ← statEntries entries
  pure (byKind there)

/-- The selection in force and the compose file of a `Stack` that has loaded it. -/
structure Loaded where
  config : StackFileConfig
  composeFileName : String

def Loaded.activeEnvFileName (loaded : Loaded) : String :=
  if loaded.config.activeEnvFileName = "" then ".env" else loaded.config.activeEnvFileName

/-- The file a `Stack` uses: the selected one, or the one it started out with. -/
def loadedFrom (built : String) (config : StackFileConfig) : Loaded :=
  { config, composeFileName := if config.composeFileName = "" then built else config.composeFileName }

def loadFileConfig (name built : String) : SiteTask Hash Loaded := do
  let found ← scan
  let all ← onDisk getAll
  pure (loadedFrom built (resolveConfig (all name) found))

/-! ### The page -/

/-- What the editor read, or the last save answered.  No hash means that the file did not exist; a
field that is absent accepts whatever is there. -/
structure StackFileBaseline (Hash : Type) where
  compose : Option (Option Hash)
  env : Option (Option Hash)
  composeFileName : Option String
  envFileName : Option String

/-- A file as `readSelectedFile` remembers it: its text, or that it could not be read or is missing. -/
structure FileRead where
  content : String
  unread : Bool
  missing : Bool

def readStackFile (site : Site Hash) (fileName : String) : FileRead :=
  match site.disk.files fileName with
  | some file => { content := String.ofList (decodeUtf8 file.bytes), unread := false, missing := false }
  | none => { content := "", unread := false, missing := true }

def readSelectedFile (fileName : String) : SiteTask Hash FileRead :=
  if isSafeStackFileName fileName then
    answering (readStackFile · fileName) { content := "", unread := true, missing := false }
  else pure { content := "", unread := true, missing := false }

structure StackPage (Hash : Type) where
  composeYAML : String
  composeENV : String
  fileHashes : StackFileBaseline Hash

/-- `^[a-z0-9_-]+$` -/
def validateName (name : String) : Bool :=
  !name.toList.isEmpty && name.toList.all fun c =>
    ('a' ≤ c && c ≤ 'z') || ('0' ≤ c && c ≤ '9') || c = '_' || c = '-'

/-- The hashes of the page: a compose file has none when it could not be read, an env file also when
it is missing. -/
def fileHashes (sha256 : Bytes → Hash) (loaded : Loaded) (compose env : FileRead) : StackFileBaseline Hash :=
  { compose := some (if compose.unread then none else some (hashStackFileContent sha256 compose.content))
    env := some (if env.unread || env.missing then none else some (hashStackFileContent sha256 env.content))
    composeFileName := some loaded.composeFileName
    envFileName := some loaded.activeEnvFileName }

/-- `getStack` and the files of its `toJSON`. -/
def toJSON (sha256 : Bytes → Hash) (name : String) : SiteTask Hash (StackPage Hash) := do
  refuse (if validateName name then none else some .stackNameInvalid)
  let there ← fileExists (·.directory)
  refuse (if there then none else some .stackNotFound)
  let built ← constructed acceptedComposeFileNames
  let loaded ← loadFileConfig name built
  let compose ← readSelectedFile loaded.composeFileName
  let env ← readSelectedFile loaded.activeEnvFileName
  pure
    { composeYAML := compose.content
      composeENV := env.content
      fileHashes := fileHashes sha256 loaded compose env }

end Dockge.StackSave
