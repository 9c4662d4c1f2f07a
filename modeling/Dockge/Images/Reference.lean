import Dockge.Data.Text
import Dockge.Data.Json

namespace Dockge.Images

open Data

/-! Image references, and the digests of an image, as the panel reads them. -/

abbrev Text := List Char

def lowerOrDigit (char : Char) : Bool := ('a' ≤ char && char ≤ 'z') || ('0' ≤ char && char ≤ '9')

def letterOrDigit (char : Char) : Bool := lowerOrDigit char || ('A' ≤ char && char ≤ 'Z')

def isComponentSeparator (run : Text) : Bool := run = ['.'] || run = ['_'] || run = ['_', '_'] || run.all (· = '-')

/-- The rest of a component, after a letter or digit and a run of other characters -/
def componentFrom (run : Text) : Text → Bool
  | [] => run.isEmpty
  | char :: rest =>
      if lowerOrDigit char then (run.isEmpty || isComponentSeparator run) && componentFrom [] rest
      else componentFrom (run ++ [char]) rest

/-- `[a-z0-9]+(?:(?:[._]|__|-+)[a-z0-9]+)*` -/
def isComponent : Text → Bool
  | [] => false
  | first :: rest => lowerOrDigit first && componentFrom [] rest

def isRepository (text : Text) : Bool := (splitChars '/' text).all isComponent

/-- `^[A-Za-z0-9_][A-Za-z0-9_.-]{0,127}$` -/
def isTag : Text → Bool
  | [] => false
  | first :: rest =>
      (letterOrDigit first || first = '_') &&
        (rest.all fun char => letterOrDigit char || char = '_' || char = '.' || char = '-') && rest.length ≤ 127

/-- `^sha256:[a-f0-9]{64}$` -/
def isDigest (text : Text) : Bool :=
  text.take 7 = "sha256:".toList && (text.drop 7).length = 64 &&
    (text.drop 7).all fun char => ('a' ≤ char && char ≤ 'f') || ('0' ≤ char && char ≤ '9')

/-- `^[a-z0-9](?:[a-z0-9.-]*[a-z0-9])?(?::\d{1,5})?$` -/
def isHost (text : Text) : Bool :=
  let (name, port) := (cutFirst ':' text).elim (text, none) fun (name, port) => (name, some port)
  name.head?.any lowerOrDigit && name.getLast?.any lowerOrDigit &&
    (name.all fun char => lowerOrDigit char || char = '.' || char = '-') &&
    port.all fun port => 1 ≤ port.length && port.length ≤ 5 && port.all Char.isDigit

def dockerHub : List Text := ["docker.io".toList, "index.docker.io".toList, "registry-1.docker.io".toList]

structure ImageReference where
  host : Text
  repository : Text
  reference : Text
  registry : Text
deriving DecidableEq, Repr

section

variable (toLowerCase : Text → Text)

/-- The registry a name begins with, and what follows it -/
def registryOf (name : Text) : Text × Text :=
  let (first, rest) := (cutFirst '/' name).getD ([], name)
  let hasHost := '.' ∈ first || ':' ∈ first || first = "localhost".toList
  if hasHost then (toLowerCase first, rest) else ("docker.io".toList, name)

/-- The names that Docker Hub goes by, and the repositories it keeps without a name before them -/
def normalized (registry repository : Text) : Text × Text :=
  if registry ∈ dockerHub then
    ("docker.io".toList, if '/' ∈ repository then repository else "library/".toList ++ repository)
  else (registry, repository)

def cutDigest (name : Text) : Text × Option Text :=
  match cutFirst '@' name with
  | some (name, digest) => (name, some digest)
  | none => (name, none)

def cutTag (path : Text) : Text × Option Text :=
  match cutLast ':' path with
  | some (repository, tag) => (repository, some tag)
  | none => (path, none)

def parseImageReference (image : Text) : Option ImageReference :=
  let (name, digest) := cutDigest (trimChars image)
  if digest.any (!isDigest ·) then none
  else
    let (registry, path) := registryOf toLowerCase name
    let (repository, tag) := cutTag path
    if tag.any (!isTag ·) then none
    else
      let reference := digest.getD (tag.getD "latest".toList)
      let (registry, repository) := normalized registry repository
      if !isRepository repository || !isHost registry then none
      else
        let host := if registry = "docker.io".toList then "registry-1.docker.io".toList else registry
        some { host, repository, reference, registry }

end

/-! ## The digest of the local image -/

def repositoryOf (reference : Text) : Text :=
  let withoutDigest := (cutDigest reference).1
  let lastSlash := lastIndexOf '/' withoutDigest
  let lastColon := lastIndexOf ':' withoutDigest
  if lastSlash < lastColon then withoutDigest.take lastColon.toNat else withoutDigest

/-- `split("@")[1] ?? ""` -/
def behindAt (entry : Text) : Text := (splitChars '@' entry)[1]?.getD []

def entryOf : Json → Option Text
  | .str entry => some entry.toList
  | _ => none

/-- The digests of the image, parsed, unless they cannot be -/
def parseLocalRepoDigest (parsed : Option Json) (image : Text) : Option Text :=
  match parsed with
  | some (.arr items) =>
      let repository := repositoryOf image
      let entries := items.filterMap entryOf
      let own := (entries.find? fun entry => repositoryOf entry = repository).or entries.head?
      let digest := (own.map behindAt).getD []
      if "sha256:".toList.isPrefixOf digest then some digest else none
  | _ => none

def isNewerImage (localDigest remote : Option Text) : Option Bool :=
  match localDigest, remote with
  | some held, some served => if held = [] || served = [] then none else some (held ≠ served)
  | _, _ => none

/-- An entry of the digests of an image, `name@digest`, where the name has no tag -/
structure RepoDigest where
  name : Text
  digest : Text
  plain : ∀ char ∈ name, isSpace char = false ∧ char ≠ '@'
  untagged : repositoryOf name = name
  sha256 : isDigest digest = true

def RepoDigest.text (entry : RepoDigest) : Text := entry.name ++ '@' :: entry.digest

/-- What `docker image inspect` lists -/
def listed (entries : List RepoDigest) : Option Json := some (.arr (entries.map fun entry => .str (String.ofList entry.text)))

end Dockge.Images
