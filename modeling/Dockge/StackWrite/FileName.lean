import Mathlib.Data.List.Basic

namespace Dockge.StackWrite

/-! The names a stack file may have. -/

inductive StackFileKind where
  | compose
  | env
  | secret
deriving DecidableEq, Repr

def isAlphanumeric (c : Char) : Bool :=
  ('0' ≤ c && c ≤ '9') || ('A' ≤ c && c ≤ 'Z') || ('a' ≤ c && c ≤ 'z')

/-- `^[A-Za-z0-9][A-Za-z0-9._-]*$` -/
def safeSegment (value : List Char) : Bool :=
  match value with
  | [] => false
  | first :: rest =>
      isAlphanumeric first && rest.all fun c => isAlphanumeric c || c = '.' || c = '_' || c = '-'

def acceptedComposeFileNames : List String :=
  ["compose.yaml", "docker-compose.yaml", "docker-compose.yml", "compose.yml"]

def isComposeFileName (fileName : String) : Bool :=
  fileName ∈ acceptedComposeFileNames ||
    (safeSegment fileName.toList &&
      (".yaml".toList.isSuffixOf fileName.toList || ".yml".toList.isSuffixOf fileName.toList))

/-- A file named after its kind: the bare name, the name with a suffix after `.` or `-`, or the
name as a suffix. -/
def isNamedAfter (bare : String) (fileName : String) : Bool :=
  let chars := fileName.toList
  if fileName = bare then true
  else if (bare.toList ++ ['.']).isPrefixOf chars || (bare.toList ++ ['-']).isPrefixOf chars then
    safeSegment (chars.drop (bare.toList.length + 1))
  else if bare.toList.isSuffixOf chars then
    safeSegment (chars.take (chars.length - bare.toList.length))
  else false

def isEnvFileName (fileName : String) : Bool := isNamedAfter ".env" fileName

def isSecretFileName (fileName : String) : Bool := isNamedAfter ".secret" fileName

/-- `includes("..")` -/
def hasParent : List Char → Bool
  | '.' :: '.' :: _ => true
  | _ :: rest => hasParent rest
  | [] => false

def classifyStackFile (fileName : String) : Option StackFileKind :=
  if fileName.toList.contains '/' || fileName.toList.contains '\\' ||
      hasParent fileName.toList then none
  else if isEnvFileName fileName then some .env
  else if isSecretFileName fileName then some .secret
  else if isComposeFileName fileName then some .compose
  else none

def maxFileNameLength : Nat := 255

/-- A plain file name inside the stack directory. -/
def isSafeStackFileName (fileName : String) : Bool :=
  let chars := fileName.toList
  if chars.length = 0 || maxFileNameLength < chars.length then false
  else if chars.contains '/' || chars.contains '\\' || chars.contains ':' then false
  else if hasParent chars || chars = ['.'] then false
  else if chars.any fun c => c.toNat ≤ 0x1F || c.toNat = 0x7F then false
  else (classifyStackFile fileName).isSome

end Dockge.StackWrite
