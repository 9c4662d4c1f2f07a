import Dockge.Data.OrderedMap
import Dockge.Data.JsonText
import Dockge.Data.Utf8
import Dockge.Data.Utf16
import Dockge.Data.StableSort

namespace Dockge.Git

open Data

/-! The files of a repository as a map, and the digest by which they are known again. -/

structure FileState where
  bytes : Bytes
  mode : Nat
deriving DecidableEq

abbrev FileTree := OrderedMap String FileState

/-! ## From the disk -/

inductive Node where
  | file (mode : Nat) (bytes : Bytes)
  | directory (entries : List (String × Node))
  /-- A symbolic link, a device, a socket -/
  | other

inductive TreeError where
  | stackPathMustBeDirectory
  | unsafeFilePath
  | symlinksNotSupported
  | repositoryTooLarge
deriving DecidableEq

def maxBytes : Nat := 20 * 1024 * 1024

def maxFileBytes : Nat := 1024 * 1024

def maxFiles : Nat := 1000

/-- A character that no path has: a backslash, a colon, a control character -/
def refused (char : Char) : Bool := char.toNat = 92 || char = ':' || char.toNat < 32 || char.toNat = 127

def safePart (part : List Char) : Bool :=
  !part.isEmpty && part ≠ ['.'] && part ≠ ['.', '.'] && part.map Char.toLower ≠ ['.', 'g', 'i', 't']

def safePath (name : String) : Bool :=
  name ≠ "" && (utf16 name).length ≤ 1024 && !name.toList.any refused && (name.toList.splitOn '/').all safePart

structure Walk where
  result : FileTree := .empty
  size : Nat := 0

mutual

def Node.walk (name : String) (walk : Walk) : Node → Except TreeError Walk
  | .other => .error .symlinksNotSupported
  | .directory entries => walkEntries name walk entries
  | .file mode bytes =>
      let size := walk.size + bytes.length
      if maxFileBytes < bytes.length ∨ maxBytes < size ∨ maxFiles ≤ walk.result.entries.length then
        .error .repositoryTooLarge
      else .ok { result := walk.result.set name { bytes, mode := mode &&& 0o777 }, size }

def walkEntries (inside : String) (walk : Walk) : List (String × Node) → Except TreeError Walk
  | [] => .ok walk
  | (entry, node) :: rest =>
      if inside = "" ∧ entry = ".git" then walkEntries inside walk rest
      else
        let name := if inside = "" then entry else inside ++ "/" ++ entry
        if safePath name then
          match node.walk name walk with
          | .error error => .error error
          | .ok walk => walkEntries inside walk rest
        else .error .unsafeFilePath

end

def snapshot : Node → Except TreeError FileTree
  | .directory entries =>
      match walkEntries "" {} entries with
      | .error error => .error error
      | .ok walk => .ok walk.result
  | _ => .error .stackPathMustBeDirectory

/-! ## Comparing -/

/-- The bits that say whether a file is run -/
def executable (mode : Nat) : Nat := mode &&& 0o111

def equalFile : Option FileState → Option FileState → Bool
  | none, none => true
  | some file, some other => file.bytes = other.bytes && executable file.mode = executable other.mode
  | _, _ => false

def sameTree (tree other : FileTree) : Bool :=
  tree.entries.length = other.entries.length &&
    tree.entries.all fun item => equalFile (some item.2) (other.get item.1)

/-! ## The digest -/

/-- `JSON.stringify([ name, file.mode, file.bytes.length ])`, with what follows it -/
def headerThen (name : String) (file : FileState) (rest : List Char) : List Char :=
  '[' :: quoteThen name.toList
    (',' :: numberThen file.mode (',' :: numberThen file.bytes.length (']' :: rest)))

def record (item : String × FileState) : Bytes := encodeUtf8 (headerThen item.1 item.2 []) ++ item.2.bytes

/-- What is fed to the hash -/
def recorded (tree : FileTree) : Bytes := (sortBy (fun item => utf16 item.1) tree.entries).flatMap record

variable {Digest : Type} (hash : Bytes → Digest)

def treeHash (tree : FileTree) : Digest := hash (recorded tree)

def filesHash (root : Node) : Except TreeError Digest := (snapshot root).map (treeHash hash)

/-! ## Reading a digest back -/

theorem headerThen_inj {first second : String × FileState} {left right : List Char}
    (same : headerThen first.1 first.2 left = headerThen second.1 second.2 right) :
    first.1 = second.1 ∧ first.2.mode = second.2.mode ∧ first.2.bytes.length = second.2.bytes.length ∧ left = right := by
  obtain ⟨name, afterName⟩ := quoteThen_inj (List.cons.inj same).2
  obtain ⟨mode, afterMode⟩ := numberThen_inj (by decide) (List.cons.inj afterName).2
  obtain ⟨length, afterLength⟩ := numberThen_inj (by decide) afterMode
  exact ⟨String.toList_inj.mp name, mode, length, afterLength⟩

theorem headerThen_append (name : String) (file : FileState) (left right : List Char) :
    headerThen name file (left ++ right) = headerThen name file left ++ right := by
  simp only [headerThen, quoteThen, numberThen, List.cons_append, List.append_assoc]

/-- A header says where its file ends, whatever the file holds. -/
theorem record_append_inj {first second : String × FileState} {left right : Bytes}
    (same : record first ++ left = record second ++ right) : first = second ∧ left = right := by
  unfold record at same
  rw [List.append_assoc, List.append_assoc] at same
  have equal (item : String × FileState) (longer : List Char) :
      headerThen item.1 item.2 [] ++ longer = headerThen item.1 item.2 longer := (headerThen_append _ _ [] longer).symm
  have header : first.1 = second.1 ∧ first.2.mode = second.2.mode ∧ first.2.bytes.length = second.2.bytes.length := by
    obtain ⟨longer, grows⟩ | ⟨longer, grows⟩ := encodeUtf8_append_prefix same
    · rw [equal] at grows
      obtain ⟨name, mode, length, -⟩ := headerThen_inj grows
      exact ⟨name, mode, length⟩
    · rw [equal] at grows
      obtain ⟨name, mode, length, -⟩ := headerThen_inj grows
      exact ⟨name.symm, mode.symm, length.symm⟩
  obtain ⟨name, bytes, mode⟩ := first
  obtain ⟨name_, bytes_, mode_⟩ := second
  obtain ⟨rfl, rfl, length⟩ := header
  have header : headerThen name { bytes, mode } [] = headerThen name { bytes := bytes_, mode } [] := by
    dsimp only at length
    simp only [headerThen, length]
  rw [header] at same
  obtain ⟨rfl, rest⟩ := List.append_inj (List.append_cancel_left same) length
  exact ⟨rfl, rest⟩

theorem record_ne_nil (item : String × FileState) : record item ≠ [] := by
  intro none_
  have header := (List.append_eq_nil_iff.mp none_).1
  have long := length_le_encodeUtf8 (headerThen item.1 item.2 [])
  rw [header] at long
  simp [headerThen] at long

theorem records_inj {first second : List (String × FileState)} (same : first.flatMap record = second.flatMap record) :
    first = second := by
  induction first generalizing second with
  | nil =>
      cases second with
      | nil => rfl
      | cons item rest =>
          rw [List.flatMap_cons] at same
          exact absurd (List.append_eq_nil_iff.mp same.symm).1 (record_ne_nil item)
  | cons item rest ih =>
      cases second with
      | nil =>
          rw [List.flatMap_cons] at same
          exact absurd (List.append_eq_nil_iff.mp same).1 (record_ne_nil item)
      | cons other tail =>
          rw [List.flatMap_cons, List.flatMap_cons] at same
          obtain ⟨rfl, remaining⟩ := record_append_inj same
          rw [ih remaining]

/-! ## The order of the map -/

/-- Two maps that answer the same hold the same entries in some order. -/
theorem perm_of_get {first second : FileTree} (same : ∀ name, first.get name = second.get name) :
    first.entries.Perm second.entries := by
  rw [List.perm_ext_iff_of_nodup first.distinct.of_map second.distinct.of_map]
  intro ⟨name, file⟩
  rw [← OrderedMap.get_eq_some, ← OrderedMap.get_eq_some, same]

theorem get_of_perm {first second : FileTree} (same : first.entries.Perm second.entries) (name : String) :
    first.get name = second.get name := by
  apply Option.ext
  intro file
  rw [OrderedMap.get_eq_some, OrderedMap.get_eq_some]
  exact same.mem_iff

theorem recorded_of_perm {first second : FileTree} (same : first.entries.Perm second.entries) :
    recorded first = recorded second := by
  unfold recorded
  have sorted : sortBy (fun item : String × FileState => utf16 item.1) first.entries =
      sortBy (fun item : String × FileState => utf16 item.1) second.entries := by
    have permuted := ((@sortBy_perm _ _ _ (fun item : String × FileState => utf16 item.1) first.entries).trans same).trans
      (@sortBy_perm _ _ _ (fun item : String × FileState => utf16 item.1) second.entries).symm
    refine List.Perm.eq_of_pairwise ?_ (sortBy_sorted _) (sortBy_sorted _) permuted
    intro item other member inside below above
    have names : item.1 = other.1 := utf16_inj (le_antisymm below above)
    have held := (sortBy_perm first.entries).subset member
    have held_ := same.symm.subset ((sortBy_perm second.entries).subset inside)
    exact List.inj_on_of_nodup_map first.distinct held held_ names
  rw [sorted]

theorem sameTree_of_get {first second : FileTree} (same : ∀ name, first.get name = second.get name) :
    sameTree first second = true := by
  rw [sameTree, Bool.and_eq_true, decide_eq_true_eq, List.all_eq_true]
  refine ⟨(perm_of_get same).length_eq, ?_⟩
  intro ⟨name, file⟩ member
  rw [← same, OrderedMap.get_eq_some.mpr member]
  simp [equalFile]

/-- The digest of a tree is the digest of no other. -/
theorem treeHash_identifies (injective : Function.Injective hash) (first second : FileTree) :
    (treeHash hash first = treeHash hash second ↔ ∀ name, first.get name = second.get name) ∧
      (first.entries.Perm second.entries → treeHash hash first = treeHash hash second) ∧
      (treeHash hash first = treeHash hash second → sameTree first second = true) ∧
      ∀ root, filesHash hash root = .ok (treeHash hash first) ↔
        ∃ tree, snapshot root = .ok tree ∧ ∀ name, tree.get name = first.get name := by
  have identifies (first second : FileTree) :
      treeHash hash first = treeHash hash second ↔ ∀ name, first.get name = second.get name := by
    constructor
    · intro same
      have sorted := records_inj (injective same)
      have permuted := (@sortBy_perm _ _ _ (fun item : String × FileState => utf16 item.1) first.entries).symm.trans
        (sorted ▸ sortBy_perm second.entries)
      exact get_of_perm permuted
    · intro same
      exact congrArg hash (recorded_of_perm (perm_of_get same))
  refine ⟨identifies first second, ?_, ?_, ?_⟩
  · exact fun permuted => congrArg hash (recorded_of_perm permuted)
  · exact fun same => sameTree_of_get ((identifies first second).mp same)
  · intro root
    rw [filesHash]
    cases snapshot root with
    | error error =>
        constructor
        · intro never
          cases never
        · intro ⟨tree, never, _⟩
          cases never
    | ok tree =>
        constructor
        · intro same
          exact ⟨tree, rfl, (identifies tree first).mp (Except.ok.inj same)⟩
        · intro ⟨other, same, equal⟩
          cases same
          exact congrArg Except.ok ((identifies tree first).mpr equal)

def plainFile (text : List UInt8) : FileState := { bytes := text, mode := 0o644 }

/-- A file holds what another file is recorded as. -/
def imitating : FileTree :=
  { entries := [("a", plainFile (record ("b", plainFile [1])))], distinct := List.nodup_singleton _ }

theorem treeHash_identifies_imitated :
    treeHash id (OrderedMap.set "b" (plainFile [1]) (OrderedMap.set "a" (plainFile []) .empty)) =
        treeHash id (OrderedMap.set "a" (plainFile []) (OrderedMap.set "b" (plainFile [1]) .empty)) ∧
      treeHash id imitating ≠ treeHash id (OrderedMap.set "b" (plainFile [1]) (OrderedMap.set "a" (plainFile []) .empty)) := by
  constructor
  · exact (treeHash_identifies id Function.injective_id _ _).2.1 (List.Perm.swap _ _ _)
  · intro same
    have missing := (treeHash_identifies id Function.injective_id _ _).1.mp same "b"
    cases missing

end Dockge.Git
