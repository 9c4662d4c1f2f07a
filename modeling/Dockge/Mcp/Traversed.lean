import Mathlib
import Dockge.Mcp.Fingerprint

namespace Dockge.Mcp.Fingerprint

open Data
open Dockge.Git (FileState)
open Dockge.StackConfig (StackFileConfig SecretBinding)

/-! What a traversal has read when nothing was refused. -/

variable {directory : Directory} {parse : Bytes → Option Json} {deployment : Bool} {base path relative : Path}
  {name value document : Option Json} {reading : Reading}

/-! ## Paths -/

/-- A path that stays in the directory and out of its `.git` -/
def Inside (path : Path) : Prop :=
  ∀ part ∈ path, part ≠ [] ∧ part ≠ ['.'] ∧ part ≠ ['.', '.'] ∧ part ≠ gitDirectory ∧ '/' ∉ part

def Resolves (directory : Directory) (base : Path) (name : Option Json) (path : Path) : Prop :=
  resolve directory base name = pure path

theorem Resolves.unique {other : Path} (one : Resolves directory base name path) (two : Resolves directory base name other) :
    path = other := by
  have same := congrFun (one.symm.trans two) {}
  exact (Prod.mk.inj (Except.ok.inj same)).1

theorem inside_dropLast (inside : Inside path) : Inside path.dropLast :=
  fun part member => inside part (List.mem_of_mem_dropLast member)

theorem resolved_parts (parts : List Part) (plain : ∀ part ∈ parts, '/' ∉ part) :
    ∀ part ∈ resolved parts, part ≠ [] ∧ part ≠ ['.'] ∧ part ≠ ['.', '.'] ∧ '/' ∉ part := by
  unfold resolved
  induction parts using List.reverseRecOn with
  | nil =>
      intro part never
      cases never
  | append_singleton parts last ih =>
      have earlier := ih fun part member => plain part (List.mem_append_left _ member)
      rw [List.foldl_append, List.foldl_cons, List.foldl_nil]
      split
      next => exact earlier
      next other =>
        rw [not_or] at other
        split
        next => exact fun part member => earlier part (List.mem_of_mem_dropLast member)
        next up =>
          intro part member
          obtain member | member := List.mem_append.mp member
          · exact earlier part member
          · rw [List.mem_singleton.mp member]
            exact ⟨other.1, other.2, up, plain last (List.mem_append_right _ List.mem_cons_self)⟩

theorem relativeTo_parts (here there : Path) :
    (relativeTo here there).head? = some ['.', '.'] ∨ ∀ part ∈ relativeTo here there, part ∈ there := by
  induction here, there using relativeTo.induct with
  | case1 first rest others ih =>
      rw [relativeTo, if_pos rfl]
      exact ih.imp_right fun all part member => List.mem_cons_of_mem _ (all part member)
  | case2 first rest second others different =>
      rw [relativeTo, if_neg different]
      exact .inl rfl
  | case3 here there other =>
      cases here with
      | nil => exact .inr fun part member => member
      | cons first rest =>
          cases there with
          | nil => exact .inl rfl
          | cons second others => exact (other first rest second others rfl rfl).elim

theorem not_mem_splitOn (text : List Char) : ∀ part ∈ text.splitOn '/', '/' ∉ part := by
  induction text with
  | nil =>
      intro part member
      rw [List.splitOn_nil, List.mem_singleton] at member
      rw [member]
      exact List.not_mem_nil
  | cons char text ih =>
      intro part member
      rw [List.splitOn_cons_eq_if_modifyHead] at member
      split at member
      next =>
        obtain rfl | member := List.mem_cons.mp member
        · exact List.not_mem_nil
        · exact ih part member
      next other =>
        cases found : text.splitOn '/' with
        | nil => exact absurd found (List.splitOn_ne_nil _ _)
        | cons first rest =>
            rw [found] at member ih
            obtain rfl | member := List.mem_cons.mp member
            · rw [List.mem_cons, not_or]
              exact ⟨fun same => other (beq_iff_eq.mpr same.symm), ih first List.mem_cons_self⟩
            · exact ih part (List.mem_cons_of_mem _ member)

/-- A name is resolved to one path inside the directory, or refused. -/
theorem resolve_cases (directory : Directory) (name : Option Json) (inside : Inside base) :
    resolve directory base name = throw .mcpUnsupportedComposeInput ∨
      ∃ path, Resolves directory base name path ∧ Inside path := by
  unfold Resolves resolve
  split
  next text =>
    dsimp only
    split
    next => exact .inl rfl
    next =>
      split
      next => exact .inl rfl
      next kept =>
        rw [not_or] at kept
        refine .inr ⟨_, rfl, ?_⟩
        intro part member
        have there := (relativeTo_parts _ _).resolve_left kept.1 part member
        have parts := resolved_parts (directory.place ++ base ++ text.toList.splitOn '/') (by
          intro part member
          obtain member | member := List.mem_append.mp member
          · obtain member | member := List.mem_append.mp member
            · exact directory.parted part member
            · exact (inside part member).2.2.2.2
          · exact not_mem_splitOn _ part member) part there
        exact ⟨parts.1, parts.2.1, parts.2.2.1, fun git => kept.2 (git ▸ member), parts.2.2.2⟩
  next => exact .inl rfl

/-! ## How a traversal goes on -/

def Found (directory : Directory) (item : Path × Option FileState) : Prop :=
  Inside item.1 ∧ (∀ parent ∈ parentsOf item.1, directory.stat parent = .directory) ∧
    (item.2 = none ∧ directory.stat item.1 = .missing ∨ ∃ file, item.2 = some file ∧ directory.stat item.1 = .file file)

def Saw (reading : Reading) (path : Path) : Prop := ∃ held, (path, held) ∈ reading.seen

structure Sound (directory : Directory) (reading : Reading) : Prop where
  found : ∀ item ∈ reading.seen, Found directory item
  once : (reading.seen.map Prod.fst).Nodup

/-- What an entry of a list of files names -/
def entryName (entry : Json) : Option Json := if isObject (some entry) then field (some entry) "path" else some entry

def servicesOf (document : Option Json) : List Json :=
  if isObject (field document "services") then valuesOf (field document "services") else []

/-- The paths of an include, each by its name -/
def includeNames (entry : Json) : List (Option Json) :=
  match (if isObject (some entry) then field (some entry) "path" else some entry) with
  | some (.arr items) => items.map some
  | path => [path]

/-- The files a compose file names, each from a base, without those it includes or extends -/
inductive NamesFile (directory : Directory) (base : Path) (document : Option Json) : Path → Option Json → Prop
  | list {service entry : Json} {key : String} (listed : service ∈ servicesOf document)
      (object : isObject (some service) = true) (known : key = "env_file" ∨ key = "label_file")
      (named : entry ∈ entriesOf (field (some service) key)) : NamesFile directory base document base (entryName entry)
  | credential {service : Json} (listed : service ∈ servicesOf document) (object : isObject (some service) = true)
      (some_ : (field (field (some service) "credential_spec") "file").isSome = true) :
      NamesFile directory base document base (field (field (some service) "credential_spec") "file")
  | part {key : String} {value : Json} (known : key = "configs" ∨ key = "secrets")
      (listed : value ∈ valuesOf (field document key)) (some_ : (field (some value) "file").isSome = true) :
      NamesFile directory base document base (field (some value) "file")
  | dotEnv {entry : Json} {name : Option Json} {included : Path} (listed : entry ∈ entriesOf (field document "include"))
      (named : name ∈ includeNames entry) (includes : Resolves directory base name included) :
      NamesFile directory base document included.dropLast (some (.str ".env"))
  | environment {entry file : Json} {name : Option Json} {included : Path}
      (listed : entry ∈ entriesOf (field document "include")) (named : name ∈ includeNames entry)
      (includes : Resolves directory base name included) (file_ : file ∈ entriesOf (field (some entry) "env_file")) :
      NamesFile directory base document included.dropLast (entryName file)

/-- The compose files a compose file includes or extends -/
inductive NamesCompose (document : Option Json) : Option Json → Prop
  | extends_ {service : Json} (listed : service ∈ servicesOf document) (object : isObject (some service) = true)
      (some_ : (field (field (some service) "extends") "file").isSome = true) :
      NamesCompose document (field (field (some service) "extends") "file")
  | include_ {entry : Json} {name : Option Json} (listed : entry ∈ entriesOf (field document "include"))
      (named : name ∈ includeNames entry) : NamesCompose document name

structure DocumentDone (directory : Directory) (base : Path) (document : Json) (reading : Reading) : Prop where
  files : ∀ place name, NamesFile directory base (some document) place name →
    ∃ path, Resolves directory place name path ∧ Saw reading path
  composes : ∀ name, NamesCompose (some document) name →
    ∃ path, Resolves directory base name path ∧ path ∈ reading.composeSeen

/-- A compose file was read, and so was what it names. -/
structure Done (directory : Directory) (parse : Bytes → Option Json) (reading : Reading) (path : Path) : Prop where
  saw : Saw reading path
  named : ∀ file, directory.stat path = .file file → ∀ document, parse file.bytes = some document →
    DocumentDone directory path.dropLast document reading

structure Goes (directory : Directory) (parse : Bytes → Option Json) (before after : Reading) : Prop where
  grown : ∃ items, after.seen = before.seen ++ items ∧ after.fed = before.fed ++ items.flatMap record
  sound : Sound directory before → Sound directory after
  visited : before.composeSeen <+: after.composeSeen
  done : ∀ path ∈ after.composeSeen, path ∈ before.composeSeen ∨ Done directory parse after path

variable {before after : Reading}

theorem Goes.saw (goes : Goes directory parse before after) (saw : Saw before path) : Saw after path := by
  obtain ⟨held, member⟩ := saw
  obtain ⟨items, seen, -⟩ := goes.grown
  exact ⟨held, seen ▸ List.mem_append_left _ member⟩

theorem Goes.visits (goes : Goes directory parse before after) (visited : path ∈ before.composeSeen) :
    path ∈ after.composeSeen := goes.visited.subset visited

theorem Goes.documentDone {document : Json} (goes : Goes directory parse before after)
    (done : DocumentDone directory base document before) : DocumentDone directory base document after :=
  ⟨fun place name names => (done.files place name names).imp fun _ held => ⟨held.1, goes.saw held.2⟩,
    fun name names => (done.composes name names).imp fun _ held => ⟨held.1, goes.visits held.2⟩⟩

theorem Goes.stays (goes : Goes directory parse before after) (done : Done directory parse before path) :
    Done directory parse after path :=
  ⟨goes.saw done.saw, fun file stat document parsed => goes.documentDone (done.named file stat document parsed)⟩

instance : Std.Refl (Goes directory parse) where
  refl _ := ⟨⟨[], (List.append_nil _).symm, (List.append_nil _).symm⟩, id, List.prefix_refl _, fun _ member => .inl member⟩

instance : IsTrans Reading (Goes directory parse) where
  trans first second third one two := by
    obtain ⟨items, seen, fed⟩ := one.grown
    obtain ⟨items_, seen_, fed_⟩ := two.grown
    refine ⟨⟨items ++ items_, ?_, ?_⟩, two.sound ∘ one.sound, one.visited.trans two.visited, ?_⟩
    · rw [seen_, seen, List.append_assoc]
    · rw [fed_, fed, List.flatMap_append, List.append_assoc]
    · intro path member
      obtain member | done := two.done path member
      · exact (one.done path member).imp_right two.stays
      · exact .inr done

/-- The model has turns enough, and every reading so far was of what is there. -/
structure Ready (directory : Directory) (turns : Nat) (reading : Reading) : Prop where
  sound : Sound directory reading
  turns : maxComposeFiles ≤ turns + reading.composeSeen.length

theorem ready_stable (turns : Nat) : Data.Stable (Goes directory parse) (Ready directory turns) := by
  intro state reached goes ready
  have longer := goes.visited.length_le
  have enough := ready.turns
  exact ⟨goes.sound ready.sound, by omega⟩

def Refuses (error : Refusal) : Prop := error ≠ .outOfTurns

instance (error : Refusal) : Decidable (Refuses error) := inferInstanceAs (Decidable (_ ≠ _))

/-- A program of the traversal, from where it is ready -/
abbrev Reads (directory : Directory) (parse : Bytes → Option Json) (turns : Nat) {α : Type} (program : Hashing α)
    (after : α → Reading → Prop) : Prop :=
  Walks (Goes directory parse) Refuses (Ready directory turns) program after

/-! ## Reading one file -/

variable {turns : Nat}

theorem saw_stable (path : Path) : Data.Stable (Goes directory parse) fun reached => Saw reached path :=
  fun _ _ goes saw => goes.saw saw

theorem visits_stable (path : Path) : Data.Stable (Goes directory parse) fun reached => path ∈ reached.composeSeen :=
  fun _ _ goes visited => goes.visits visited

theorem resolve_reads (inside : Inside base) (name : Option Json) :
    Reads directory parse turns (resolve directory base name) fun path reached =>
      (Resolves directory base name path ∧ Inside path) ∧ Ready directory turns reached := by
  obtain refused | ⟨path, resolves, within⟩ := resolve_cases directory name inside
  · rw [refused]
    exact Walks.throw (by decide)
  · rw [show resolve directory base name = pure path from resolves]
    exact Walks.pure fun state ready => ⟨⟨resolves, within⟩, ready⟩

theorem enter_reads (parent : Path) :
    Walks Eq Refuses (fun _ => True) (enter directory parent) fun _ _ => directory.stat parent = .directory := by
  unfold enter
  split
  next is => exact Walks.pure fun _ _ => is
  next => exact Walks.throw (by decide)
  next => exact Walks.throw (by decide)
  next => exact Walks.throw (by decide)

/-- A path that was not read yet -/
structure Unread (directory : Directory) (turns : Nat) (relative : Path) (reading : Reading) : Prop where
  ready : Ready directory turns reading
  free : relative ∉ reading.seen.map Prod.fst

theorem entered_reads (relative : Path) :
    Walks (Goes directory parse) Refuses (Unread directory turns relative) (walkEach (parentsOf relative) (enter directory))
      fun _ reached => (∀ parent ∈ parentsOf relative, directory.stat parent = .directory) ∧ Unread directory turns relative reached := by
  have entered : Walks Eq Refuses (Unread directory turns relative) (walkEach (parentsOf relative) (enter directory))
      fun _ _ => ∀ parent ∈ parentsOf relative, directory.stat parent = .directory :=
    (Walks.each (fun parent _ => enter_reads parent) (fun _ _ _ _ => trivial)
      (fun _ _ _ _ _ is => is)).strengthen fun _ _ => trivial
  exact entered.still

/-- A change of the counters alone -/
structure Counts (change : Reading → Reading) : Prop where
  seen : ∀ reading, (change reading).seen = reading.seen
  fed : ∀ reading, (change reading).fed = reading.fed
  composeSeen : ∀ reading, (change reading).composeSeen = reading.composeSeen

theorem Counts.reads {change : Reading → Reading} (counts : Counts change) :
    Walks (Goes directory parse) Refuses (Unread directory turns relative) (modifyThe Reading change)
      fun _ => Unread directory turns relative := by
  refine Walks.modify fun state unread => ?_
  have sound : Sound directory state → Sound directory (change state) := by
    intro sound
    refine ⟨?_, ?_⟩
    · rw [counts.seen]
      exact sound.found
    · rw [counts.seen]
      exact sound.once
  refine ⟨⟨⟨[], ?_, ?_⟩, sound, ?_, ?_⟩, ⟨sound unread.ready.sound, ?_⟩, ?_⟩
  · rw [counts.seen, List.append_nil]
  · rw [counts.fed, List.flatMap_nil, List.append_nil]
  · rw [counts.composeSeen]
  · intro path member
    rw [counts.composeSeen] at member
    exact .inl member
  · rw [counts.composeSeen]
    exact unread.ready.turns
  · rw [counts.seen]
    exact unread.free

theorem remember_reads {item : Path × Option FileState} (found : Found directory item) :
    Walks (Goes directory parse) Refuses (Unread directory turns item.1) (modifyThe Reading (remember item))
      fun _ reached => item ∈ reached.seen := by
  refine Walks.modify fun state unread => ⟨⟨⟨[item], rfl, ?_⟩, ?_, List.prefix_refl _, fun _ member => .inl member⟩, ?_⟩
  · rw [List.flatMap_singleton]
    rfl
  · intro sound
    refine ⟨?_, ?_⟩
    · intro other member
      obtain member | member := List.mem_append.mp member
      · exact sound.found other member
      · rwa [List.mem_singleton.mp member]
    · change ((state.seen ++ [item]).map Prod.fst).Nodup
      rw [List.map_append, List.map_singleton, List.nodup_append]
      refine ⟨sound.once, List.nodup_singleton _, ?_⟩
      intro held member last here same
      exact unread.free (List.mem_singleton.mp here ▸ same ▸ member)
  · exact List.mem_append_right _ List.mem_cons_self

/-- A path that was not read yet is read and remembered with what is there. -/
theorem readNew_reads (inside : Inside relative) (optional : Bool) :
    Walks (Goes directory parse) Refuses (Unread directory turns relative) (readNew directory relative optional)
      fun held reached => (relative, held) ∈ reached.seen := by
  have entries : Counts fun reading => { reading with entries := reading.entries + 1 } :=
    ⟨fun _ => rfl, fun _ => rfl, fun _ => rfl⟩
  have bytes : ∀ file : FileState, Counts fun reading => { reading with bytes := reading.bytes + file.bytes.length } :=
    fun _ => ⟨fun _ => rfl, fun _ => rfl, fun _ => rfl⟩
  unfold readNew
  refine Walks.bind entries.reads fun _ => Walks.bind Walks.get fun counted => ?_
  refine Walks.bind (Walks.refuseIf (by decide)) fun _ => ?_
  refine Walks.bind ((entered_reads relative).strengthen fun _ held => held.1.2) fun _ => ?_
  split
  next missing =>
    refine Walks.ite (fun _ => ?_) fun _ => Walks.throw (by decide)
    intro state ⟨parents, unread⟩
    have found : Found directory (relative, none) := ⟨inside, parents, .inl ⟨rfl, missing⟩⟩
    exact Walks.bind (remember_reads found) (fun _ => Walks.pure fun _ held => held) state unread
  next => exact Walks.throw (by decide)
  next file there =>
    intro state ⟨parents, unread⟩
    have found : Found directory (relative, some file) := ⟨inside, parents, .inr ⟨file, rfl, there⟩⟩
    refine Walks.bind (Walks.refuseIf (by decide)) (fun _ => ?_) state unread
    refine Walks.bind ((bytes file).reads.strengthen fun _ held => held.1) fun _ => Walks.bind Walks.get fun counted => ?_
    refine Walks.bind (Walks.refuseIf (by decide)) fun _ => ?_
    exact Walks.bind ((remember_reads found).strengthen fun _ held => held.1.2) fun _ => Walks.pure fun _ held => held
  next => exact Walks.throw (by decide)

theorem read_reads (inside : Inside relative) (optional : Bool) :
    Reads directory parse turns (read directory relative optional) fun held reached => (relative, held) ∈ reached.seen := by
  unfold read
  refine Walks.bind Walks.get fun state => ?_
  split
  next held found =>
    refine Walks.pure ?_
    intro reached ⟨same, _⟩
    have named : held.1 = relative := by
      have named := List.find?_some found
      exact of_decide_eq_true named
    rw [← same, ← named]
    exact List.mem_of_find?_eq_some found
  next missing =>
    refine (@readNew_reads directory parse relative turns inside optional).strengthen ?_
    intro reached ⟨same, ready⟩
    refine ⟨ready, ?_⟩
    intro member
    obtain ⟨item, inside_, named⟩ := List.mem_map.mp member
    rw [← same] at inside_
    exact List.find?_eq_none.mp missing item inside_ (decide_eq_true named)

/-! ## References -/

theorem discard_reads {α : Type} {program : Hashing α} {after : Reading → Prop}
    (reads : Reads directory parse turns program fun _ => after) :
    Reads directory parse turns (discard program) fun _ => after := by
  intro state ready
  obtain ⟨returns, refused⟩ := reads state ready
  change (∀ value reached, (Functor.map (fun _ => ()) program) state = .ok (value, reached) → _) ∧
    ∀ error, (Functor.map (fun _ => ()) program) state = .error error → _
  change (∀ value reached, (program state >>= fun pair => pure ((), pair.2)) = .ok (value, reached) → _) ∧
    ∀ error, (program state >>= fun pair => pure ((), pair.2)) = .error error → _
  cases ran : program state with
  | error error => exact ⟨fun value reached never => (by cases never), fun found same => Except.error.inj same ▸ refused error ran⟩
  | ok pair =>
      refine ⟨fun value reached same => ?_, fun error never => (by cases never)⟩
      obtain ⟨-, rfl⟩ := Prod.mk.inj (Except.ok.inj same)
      exact returns pair.1 pair.2 ran

theorem readPlain_reads (inside : Inside path) :
    Reads directory parse turns (readPlain directory path) fun _ reached => Saw reached path :=
  discard_reads ((read_reads inside false).mono fun held _ member => ⟨held, member⟩)

/-- Every entry of a list of files was read. -/
def ListDone (directory : Directory) (base : Path) (value : Option Json) (reading : Reading) : Prop :=
  ∀ entry ∈ entriesOf value, ∃ path, Resolves directory base (entryName entry) path ∧ Saw reading path

theorem listDone_stable (value : Option Json) : Data.Stable (Goes directory parse) (ListDone directory base value) :=
  fun _ _ goes all entry member => (all entry member).imp fun _ held => ⟨held.1, goes.saw held.2⟩

/-- The file an object names was used. -/
def FileDone (directory : Directory) (base : Path) (value : Option Json) (done : Path → Reading → Prop) (reading : Reading) :
    Prop :=
  (field value "file").isSome = true → ∃ path, Resolves directory base (field value "file") path ∧ done path reading

theorem fileDone_stable (value : Option Json) {done : Path → Reading → Prop}
    (stays : ∀ path, Data.Stable (Goes directory parse) (done path)) :
    Data.Stable (Goes directory parse) (FileDone directory base value done) :=
  fun state reached goes all some_ => (all some_).imp fun path held => ⟨held.1, stays path state reached goes held.2⟩

theorem fileRefs_reads (inside : Inside base) (value : Option Json) :
    Reads directory parse turns (fileRefs directory value base) fun _ => ListDone directory base value := by
  refine Walks.each (fun entry _ => ?_) (ready_stable turns) fun entry _ state reached goes held =>
    held.imp fun _ held => ⟨held.1, goes.saw held.2⟩
  refine Walks.bind (resolve_reads inside _) fun path => ?_
  intro state ⟨⟨resolves, within⟩, ready⟩
  refine discard_reads ((read_reads within _).mono ?_) state ready
  intro held reached member
  exact ⟨path, resolves, held, member⟩

theorem fileRef_reads (inside : Inside base) (value : Option Json) {use : Path → Hashing Unit} {done : Path → Reading → Prop}
    (uses : ∀ path, Inside path → Reads directory parse turns (use path) fun _ => done path) :
    Reads directory parse turns (fileRef directory value base use) fun _ => FileDone directory base value done := by
  unfold fileRef
  refine Walks.ite (fun _ => ?_) fun plain => ?_
  · refine Walks.bind (resolve_reads inside _) fun path => ?_
    intro state ⟨⟨resolves, within⟩, ready⟩
    exact (uses path within).mono (fun _ _ holds _ => ⟨path, resolves, holds⟩) state ready
  · refine Walks.pure fun state _ some_ => ?_
    have object : isObject value = true := by
      cases value with
      | none => cases some_
      | some value =>
          cases value with
          | obj fields => rfl
          | null | bool | num | str | arr => cases some_
    rw [object, some_] at plain
    exact absurd rfl plain

structure ServiceDone (directory : Directory) (base : Path) (service : Json) (reading : Reading) : Prop where
  environment : ListDone directory base (field (some service) "env_file") reading
  labels : ListDone directory base (field (some service) "label_file") reading
  credential : FileDone directory base (field (some service) "credential_spec") (fun path reading => Saw reading path) reading
  extends_ : FileDone directory base (field (some service) "extends") (fun path reading => path ∈ reading.composeSeen) reading

theorem serviceDone_stable (service : Json) : Data.Stable (Goes directory parse) (ServiceDone directory base service) :=
  fun state reached goes done =>
    ⟨listDone_stable _ state reached goes done.environment, listDone_stable _ state reached goes done.labels,
      fileDone_stable _ saw_stable state reached goes done.credential,
      fileDone_stable _ visits_stable state reached goes done.extends_⟩

variable {compose_ : Path → Hashing Unit}

theorem serviceRefs_reads (inside : Inside base) (service : Json)
    (uses : ∀ path, Inside path → Reads directory parse turns (compose_ path) fun _ reached => path ∈ reached.composeSeen) :
    Reads directory parse turns (serviceRefs directory deployment compose_ base service) fun _ =>
      ServiceDone directory base service := by
  unfold serviceRefs
  refine Walks.bind (Walks.refuseIf (by decide)) fun _ => Walks.strengthen ?_ fun _ held => held.1
  refine (Walks.andThen (fileRefs_reads inside _) (Walks.andThen (fileRefs_reads inside _)
    (Walks.andThen (fileRef_reads inside _ fun path within => readPlain_reads within) (fileRef_reads inside _ uses)
      (ready_stable turns) (fileDone_stable _ saw_stable))
    (ready_stable turns) (listDone_stable _)) (ready_stable turns) (listDone_stable _)).mono ?_
  intro _ reached ⟨environment, labels, credential, extends_⟩
  exact ⟨environment, labels, credential, extends_⟩

/-- The files of the configs and the secrets were read. -/
def PartsDone (directory : Directory) (base : Path) (document : Option Json) (reading : Reading) : Prop :=
  ∀ part ∈ [field document "configs", field document "secrets"], ∀ value ∈ valuesOf part,
    FileDone directory base (some value) (fun path reading => Saw reading path) reading

theorem partsDone_stable (document : Option Json) : Data.Stable (Goes directory parse) (PartsDone directory base document) :=
  fun state reached goes all part member value listed =>
    fileDone_stable _ saw_stable state reached goes (all part member value listed)

theorem sectionRefs_reads (inside : Inside base) (document : Option Json) :
    Reads directory parse turns (sectionRefs directory document base) fun _ => PartsDone directory base document := by
  refine Walks.each (fun part _ => ?_) (ready_stable turns) ?_
  · refine Walks.each (fun value _ => fileRef_reads inside _ fun path within => readPlain_reads within) (ready_stable turns) ?_
    exact fun value _ => fileDone_stable _ saw_stable
  · exact fun part _ state reached goes all value listed =>
      fileDone_stable _ saw_stable state reached goes (all value listed)

/-- A path of an include was visited, after the environment next to it. -/
def IncludedDone (directory : Directory) (base : Path) (environment name : Option Json) (reading : Reading) : Prop :=
  ∃ included, Resolves directory base name included ∧
    (∃ path, Resolves directory included.dropLast (some (.str ".env")) path ∧ Saw reading path) ∧
      ListDone directory included.dropLast environment reading ∧ included ∈ reading.composeSeen

theorem includedDone_stable (environment name : Option Json) :
    Data.Stable (Goes directory parse) (IncludedDone directory base environment name) := by
  intro state reached goes ⟨included, resolves, ⟨path, found, saw⟩, files, visited⟩
  exact ⟨included, resolves, ⟨path, found, goes.saw saw⟩, listDone_stable _ state reached goes files, goes.visits visited⟩

theorem includedPath_reads (inside : Inside base) (environment name : Option Json)
    (uses : ∀ path, Inside path → Reads directory parse turns (compose_ path) fun _ reached => path ∈ reached.composeSeen) :
    Reads directory parse turns (includedPath directory environment compose_ base name) fun _ =>
      IncludedDone directory base environment name := by
  unfold includedPath
  refine Walks.bind (resolve_reads inside name) fun path => ?_
  intro state ⟨⟨resolves, within⟩, ready⟩
  refine Walks.bind (resolve_reads (inside_dropLast within) _) (fun dotEnv => ?_) state ready
  intro state ⟨⟨resolvesEnv, withinEnv⟩, ready⟩
  refine (Walks.andThen (discard_reads ((read_reads withinEnv true).mono fun held _ member => ⟨held, member⟩))
    (Walks.andThen (fileRefs_reads (inside_dropLast within) environment) (uses path within) (ready_stable turns)
      (listDone_stable _)) (ready_stable turns) (saw_stable dotEnv)).mono ?_ state ready
  intro _ reached ⟨saw, files, visited⟩
  exact ⟨path, resolves, ⟨dotEnv, resolvesEnv, saw⟩, files, visited⟩

def IncludesDone (directory : Directory) (base : Path) (document : Option Json) (reading : Reading) : Prop :=
  ∀ entry ∈ entriesOf (field document "include"), ∀ name ∈ includeNames entry,
    IncludedDone directory base (field (some entry) "env_file") name reading

theorem includeRefs_reads (inside : Inside base) (document : Option Json)
    (uses : ∀ path, Inside path → Reads directory parse turns (compose_ path) fun _ reached => path ∈ reached.composeSeen) :
    Reads directory parse turns (includeRefs directory document compose_ base) fun _ => IncludesDone directory base document := by
  refine Walks.each (fun entry _ => ?_) (ready_stable turns) ?_
  · refine Walks.bind (Walks.refuseIf (by decide)) fun _ => Walks.strengthen ?_ fun _ held => held.1
    refine Walks.each (fun name _ => includedPath_reads inside _ name uses) (ready_stable turns) ?_
    exact fun name _ => includedDone_stable _ name
  · exact fun entry _ state reached goes all name named => includedDone_stable _ _ state reached goes (all name named)

/-! ## Compose files -/

theorem documentDone_of {document : Json}
    (services : ∀ service ∈ servicesOf (some document), isObject (some service) = true → ServiceDone directory base service reading)
    (parts : PartsDone directory base (some document) reading) (includes : IncludesDone directory base (some document) reading) :
    DocumentDone directory base document reading := by
  refine ⟨fun place name names => ?_, fun name names => ?_⟩
  · cases names with
    | list listed object known named =>
        obtain rfl | rfl := known
        · exact (services _ listed object).environment _ named
        · exact (services _ listed object).labels _ named
    | credential listed object some_ => exact (services _ listed object).credential some_
    | part known listed some_ =>
        obtain rfl | rfl := known
        · exact parts _ List.mem_cons_self _ listed some_
        · exact parts _ (List.mem_cons_of_mem _ List.mem_cons_self) _ listed some_
    | dotEnv listed named resolves =>
        obtain ⟨included, found, dotEnv, -⟩ := includes _ listed _ named
        rw [resolves.unique found]
        exact dotEnv
    | environment listed named resolves file_ =>
        obtain ⟨included, found, -, files, -⟩ := includes _ listed _ named
        rw [resolves.unique found]
        exact files _ file_
  · cases names with
    | extends_ listed object some_ => exact (services _ listed object).extends_ some_
    | include_ listed named =>
        obtain ⟨included, found, -, -, visited⟩ := includes _ listed _ named
        exact ⟨included, found, visited⟩

theorem documentRefs_reads (inside : Inside base) (content : Bytes)
    (uses : ∀ path, Inside path → Reads directory parse turns (compose_ path) fun _ reached => path ∈ reached.composeSeen) :
    Reads directory parse turns (documentRefs directory parse deployment compose_ base content) fun _ reached =>
      ∀ document, parse content = some document → DocumentDone directory base document reached := by
  unfold documentRefs
  split
  next => exact Walks.throw (by decide)
  next document parsed =>
    refine Walks.bind (Walks.refuseIf (by decide)) fun _ => Walks.strengthen ?_ fun _ held => held.1
    have services : Reads directory parse turns
        (walkEach (servicesOf (some document)) fun service =>
          if isObject (some service) then serviceRefs directory deployment compose_ base service else pure ())
        fun _ reached => ∀ service ∈ servicesOf (some document), isObject (some service) = true →
          ServiceDone directory base service reached := by
      refine Walks.each (fun service _ => ?_) (ready_stable turns) ?_
      · refine Walks.ite (fun _ => ?_) fun other => Walks.pure fun _ _ object => absurd object other
        exact (serviceRefs_reads inside service uses).mono fun _ _ done _ => done
      · exact fun service _ state reached goes all object => serviceDone_stable _ state reached goes (all object)
    refine (Walks.andThen services (Walks.andThen (sectionRefs_reads inside _) (includeRefs_reads inside _ uses)
      (ready_stable turns) (partsDone_stable _)) (ready_stable turns) ?_).mono ?_
    · exact fun state reached goes all service member object =>
        serviceDone_stable _ state reached goes (all service member object)
    · intro _ reached ⟨services, parts, includes⟩ other parsed_
      rw [Option.some.inj (parsed_.symm.trans parsed)]
      exact documentDone_of services parts includes

/-- A compose file was just put down as visited, and is among the first that may be. -/
structure Visiting (directory : Directory) (turns : Nat) (reading : Reading) : Prop where
  sound : Sound directory reading
  turns : maxComposeFiles < turns + reading.composeSeen.length

theorem visiting_stable (turns : Nat) : Data.Stable (Goes directory parse) (Visiting directory turns) := by
  intro state reached goes visiting
  have longer := goes.visited.length_le
  have enough := visiting.turns
  exact ⟨goes.sound visiting.sound, by omega⟩

theorem Visiting.ready (visiting : Visiting directory turns reading) : Ready directory turns reading :=
  ⟨visiting.sound, Nat.le_of_lt visiting.turns⟩

/-- What a visit does once the file is put down: it reads the file, and what it names. -/
def visitRest (directory : Directory) (parse : Bytes → Option Json) (deployment : Bool) (turns : Nat) (relative : Path) :
    Hashing Unit := do
  refuseIf (maxComposeFiles < (← get).composeSeen.length) .mcpUnsupportedComposeInput
  match ← read directory relative false with
  | none => pure ()
  | some file =>
      match turns with
      | 0 => throw .outOfTurns
      | turns + 1 => documentRefs directory parse deployment (compose directory parse deployment turns) relative.dropLast file.bytes

def putDown (relative : Path) (reading : Reading) : Reading :=
  { reading with composeSeen := reading.composeSeen ++ [relative] }

theorem compose_run (turns : Nat) (relative : Path) (state : Reading) :
    compose directory parse deployment turns relative state =
      if relative ∈ state.composeSeen then .ok ((), state)
      else visitRest directory parse deployment turns relative (putDown relative state) := by
  rw [compose]
  change (if relative ∈ state.composeSeen then _ else _ : Hashing Unit) state = _
  split
  next => rfl
  next => rfl

theorem done_of_missing (found : Found directory (path, none)) (saw : Saw reading path) : Done directory parse reading path := by
  refine ⟨saw, fun file there => ?_⟩
  obtain ⟨-, missing⟩ | ⟨other, never, -⟩ := found.2.2
  · rw [show directory.stat path = .missing from missing] at there
    cases there
  · cases never

theorem visitRest_reads (inside : Inside relative)
    (deeper : ∀ fewer, turns = fewer + 1 → ∀ path, Inside path →
      Reads directory parse fewer (compose directory parse deployment fewer path) fun _ reached => path ∈ reached.composeSeen) :
    Walks (Goes directory parse) Refuses (Visiting directory turns) (visitRest directory parse deployment turns relative)
      fun _ reached => Done directory parse reached relative := by
  unfold visitRest
  refine Walks.bind Walks.get fun counted => ?_
  intro state ⟨same, visiting⟩
  subst same
  have enough := visiting.turns
  refine Walks.bind (Walks.refuseIf (by decide)) (fun _ => ?_) counted visiting
  refine Walks.bind (((read_reads inside false).strengthen fun _ held => held.1.ready).keep
    fun state reached goes held => ⟨visiting_stable turns state reached goes held.1, held.2⟩) fun held => ?_
  intro state ⟨member, visiting, few⟩
  have found := visiting.sound.found _ member
  cases held with
  | none =>
      exact Walks.pure (fun reached done => done) state (done_of_missing found ⟨none, member⟩)
  | some file =>
      cases turns with
      | zero => omega
      | succ fewer =>
          have there : directory.stat relative = .file file := by
            obtain ⟨never, -⟩ | ⟨other, same, there⟩ := found.2.2
            · cases never
            · rw [Option.some.inj same]
              exact there
          have ready : Ready directory fewer state := ⟨visiting.sound, by
            have more := visiting.turns
            omega⟩
          have refs : Reads directory parse fewer
              (documentRefs directory parse deployment (compose directory parse deployment fewer) relative.dropLast file.bytes) _ :=
            documentRefs_reads (inside_dropLast inside) file.bytes (deeper fewer rfl)
          have document := (refs.keep (ready_stable fewer)) state ready
          obtain ⟨returns, refused⟩ := document
          refine ⟨fun value reached ran => ?_, refused⟩
          obtain ⟨goes, named, -⟩ := returns value reached ran
          refine ⟨goes, goes.saw ⟨_, member⟩, fun other there_ document parsed => ?_⟩
          rw [there] at there_
          cases there_
          exact named document parsed

theorem compose_step (inside : Inside relative)
    (deeper : ∀ fewer, turns = fewer + 1 → ∀ path, Inside path →
      Reads directory parse fewer (compose directory parse deployment fewer path) fun _ reached => path ∈ reached.composeSeen) :
    Reads directory parse turns (compose directory parse deployment turns relative) fun _ reached =>
      relative ∈ reached.composeSeen := by
  intro state ready
  rw [compose_run]
  split
  next visited =>
    refine ⟨fun value reached same => ?_, fun error never => (by cases never)⟩
    obtain ⟨-, rfl⟩ := Prod.mk.inj (Except.ok.inj same)
    exact ⟨Std.Refl.refl _, visited⟩
  next =>
    have visiting : Visiting directory turns (putDown relative state) := by
      refine ⟨⟨ready.sound.found, ready.sound.once⟩, ?_⟩
      have enough := ready.turns
      change maxComposeFiles < turns + (state.composeSeen ++ [relative]).length
      rw [List.length_append, List.length_singleton]
      omega
    obtain ⟨returns, refused⟩ := visitRest_reads inside deeper (putDown relative state) visiting
    refine ⟨fun value reached ran => ?_, refused⟩
    obtain ⟨goes, done⟩ := returns value reached ran
    have there : relative ∈ reached.composeSeen := goes.visits (List.mem_append_right _ List.mem_cons_self)
    refine ⟨⟨goes.grown, fun sound => goes.sound ⟨sound.found, sound.once⟩, (List.prefix_append _ _).trans goes.visited, ?_⟩, there⟩
    intro path member
    obtain member | done_ := goes.done path member
    · obtain member | member := List.mem_append.mp member
      · exact .inl member
      · rw [List.mem_singleton.mp member]
        exact .inr done
    · exact .inr done_

/-- A compose file is visited with everything it names, while no more may be visited than the model has turns for. -/
theorem compose_reads : ∀ (turns : Nat) (relative : Path), Inside relative →
    Reads directory parse turns (compose directory parse deployment turns relative) fun _ reached => relative ∈ reached.composeSeen := by
  intro turns
  induction turns with
  | zero =>
      intro relative inside
      exact compose_step inside fun fewer never => (by cases never)
  | succ turns ih =>
      intro relative inside
      refine compose_step inside fun fewer same => ?_
      cases same
      exact ih

end Dockge.Mcp.Fingerprint
