import Dockge.Snapshot.Reconcile

namespace Dockge.Snapshot

open Data

/-! What a reconciled snapshot is equal to, and which of its objects are the earlier ones. -/

/-! ## What a value stands for -/

/-- A JSON value; the order of its keys does not count. -/
inductive Tree where
  | atom (atom : Atom)
  | node (isArray : Bool) (children : String → Option Tree)

structure Step where
  isIndex : Bool
  key : String

abbrev Path := List Step

def Tree.follow : Tree → Path → Option Tree
  | tree, [] => some tree
  | .atom _, _ :: _ => none
  | .node isArray children, step :: rest =>
      if step.isIndex = isArray then (children step.key).bind fun child => child.follow rest else none

/-- The very value at a path -/
def Heap.follow (heap : Heap) : Value → Path → Option Value
  | value, [] => some value
  | .atom _, _ :: _ => none
  | .object address, step :: rest =>
      (heap address).bind fun cell =>
        if step.isIndex = cell.isArray then (cell.fields.get step.key).bind fun child => follow heap child rest
        else none

/-- The value stands for the tree, and all its objects lie in the region. -/
inductive Denotes (heap : Heap) (region : Set Nat) : Value → Tree → Prop where
  | atom (atom : Atom) : Denotes heap region (.atom atom) (.atom atom)
  | object {address : Nat} {cell : Cell} {children : String → Option Tree} (inside : address ∈ region)
      (found : heap address = some cell) (keys : ∀ key, (children key).isSome = (cell.fields.get key).isSome)
      (child : ∀ key value tree, cell.fields.get key = some value → children key = some tree →
        Denotes heap region value tree) :
      Denotes heap region (.object address) (.node cell.isArray children)

/-- The value stands for the tree and holds its objects alone: none of them is reached in two ways. -/
inductive Owns (heap : Heap) : Nat → Set Nat → Value → Tree → Prop where
  | atom {depth : Nat} {cells : Set Nat} (atom : Atom) : Owns heap depth cells (.atom atom) (.atom atom)
  | object {depth : Nat} {cells : Set Nat} {address : Nat} {cell : Cell} {children : String → Option Tree}
      {parts : String → Set Nat} (inside : address ∈ cells) (found : heap address = some cell)
      (keys : ∀ key, (children key).isSome = (cell.fields.get key).isSome)
      (part : ∀ key, parts key ⊆ cells) (outside : ∀ key, address ∉ parts key)
      (apart : ∀ key other, key ≠ other → Disjoint (parts key) (parts other))
      (child : ∀ key value tree, cell.fields.get key = some value → children key = some tree →
        Owns heap depth (parts key) value tree) :
      Owns heap (depth + 1) cells (.object address) (.node cell.isArray children)

variable {heap after : Heap} {region cells : Set Nat} {previous next value : Value} {tree : Tree}

theorem Denotes.mono (denotes : Denotes heap region value tree) {more : Set Nat} (wider : region ⊆ more) :
    Denotes heap more value tree := by
  induction denotes with
  | atom atom => exact .atom atom
  | object inside found keys child ih => exact .object (wider inside) found keys ih

/-- A value depends on nothing outside its region. -/
theorem Denotes.congr (denotes : Denotes heap region value tree)
    (same : ∀ address ∈ region, after address = heap address) : Denotes after region value tree := by
  induction denotes with
  | atom atom => exact .atom atom
  | object inside found keys child ih => exact .object inside ((same _ inside).trans found) keys ih

theorem Owns.denotes {depth : Nat} (owns : Owns heap depth cells value tree) : Denotes heap cells value tree := by
  induction owns with
  | atom atom => exact .atom atom
  | object inside found keys part outside apart child ih =>
      exact .object inside found keys fun key value tree held there => (ih key value tree held there).mono (part key)

theorem Owns.congr {depth : Nat} (owns : Owns heap depth cells value tree)
    (same : ∀ address ∈ cells, after address = heap address) : Owns after depth cells value tree := by
  induction owns with
  | atom atom => exact .atom atom
  | object inside found keys part outside apart child ih =>
      exact .object inside ((same _ inside).trans found) keys part outside apart
        fun key value tree held there => ih key value tree held there fun address member => same address (part key member)

theorem follow_congr (denotes : Denotes heap region value tree)
    (same : ∀ address ∈ region, after address = heap address) (path : Path) :
    after.follow value path = heap.follow value path := by
  induction path generalizing value tree with
  | nil => cases value <;> rfl
  | cons step rest ih =>
      cases denotes with
      | atom atom => rfl
      | @object address cell children inside found keys child =>
          rw [Heap.follow, Heap.follow, same address inside, found, Option.bind_some, Option.bind_some]
          split
          next =>
            cases held : cell.fields.get step.key with
            | none => rfl
            | some value =>
                have there := keys step.key
                rw [held, Option.isSome_some, Option.isSome_iff_exists] at there
                obtain ⟨tree, there⟩ := there
                exact ih (child step.key value tree held there)
          next => rfl

/-- Two trees for the same value are one. -/
theorem Denotes.unique (denotes : Denotes heap region value tree) {other : Tree} {more : Set Nat}
    (again : Denotes heap more value other) : tree = other := by
  induction denotes generalizing other with
  | atom atom =>
      cases again
      rfl
  | @object address cell children inside found keys child ih =>
      cases again with
      | @object _ cell_ children_ inside_ found_ keys_ child_ =>
          obtain rfl : cell = cell_ := Option.some.inj (found.symm.trans found_)
          congr 1
          funext key
          cases held : cell.fields.get key with
          | none =>
              have one := keys key
              have two := keys_ key
              rw [held, Option.isSome_none, Option.isSome_eq_false_iff, Option.isNone_iff_eq_none] at one two
              rw [one, two]
          | some value =>
              have one := keys key
              have two := keys_ key
              rw [held, Option.isSome_some, Option.isSome_iff_exists] at one two
              obtain ⟨first, one⟩ := one
              obtain ⟨second, two⟩ := two
              rw [one, two, ih key value first held one (child_ key value second held two)]

/-! ## What a call comes to -/

/-- A result that is equal to the fresh value and shares with the previous one what they have in common -/
structure Shares (heap : Heap) (region : Set Nat) (previous result : Value) (old fresh : Tree) : Prop where
  equal : old = fresh → result = previous
  paths : ∀ path part, old.follow path = some part → fresh.follow path = some part →
    heap.follow result path = heap.follow previous path

/-- Two objects of one kind with the very same values -/
def Aligned (heap : Heap) (before after : Nat) : Prop :=
  ∃ oldCell cell, heap before = some oldCell ∧ heap after = some cell ∧ oldCell.isArray = cell.isArray ∧
    ∀ key, cell.fields.get key = oldCell.fields.get key

structure Reconciled (heap final : Heap) (region cells : Set Nat) (previous next result : Value) (old fresh : Tree) :
    Prop where
  frame : ∀ address, address ∉ cells → final address = heap address
  denotes : Denotes final (region ∪ cells) result fresh
  shares : Shares final region previous result old fresh
  other : old ≠ fresh → result = next
  /-- What `next` becomes where it is not the result -/
  aligned : old = fresh → ∀ before after, previous = .object before → next = .object after → Aligned final before after

theorem Shares.congr {final : Heap} {result : Value} {old fresh : Tree} (shares : Shares heap region previous result old fresh)
    (denotes : Denotes heap cells result fresh) (before : Denotes heap region previous old)
    (same : ∀ address, address ∈ region ∨ address ∈ cells → final address = heap address) :
    Shares final region previous result old fresh := by
  constructor
  · exact shares.equal
  · intro path part one two
    rw [follow_congr denotes (fun address member => same address (.inr member)),
      follow_congr before (fun address member => same address (.inl member))]
    exact shares.paths path part one two

/-! ## The loop -/

theorem set_found {address : Nat} {cell : Cell} (found : heap address = some cell) (key : String) (value : Value) :
    heap.set address key value address = some { cell with fields := cell.fields.set key value } := by
  rw [Heap.set, Function.update_self, found]
  rfl

theorem set_other (heap : Heap) {address other : Nat} (different : other ≠ address) (key : String) (value : Value) :
    heap.set address key value other = heap other :=
  Function.update_of_ne different _ _

theorem get_found {address : Nat} {cell : Cell} (found : heap address = some cell) (key : String) :
    heap.get address key = cell.fields.get key := by
  rw [Heap.get, found]
  rfl

section Loop

variable (region cells : Set Nat) (parts : String → Set Nat) (before after depth : Nat) (oldCell : Cell)
  (oldChildren children : String → Option Tree)

/-- The objects of the two values, and what of `next` is still to be gone through -/
structure Ready (heap : Heap) (cell : Cell) (rest : List String) : Prop where
  old : heap before = some oldCell
  fresh : heap after = some cell
  previous : ∀ key value tree, oldCell.fields.get key = some value → oldChildren key = some tree →
    Denotes heap region value tree
  next : ∀ key ∈ rest, ∃ value tree, cell.fields.get key = some value ∧ children key = some tree ∧
    Owns heap depth (parts key) value tree

/-- A key that was gone through -/
def Placed (final : Heap) (cell : Cell) (key : String) : Prop :=
  ∃ placed tree, cell.fields.get key = some placed ∧ children key = some tree ∧
    Denotes final (region ∪ parts key) placed tree ∧
    ∀ value old, oldCell.fields.get key = some value → oldChildren key = some old →
      Shares final region value placed old tree

structure Looped (heap final : Heap) (cell : Cell) (rest : List String) : Prop where
  frame : ∀ address, address ≠ after → (∀ key ∈ rest, address ∉ parts key) → final address = heap address
  placed : ∃ last, final after = some last ∧ last.isArray = cell.isArray ∧ last.fields.keys = cell.fields.keys ∧
    (∀ key, key ∉ rest → last.fields.get key = cell.fields.get key) ∧
    ∀ key ∈ rest, Placed region parts oldCell oldChildren children final last key

variable {region cells parts before after depth oldCell oldChildren children}

/-- The objects of `previous` are not among those of `next`, and these lie apart. -/
structure Apart (region : Set Nat) (parts : String → Set Nat) (before after : Nat) : Prop where
  inside : before ∈ region
  away : after ∉ region
  foreign : ∀ key address, address ∈ region → address ∉ parts key
  outside : ∀ key, after ∉ parts key
  apart : ∀ key other, key ≠ other → Disjoint (parts key) (parts other)

theorem Ready.step {cell : Cell} {key : String} {rest : List String} {middle : Heap} (value : Value)
    (apart : Apart region parts before after) (distinct : (key :: rest).Nodup)
    (ready : Ready region parts before after depth oldCell oldChildren children heap cell (key :: rest))
    (frame : ∀ address, address ∉ parts key → middle address = heap address) :
    Ready region parts before after depth oldCell oldChildren children (middle.set after key value)
      { cell with fields := cell.fields.set key value } rest := by
  obtain ⟨held, _, found, -, -⟩ := ready.next key List.mem_cons_self
  have there : key ∈ cell.fields.keys := OrderedMap.mem_keys.mpr (by rw [found]; rfl)
  have same (address : Nat) (away : address ≠ after) (outside : address ∉ parts key) :
      middle.set after key value address = heap address := (set_other middle away key value).trans (frame address outside)
  have left (address : Nat) (member : address ∈ region) : middle.set after key value address = heap address := by
    apply same
    · exact fun equal => apart.away (equal ▸ member)
    · exact apart.foreign key address member
  constructor
  · rw [left before apart.inside]
    exact ready.old
  · apply set_found
    rw [frame after (apart.outside key)]
    exact ready.fresh
  · exact fun key value tree old there => (ready.previous key value tree old there).congr left
  · intro other member
    obtain ⟨fresh, tree, get, child, owns⟩ := ready.next other (List.mem_cons_of_mem key member)
    have different : other ≠ key := fun equal => (List.nodup_cons.mp distinct).1 (equal ▸ member)
    refine ⟨fresh, tree, ?_, child, ?_⟩
    · rw [OrderedMap.get_set value there, if_neg different]
      exact get
    · apply owns.congr
      intro address inside
      apply same
      · exact fun equal => apart.outside other (equal ▸ inside)
      · exact Set.disjoint_left.mp (apart.apart other key different) inside

theorem Placed.congr {final : Heap} {cell : Cell} {key : String}
    (placed : Placed region parts oldCell oldChildren children heap cell key)
    (previous : ∀ key value tree, oldCell.fields.get key = some value → oldChildren key = some tree →
      Denotes heap region value tree)
    (same : ∀ address, address ∈ region ∨ address ∈ parts key → final address = heap address) {last : Cell}
    (held : last.fields.get key = cell.fields.get key) :
    Placed region parts oldCell oldChildren children final last key := by
  obtain ⟨value, tree, get, child, denotes, shares⟩ := placed
  refine ⟨value, tree, held.trans get, child, denotes.congr same, ?_⟩
  intro old oldTree found there
  refine (shares old oldTree found there).congr denotes (previous key old oldTree found there) ?_
  intro address member
  obtain inside | inside := member
  · exact same address (.inl inside)
  · exact same address inside

/-- One key, and then the rest -/
theorem Looped.cons {cell : Cell} {key : String} {rest : List String} {middle final : Heap} {value : Value}
    (apart : Apart region parts before after) (distinct : (key :: rest).Nodup)
    (ready : Ready region parts before after depth oldCell oldChildren children heap cell (key :: rest))
    (frame : ∀ address, address ∉ parts key → middle address = heap address)
    (placed : ∃ tree, children key = some tree ∧ Denotes middle (region ∪ parts key) value tree ∧
      ∀ old oldTree, oldCell.fields.get key = some old → oldChildren key = some oldTree →
        Shares middle region old value oldTree tree)
    (looped : Looped region parts after oldCell oldChildren children (middle.set after key value) final
      { cell with fields := cell.fields.set key value } rest) :
    Looped region parts after oldCell oldChildren children heap final cell (key :: rest) := by
  obtain ⟨held, _, found, -, -⟩ := ready.next key List.mem_cons_self
  have there : key ∈ cell.fields.keys := OrderedMap.mem_keys.mpr (by rw [found]; rfl)
  have fresh := (List.nodup_cons.mp distinct).1
  have later (address : Nat) (away : address ≠ after) (others : ∀ other ∈ rest, address ∉ parts other) :
      final address = middle address := (looped.frame address away others).trans (set_other middle away key value)
  obtain ⟨last, stored, isArray, keys, untouched, rests⟩ := looped.placed
  obtain ⟨tree, child, denotes, shares⟩ := placed
  constructor
  · intro address away others
    rw [List.forall_mem_cons] at others
    exact (later address away others.2).trans (frame address others.1)
  · refine ⟨last, stored, isArray, keys.trans (OrderedMap.keys_set value there), ?_, ?_⟩
    · intro other missing
      rw [List.mem_cons, not_or] at missing
      rw [untouched other missing.2]
      exact (OrderedMap.get_set value there other).trans (if_neg missing.1)
    · rw [List.forall_mem_cons]
      refine ⟨?_, rests⟩
      have here : Placed region parts oldCell oldChildren children middle
          { cell with fields := cell.fields.set key value } key :=
        ⟨value, tree, (OrderedMap.get_set value there key).trans (if_pos rfl), child, denotes, shares⟩
      refine here.congr ?_ ?_ (untouched key fresh)
      · intro other value tree get there
        refine (ready.previous other value tree get there).congr fun address inside => ?_
        exact frame address (apart.foreign key address inside)
      · intro address member
        apply later address
        · intro equal
          obtain inside | inside := member
          · exact apart.away (equal ▸ inside)
          · exact apart.outside key (equal ▸ inside)
        · intro other inRest
          obtain inside | inside := member
          · exact apart.foreign other address inside
          · have different : key ≠ other := fun equal => fresh (equal ▸ inRest)
            exact Set.disjoint_left.mp (apart.apart key other different) inside

theorem reconcileKeys_spec {reconcile : Heap → Value → Value → Option (Heap × Value)}
    (apart : Apart region parts before after)
    (spec : ∀ heap key previous next old fresh, Denotes heap region previous old →
      Owns heap depth (parts key) next fresh → ∃ final result, reconcile heap previous next = some (final, result) ∧
        Reconciled heap final region (parts key) previous next result old fresh)
    (known : ∀ key, (oldChildren key).isSome = (oldCell.fields.get key).isSome) :
    ∀ (rest : List String) (heap : Heap) (cell : Cell) (equal : Bool), rest.Nodup →
      Ready region parts before after depth oldCell oldChildren children heap cell rest →
      ∃ final flag, reconcileKeys reconcile before after rest heap equal = some (final, flag) ∧
        Looped region parts after oldCell oldChildren children heap final cell rest ∧
        (flag = true ↔ equal = true ∧ ∀ key ∈ rest, oldChildren key = children key) := by
  intro rest
  induction rest with
  | nil =>
      intro heap cell equal _ ready
      refine ⟨heap, equal, rfl, ⟨fun _ _ _ => rfl, cell, ready.fresh, rfl, rfl, fun _ _ => rfl, ?_⟩, ?_⟩
      · exact fun key never => absurd never List.not_mem_nil
      · exact (and_iff_left fun key never => absurd never List.not_mem_nil).symm
  | cons key rest ih =>
      intro heap cell equal distinct ready
      obtain ⟨fresh, tree, get, child, owns⟩ := ready.next key List.mem_cons_self
      have one : heap.get after key = some fresh := (get_found ready.fresh key).trans get
      have two : heap.get before key = oldCell.fields.get key := get_found ready.old key
      rw [reconcileKeys, one, two]
      dsimp only [Option.bind_eq_bind, Option.bind_some]
      cases held : oldCell.fields.get key with
      | none =>
          have frame (address : Nat) (_ : address ∉ parts key) : heap address = heap address := rfl
          obtain ⟨final, flag, run, looped, exact_⟩ := ih _ _ false (List.nodup_cons.mp distinct).2
            (ready.step fresh apart distinct frame)
          refine ⟨final, flag, run, looped.cons apart distinct ready frame ?_, ?_⟩
          · refine ⟨tree, child, owns.denotes.mono Set.subset_union_right, ?_⟩
            intro old oldTree found
            rw [held] at found
            cases found
          · rw [exact_, List.forall_mem_cons, child]
            have none_ := known key
            rw [held, Option.isSome_none, Option.isSome_eq_false_iff, Option.isNone_iff_eq_none] at none_
            rw [none_]
            constructor
            · intro never
              cases never.1
            · intro never
              cases never.2.1
      | some old =>
          have there := known key
          rw [held, Option.isSome_some, Option.isSome_iff_exists] at there
          obtain ⟨oldTree, there⟩ := there
          have denotes := ready.previous key old oldTree held there
          obtain ⟨middle, value, result, reconciled⟩ := spec heap key old fresh oldTree tree denotes owns
          have again : middle.get before key = some old := by
            have left : middle before = heap before := reconciled.frame before (apart.foreign key before apart.inside)
            rw [get_found (left.trans ready.old), held]
          obtain ⟨final, flag, run, looped, exact_⟩ := ih _ _ (if some value ≠ some old then false else equal)
            (List.nodup_cons.mp distinct).2 (ready.step value apart distinct reconciled.frame)
          refine ⟨final, flag, ?_, looped.cons apart distinct ready reconciled.frame ?_, ?_⟩
          · dsimp only
            rw [result]
            dsimp only [Option.bind_some]
            rw [again]
            exact run
          · refine ⟨tree, child, reconciled.denotes, ?_⟩
            intro old_ oldTree_ found_ there_
            rw [held] at found_
            rw [there] at there_
            cases found_
            cases there_
            exact reconciled.shares
          · rw [exact_, List.forall_mem_cons, there, child]
            have same : value = old ↔ oldTree = tree := by
              constructor
              · intro equal
                by_contra different
                have kept := reconciled.other different
                rw [← kept, equal] at owns
                exact different (denotes.unique owns.denotes)
              · exact reconciled.shares.equal
            by_cases equal_ : value = old
            · rw [if_neg (not_not.mpr (congrArg some equal_)), and_iff_right (congrArg some (same.mp equal_))]
            · rw [if_pos (fun never => equal_ (Option.some.inj never))]
              constructor
              · intro never
                cases never.1
              · intro both
                exact absurd (same.mpr (Option.some.inj both.2.1)) equal_

end Loop

/-! ## Any two values -/

theorem Reconciled.keep {depth : Nat} {old fresh : Tree} (owns : Owns heap depth cells next fresh)
    (nothing : ∀ path part, old.follow path = some part → fresh.follow path ≠ some part) :
    Reconciled heap heap region cells previous next next old fresh := by
  have different : old ≠ fresh := by
    intro same
    exact nothing [] old (by cases old <;> rfl) (by rw [same]; cases fresh <;> rfl)
  constructor
  · exact fun _ _ => rfl
  · exact owns.denotes.mono Set.subset_union_right
  · constructor
    · exact fun same => absurd same different
    · exact fun path part one two => absurd two (nothing path part one)
  · exact fun _ => rfl
  · exact fun same => absurd same different

theorem follow_atom {atom : Atom} {path : Path} {part : Tree} (found : (Tree.atom atom).follow path = some part) :
    path = [] ∧ part = .atom atom := by
  cases path with
  | nil => exact ⟨rfl, (Option.some.inj found).symm⟩
  | cons step rest => cases found

theorem follow_node {isArray : Bool} {children : String → Option Tree} {step : Step} {rest : Path} {part : Tree}
    (found : (Tree.node isArray children).follow (step :: rest) = some part) :
    step.isIndex = isArray ∧ ∃ child, children step.key = some child ∧ child.follow rest = some part := by
  rw [Tree.follow] at found
  split at found
  next same => exact ⟨same, Option.bind_eq_some_iff.mp found⟩
  next => cases found

theorem follow_object {address : Nat} {cell : Cell} (found : heap address = some cell) {step : Step}
    (same : step.isIndex = cell.isArray) {value : Value} (held : cell.fields.get step.key = some value) (rest : Path) :
    heap.follow (.object address) (step :: rest) = heap.follow value rest := by
  rw [Heap.follow, found, Option.bind_some, if_pos same, held, Option.bind_some]

/-- As many keys, all of them in the other object too: they are the same keys. -/
theorem children_eq {fields oldFields : OrderedMap String Value} {children oldChildren : String → Option Tree}
    (keys : ∀ key, (children key).isSome = (fields.get key).isSome)
    (oldKeys : ∀ key, (oldChildren key).isSome = (oldFields.get key).isSome) :
    oldChildren = children ↔
      fields.keys.length = oldFields.keys.length ∧ ∀ key ∈ fields.keys, oldChildren key = children key := by
  have mem (key : String) : key ∈ fields.keys ↔ (children key).isSome = true := by rw [OrderedMap.mem_keys, keys]
  have oldMem (key : String) : key ∈ oldFields.keys ↔ (oldChildren key).isSome = true := by
    rw [OrderedMap.mem_keys, oldKeys]
  constructor
  · intro same
    refine ⟨List.Perm.length_eq ?_, fun key _ => congrFun same key⟩
    rw [List.perm_ext_iff_of_nodup fields.keys_nodup oldFields.keys_nodup]
    intro key
    exact (mem key).trans ((oldMem key).trans (by rw [same])).symm
  · intro ⟨length, same⟩
    have inside : fields.keys ⊆ oldFields.keys := by
      intro key member
      rw [oldMem, same key member]
      exact (mem key).mp member
    have permuted := (List.subperm_of_subset fields.keys_nodup inside).perm_of_length_le length.ge
    funext key
    by_cases member : key ∈ fields.keys
    · exact same key member
    · have missing : key ∉ oldFields.keys := fun never => member (permuted.symm.subset never)
      rw [mem, Bool.not_eq_true, Option.isSome_eq_false_iff, Option.isNone_iff_eq_none] at member
      rw [oldMem, Bool.not_eq_true, Option.isSome_eq_false_iff, Option.isNone_iff_eq_none] at missing
      rw [member, missing]

theorem reconcile_same (fuel : Nat) (heap : Heap) (value : Value) :
    reconcile (fuel + 1) heap value value = some (heap, value) := by
  cases value with
  | atom atom => rw [reconcile, if_pos rfl]; intro before after same; cases same
  | object address => rw [reconcile, if_pos rfl]

theorem reconcile_atom (fuel : Nat) (heap : Heap) (different : previous ≠ next)
    (atom : (∃ atom, previous = .atom atom) ∨ ∃ atom, next = .atom atom) :
    reconcile (fuel + 1) heap previous next = some (heap, next) := by
  have none_ (before after : Nat) (one : previous = .object before) (two : next = .object after) : False := by
    obtain ⟨atom, same⟩ | ⟨atom, same⟩ := atom
    · cases one.symm.trans same
    · cases two.symm.trans same
  rw [reconcile, if_neg different]
  exact none_

/-- Two objects of one kind, where their parts are reconciled -/
theorem reconcile_objects {depth fuel before after : Nat} {oldCell cell : Cell} {parts : String → Set Nat}
    {oldChildren children : String → Option Tree} (different : before ≠ after) (kind : oldCell.isArray = cell.isArray)
    (spec : ∀ heap key previous next old fresh, Denotes heap region previous old →
      Owns heap depth (parts key) next fresh → ∃ final result, reconcile fuel heap previous next = some (final, result) ∧
        Reconciled heap final region (parts key) previous next result old fresh)
    (aside : Apart region parts before after) (inside : after ∈ cells) (part : ∀ key, parts key ⊆ cells)
    (found : heap before = some oldCell) (found_ : heap after = some cell)
    (oldKeys : ∀ key, (oldChildren key).isSome = (oldCell.fields.get key).isSome)
    (keys : ∀ key, (children key).isSome = (cell.fields.get key).isSome)
    (oldChild : ∀ key value tree, oldCell.fields.get key = some value → oldChildren key = some tree →
      Denotes heap region value tree)
    (child : ∀ key value tree, cell.fields.get key = some value → children key = some tree →
      Owns heap depth (parts key) value tree) :
    ∃ final result, reconcile (fuel + 1) heap (.object before) (.object after) = some (final, result) ∧
      Reconciled heap final region cells (.object before) (.object after) result
        (.node oldCell.isArray oldChildren) (.node cell.isArray children) := by
  have ready : Ready region parts before after depth oldCell oldChildren children heap cell cell.fields.keys := by
    refine ⟨found, found_, oldChild, ?_⟩
    intro key member
    rw [OrderedMap.mem_keys] at member
    have there := member
    rw [← keys, Option.isSome_iff_exists] at there
    rw [Option.isSome_iff_exists] at member
    obtain ⟨value, member⟩ := member
    obtain ⟨tree, there⟩ := there
    exact ⟨value, tree, member, there, child key value tree member there⟩
  obtain ⟨final, flag, run, looped, exact_⟩ := reconcileKeys_spec aside spec oldKeys cell.fields.keys heap cell
    (cell.fields.keys.length = oldCell.fields.keys.length) cell.fields.keys_nodup ready
  have same : flag = true ↔ Tree.node oldCell.isArray oldChildren = Tree.node cell.isArray children := by
    rw [exact_, decide_eq_true_eq, ← children_eq keys oldKeys, kind]
    exact ⟨fun equal => by rw [equal], fun equal => (Tree.node.inj equal).2⟩
  have called : reconcile (fuel + 1) heap (.object before) (.object after) =
      some (final, if flag then .object before else .object after) := by
    rw [reconcile, if_neg (fun equal => different (Value.object.inj equal))]
    dsimp only [Option.bind_eq_bind]
    rw [found, found_, Option.bind_some, Option.bind_some, if_neg (not_not.mpr kind), run]
    rfl
  have frame (address : Nat) (outside : address ∉ cells) : final address = heap address := by
    apply looped.frame
    · exact fun equal => outside (equal ▸ inside)
    · exact fun key _ member => outside (part key member)
  have left (address : Nat) (member : address ∈ region) : final address = heap address := by
    apply looped.frame
    · exact fun equal => aside.away (equal ▸ member)
    · exact fun key _ => aside.foreign key address member
  obtain ⟨last, stored, isArray, lastKeys, -, placed⟩ := looped.placed
  have lastKnown (key : String) : (children key).isSome = (last.fields.get key).isSome := by
    rw [keys, Bool.eq_iff_iff, ← OrderedMap.mem_keys, ← OrderedMap.mem_keys, lastKeys]
  have placedAt {key : String} {tree : Tree} (there : children key = some tree) :
      ∃ value, last.fields.get key = some value ∧ Denotes final (region ∪ parts key) value tree ∧
        ∀ old oldTree, oldCell.fields.get key = some old → oldChildren key = some oldTree →
          Shares final region old value oldTree tree := by
    have member : key ∈ cell.fields.keys := by
      rw [OrderedMap.mem_keys, ← keys, there]
      rfl
    obtain ⟨value, tree_, get, there_, rest⟩ := placed key member
    rw [there] at there_
    cases there_
    exact ⟨value, get, rest⟩
  refine ⟨final, _, called, frame, ?_, ?_, ?_, ?_⟩
  · cases flag with
    | true =>
        rw [if_pos rfl, ← same.mp rfl]
        exact ((Denotes.object aside.inside found oldKeys oldChild).congr left).mono Set.subset_union_left
    | false =>
        rw [if_neg (by decide), ← isArray]
        refine .object (.inr inside) stored lastKnown ?_
        intro key value tree get there
        obtain ⟨value_, get_, denotes, -⟩ := placedAt there
        rw [get] at get_
        cases get_
        exact denotes.mono (Set.union_subset_union_right region (part key))
  · constructor
    · intro equal
      rw [if_pos (same.mpr equal)]
    · intro path piece one two
      cases flag with
      | true => rw [if_pos rfl]
      | false =>
          rw [if_neg (by decide)]
          cases path with
          | nil =>
              have equal := same.mpr (Option.some.inj (one.trans two.symm))
              cases equal
          | cons step rest =>
              obtain ⟨index, old, oldThere, oldPart⟩ := follow_node one
              obtain ⟨index_, tree, there, freshPart⟩ := follow_node two
              obtain ⟨value, get, -, shares⟩ := placedAt there
              have some_ := oldKeys step.key
              rw [oldThere, Option.isSome_some, eq_comm, Option.isSome_iff_exists] at some_
              obtain ⟨oldValue, held⟩ := some_
              rw [follow_object stored (index_.trans isArray.symm) get,
                follow_object ((left before aside.inside).trans found) index held]
              exact (shares oldValue old held oldThere).paths rest piece oldPart freshPart
  · intro unequal
    exact if_neg (fun equal => unequal (same.mp equal))
  · intro equal before_ after_ one two
    cases one
    cases two
    refine ⟨oldCell, last, (left before aside.inside).trans found, stored, kind.trans isArray.symm, ?_⟩
    intro key
    have children_ := congrFun (Tree.node.inj equal).2 key
    cases there : children key with
    | none =>
        have one := lastKnown key
        have two := oldKeys key
        rw [there, Option.isSome_none, eq_comm, Option.isSome_eq_false_iff, Option.isNone_iff_eq_none] at one
        rw [children_, there, Option.isSome_none, eq_comm, Option.isSome_eq_false_iff, Option.isNone_iff_eq_none] at two
        rw [one, two]
    | some tree =>
        obtain ⟨value, get, -, shares⟩ := placedAt there
        have some_ := oldKeys key
        rw [children_, there, Option.isSome_some, eq_comm, Option.isSome_iff_exists] at some_
        obtain ⟨oldValue, held⟩ := some_
        rw [get, held, (shares oldValue tree held (children_.trans there)).equal rfl]

theorem reconcile_spec {old fresh : Tree} {depth fuel : Nat} (enough : depth < fuel)
    (apart : Disjoint region cells) (denotes : Denotes heap region previous old)
    (owns : Owns heap depth cells next fresh) :
    ∃ final result, reconcile fuel heap previous next = some (final, result) ∧
      Reconciled heap final region cells previous next result old fresh := by
  induction fuel generalizing depth heap cells previous next old fresh with
  | zero => exact absurd enough (Nat.not_lt_zero depth)
  | succ fuel ih =>
      by_cases equal : previous = next
      · subst equal
        refine ⟨heap, previous, reconcile_same fuel heap previous, fun _ _ => rfl, ?_, ?_, fun _ => rfl, ?_⟩
        · exact owns.denotes.mono Set.subset_union_right
        · exact ⟨fun _ => rfl, fun _ _ _ _ => rfl⟩
        · intro _ before after one two
          cases one.symm.trans two
          cases denotes with
          | atom => cases one
          | @object address cell children inside found keys child =>
              cases one
              exact ⟨cell, cell, found, found, rfl, fun _ => rfl⟩
      · have keep (nothing : ∀ path part, old.follow path = some part → fresh.follow path ≠ some part)
            (called : reconcile (fuel + 1) heap previous next = some (heap, next)) :
            ∃ final result, reconcile (fuel + 1) heap previous next = some (final, result) ∧
              Reconciled heap final region cells previous next result old fresh :=
          ⟨heap, next, called, .keep owns nothing⟩
        cases denotes with
        | atom atom =>
            refine keep ?_ (reconcile_atom fuel heap equal (.inl ⟨atom, rfl⟩))
            intro path part one two
            obtain ⟨rfl, rfl⟩ := follow_atom one
            cases owns with
            | atom other =>
                cases Option.some.inj two
                exact equal rfl
            | object => cases two
        | @object before oldCell oldChildren inside found oldKeys oldChild =>
            cases owns with
            | atom atom =>
                refine keep ?_ (reconcile_atom fuel heap equal (.inr ⟨atom, rfl⟩))
                intro path part one two
                obtain ⟨rfl, rfl⟩ := follow_atom two
                cases one
            | @object depth _ after cell children parts inside_ found_ keys part outside separate child =>
                by_cases kind : oldCell.isArray = cell.isArray
                · apply reconcile_objects (fun same => equal (congrArg Value.object same)) kind
                  · intro heap key previous next old fresh denotes owns
                    exact ih (Nat.lt_of_succ_lt_succ enough) (apart.mono_right (part key)) denotes owns
                  · refine ⟨inside, ?_, ?_, outside, separate⟩
                    · exact fun member => Set.disjoint_left.mp apart member inside_
                    · exact fun key address member never => Set.disjoint_left.mp apart member (part key never)
                  · exact inside_
                  · exact part
                  · exact found
                  · exact found_
                  · exact oldKeys
                  · exact keys
                  · exact oldChild
                  · exact child
                · refine keep ?_ ?_
                  · intro path piece one two
                    cases path with
                    | nil =>
                        have same := Option.some.inj (one.trans two.symm)
                        exact kind (Tree.node.inj same).1
                    | cons step rest => exact kind ((follow_node one).1.symm.trans (follow_node two).1)
                  · rw [reconcile, if_neg equal]
                    dsimp only [Option.bind_eq_bind]
                    rw [found, found_, Option.bind_some, Option.bind_some, if_pos kind]

/-! ## Once more -/

theorem reconcileKeys_aligned (fuel : Nat) {before after : Nat} (different : before ≠ after) (rest : List String)
    (equal : Bool) (aligned : ∀ key ∈ rest, ∃ value, heap.get before key = some value ∧ heap.get after key = some value) :
    ∃ final, reconcileKeys (reconcile (fuel + 1)) before after rest heap equal = some (final, equal) := by
  induction rest generalizing heap with
  | nil => exact ⟨heap, rfl⟩
  | cons key rest ih =>
      rw [List.forall_mem_cons] at aligned
      obtain ⟨⟨value, one, two⟩, others⟩ := aligned
      obtain ⟨cell, found, held⟩ := Option.bind_eq_some_iff.mp two
      have there : key ∈ cell.fields.keys := OrderedMap.mem_keys.mpr (by rw [held]; rfl)
      have next_ : ∀ other ∈ rest, ∃ same, (heap.set after key value).get before other = some same ∧
          (heap.set after key value).get after other = some same := by
        intro other member
        obtain ⟨same, old, fresh⟩ := others other member
        refine ⟨same, ?_, ?_⟩
        · rw [Heap.get, set_other heap different, ← Heap.get]
          exact old
        · rw [get_found (set_found found key value)]
          dsimp only
          rw [OrderedMap.get_set value there]
          split
          next equal_ =>
            rw [equal_, two] at fresh
            exact fresh
          next =>
            rw [get_found found] at fresh
            exact fresh
      obtain ⟨final, run⟩ := ih next_
      refine ⟨final, ?_⟩
      rw [reconcileKeys, two, one]
      dsimp only [Option.bind_eq_bind, Option.bind_some]
      rw [reconcile_same]
      dsimp only [Option.bind_some]
      rw [one, if_neg (not_not.mpr rfl)]
      exact run

theorem reconcile_aligned (fuel : Nat) {before after : Nat} (aligned : Aligned heap before after) :
    ∃ final, reconcile (fuel + 2) heap (.object before) (.object after) = some (final, .object before) := by
  by_cases different : before = after
  · subst different
    exact ⟨heap, reconcile_same (fuel + 1) heap _⟩
  · obtain ⟨oldCell, cell, found, found_, kind, same⟩ := aligned
    have length : cell.fields.keys.length = oldCell.fields.keys.length := by
      refine List.Perm.length_eq ?_
      rw [List.perm_ext_iff_of_nodup cell.fields.keys_nodup oldCell.fields.keys_nodup]
      intro key
      rw [OrderedMap.mem_keys, OrderedMap.mem_keys, same]
    have every : ∀ key ∈ cell.fields.keys, ∃ value, heap.get before key = some value ∧ heap.get after key = some value := by
      intro key member
      obtain ⟨value, held⟩ := Option.isSome_iff_exists.mp (OrderedMap.mem_keys.mp member)
      exact ⟨value, by rw [get_found found, ← same, held], by rw [get_found found_, held]⟩
    obtain ⟨final, run⟩ := reconcileKeys_aligned fuel different cell.fields.keys
      (cell.fields.keys.length = oldCell.fields.keys.length) every
    refine ⟨final, ?_⟩
    rw [reconcile, if_neg (fun equal => different (Value.object.inj equal))]
    dsimp only [Option.bind_eq_bind]
    rw [found, found_, Option.bind_some, Option.bind_some, if_neg (not_not.mpr kind), run, Option.bind_some]
    dsimp only
    rw [if_pos (decide_eq_true length)]

/-- A reconciled snapshot is the fresh one in value, and the earlier one wherever nothing has changed. -/
theorem snapshot_reconciled {old fresh : Tree} {depth fuel : Nat} (enough : depth < fuel)
    (apart : Disjoint region cells) (denotes : Denotes heap region previous old)
    (owns : Owns heap depth cells next fresh) :
    ∃ final result, reconcile fuel heap previous next = some (final, result) ∧
      Denotes final (region ∪ cells) result fresh ∧
      ((∀ address ∈ region, final address = heap address) ∧ Denotes final region previous old) ∧
      (result = previous ↔ old = fresh) ∧
      (∀ path part, old.follow path = some part → fresh.follow path = some part →
        final.follow result path = heap.follow previous path) ∧
      (∃ last, reconcile fuel final result next = some (last, result)) ∧
      ∀ later more again depth fuel, (∀ address ∈ region ∪ cells, later address = final address) →
        Disjoint (region ∪ cells) more → Owns later depth more again fresh → depth < fuel →
        ∃ last, reconcile fuel later result again = some (last, result) := by
  obtain ⟨final, result, called, reconciled⟩ := reconcile_spec enough apart denotes owns
  have left (address : Nat) (member : address ∈ region) : final address = heap address :=
    reconciled.frame address (Set.disjoint_left.mp apart member)
  refine ⟨final, result, called, reconciled.denotes, ⟨left, denotes.congr left⟩, ⟨?_, reconciled.shares.equal⟩, ?_, ?_, ?_⟩
  · intro same
    by_contra different
    rw [← reconciled.other different, same] at owns
    exact different (denotes.unique owns.denotes)
  · intro path part one two
    rw [reconciled.shares.paths path part one two]
    exact follow_congr denotes left path
  · obtain ⟨fuel, rfl⟩ := Nat.exists_eq_succ_of_ne_zero (Nat.ne_of_gt (Nat.zero_lt_of_lt enough))
    by_cases same : old = fresh
    · rw [reconciled.shares.equal same]
      cases owns with
      | atom atom =>
          subst same
          cases denotes
          exact ⟨final, reconcile_same fuel final _⟩
      | @object depth _ after cell children parts inside found keys part outside separate child =>
          cases denotes with
          | atom atom => cases same
          | @object before oldCell oldChildren inside_ found_ oldKeys oldChild =>
              obtain ⟨fuel, rfl⟩ := Nat.exists_eq_succ_of_ne_zero (Nat.ne_of_gt (Nat.zero_lt_of_lt (Nat.lt_of_succ_lt_succ enough)))
              exact reconcile_aligned fuel (reconciled.aligned same before after rfl rfl)
    · rw [reconciled.other same]
      exact ⟨final, reconcile_same fuel final next⟩
  · intro later more again depth_ fuel_ kept separate owned enough_
    obtain ⟨last, answer, call, agrees⟩ := reconcile_spec enough_ separate (reconciled.denotes.congr kept) owned
    rw [agrees.shares.equal rfl] at call
    exact ⟨last, call⟩

def singleCell : Cell :=
  { isArray := false, fields := { entries := [("status", .atom (.number 3))], distinct := List.nodup_singleton _ } }

/-- Two objects `{ "status": 3 }` -/
def twoCopies : Heap := fun address => if address < 2 then some singleCell else none

def singleTree : Tree := .node false fun key => (singleCell.fields.get key).map fun _ => .atom (.number 3)

theorem snapshot_reconciled_copies :
    ∃ final result, reconcile 2 twoCopies (.object 0) (.object 1) = some (final, result) ∧ result = .object 0 := by
  have keys (key : String) : ((singleCell.fields.get key).map fun _ => Tree.atom (.number 3)).isSome =
      (singleCell.fields.get key).isSome := Option.isSome_map
  have child (key : String) (value : Value) (tree : Tree) (held : singleCell.fields.get key = some value)
      (there : ((singleCell.fields.get key).map fun _ => Tree.atom (.number 3)) = some tree) :
      value = .atom (.number 3) ∧ tree = .atom (.number 3) := by
    rw [held] at there
    rw [OrderedMap.get_eq_some] at held
    exact ⟨congrArg Prod.snd (List.mem_singleton.mp held), (Option.some.inj there).symm⟩
  have denotes : Denotes twoCopies {0} (.object 0) singleTree := by
    refine @Denotes.object twoCopies {0} 0 singleCell _ rfl rfl keys ?_
    intro key value tree held there
    obtain ⟨rfl, rfl⟩ := child key value tree held there
    exact .atom _
  have owns : Owns twoCopies 1 {1} (.object 1) singleTree := by
    refine @Owns.object twoCopies 0 {1} 1 singleCell _ (fun _ => ∅) rfl rfl keys (fun _ => Set.empty_subset _)
      (fun _ => Set.notMem_empty _) (fun _ _ _ => disjoint_bot_left) ?_
    intro key value tree held there
    obtain ⟨rfl, rfl⟩ := child key value tree held there
    exact .atom _
  have apart : Disjoint ({0} : Set Nat) {1} := Set.disjoint_singleton.mpr (by decide)
  obtain ⟨final, result, called, -, -, same, -⟩ := snapshot_reconciled (Nat.lt_succ_self 1) apart denotes owns
  exact ⟨final, result, called, same.mpr rfl⟩

end Dockge.Snapshot
