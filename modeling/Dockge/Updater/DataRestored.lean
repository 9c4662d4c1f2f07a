import Dockge.Data.History
import Dockge.Updater.DataRestore

namespace Dockge.Updater.DataRestore

open Dockge.Data

/-! Whatever cuts a restore short, the next one goes on from one of three states. -/

variable {original : Directory} {snapshot : Snapshot} {disk : Disk} {leavings : Leavings}
  {path : RelPath} {entries : List (RelPath × Node)}

/-! ### What stands under a path -/

theorem nodeAt_put (directory : Option Directory) (path other : RelPath) (node : Node) :
    nodeAt (put directory path node) other = if other = path then some node else nodeAt directory other := by
  by_cases same : other = path
  · simp [nodeAt, put, same]
  · cases directory with
    | none => simp [nodeAt, put, same]
    | some directory => simp [nodeAt, put, same]

theorem nodeAt_alter (directory : Option Directory) (path other : RelPath) (change : Node → Node) :
    nodeAt (alter directory path change) other =
      if other = path then (nodeAt directory path).map change else nodeAt directory other := by
  unfold alter
  cases found : nodeAt directory path with
  | none =>
      by_cases same : other = path
      · simp [same, found]
      · simp [same]
  | some node => rw [nodeAt_put, Option.map_some]

def listing (written : Node → Node) (entries : List (RelPath × Node)) : Directory := fun path =>
  (entries.find? fun entry => entry.1 = path).map fun entry => written entry.2

/-- A node as the walk leaves it: directories get their owner and mode at the end. -/
def Node.walked : Node → Node
  | .dir _ => .dir (made 0o700)
  | .file bytes mode => .file bytes mode.masked
  | .other => .other

def Node.copied : Node → Node
  | .dir mode => .dir mode.masked
  | .file bytes mode => .file bytes mode.masked
  | .other => .other

/-- A full copy of a snapshot. -/
def Snapshot.copy (snapshot : Snapshot) : Directory := listing Node.copied snapshot.entries

theorem listing_snoc (written : Node → Node) (before : List (RelPath × Node)) (entry : RelPath × Node)
    (fresh : ∀ earlier ∈ before, earlier.1 ≠ entry.1) (path : RelPath) :
    listing written (before ++ [entry]) path =
      if path = entry.1 then some (written entry.2) else listing written before path := by
  unfold listing
  rw [List.find?_append]
  by_cases same : path = entry.1
  · subst same
    have absent : before.find? (fun earlier => earlier.1 = entry.1) = none := by
      rw [List.find?_eq_none]
      intro earlier member
      simpa using fresh earlier member
    simp [absent]
  · have miss : [entry].find? (fun earlier => earlier.1 = path) = none := by simp [Ne.symm same]
    rw [miss, Option.or_none, if_neg same]

/-! ### The three states -/

/-- The data is where it was. -/
def Untouched (original : Directory) (disk : Disk) : Prop :=
  disk.data = some original ∧ disk.failed = none

/-- The data is set aside, and a full copy waits beside it. -/
def SetAside (original : Directory) (snapshot : Snapshot) (disk : Disk) : Prop :=
  disk.data = none ∧ disk.failed = some original ∧ disk.staged = some snapshot.copy

def Restored (original : Directory) (snapshot : Snapshot) (disk : Disk) : Prop :=
  disk.data = some snapshot.copy ∧ disk.failed = some original ∧ disk.staged = none

def Safe (original : Directory) (snapshot : Snapshot) (disk : Disk) : Prop :=
  Untouched original disk ∨ SetAside original snapshot disk ∨ Restored original snapshot disk

/-! ### Steps -/

section
variable {step : Step} {effect : Disk → Disk} {returned : Unit → Disk → Prop}
  {threw : RestoreError → Disk → Prop} {stopped : Disk → Prop}

theorem perform_ensures (done : returned () (effect disk).next) (late : ∀ error, threw error (effect disk).next)
    (failed : ∀ error, threw error disk.next) (killed : stopped disk.next) :
    Ensures Fate.Any (perform step effect) disk returned threw stopped := by
  refine Ensures.operation trivial ?_
  intro fate _
  cases fate with
  | ok => exact done
  | fail => exact failed _
  | late => exact late _
  | kill => exact killed

/-- Code that looks at the disk goes on with what it sees. -/
theorem look_ensures {α : Type} {next : Disk → Task α} {returned : α → Disk → Prop}
    (after : Ensures Fate.Any (next disk) disk returned threw stopped) :
    Ensures Fate.Any (Program.look >>= next) disk returned threw stopped := by
  refine Ensures.bind (fun read reached => read = disk ∧ reached = disk) (Ensures.look ⟨rfl, rfl⟩) ?_
  intro read reached same
  obtain ⟨rfl, rfl⟩ := same
  exact after

theorem refuseIf_ensures {text : Option String} (passed : text = none → returned () disk)
    (refused : ∀ error, threw error disk) :
    Ensures Fate.Any (refuseIf text) disk returned threw stopped := by
  cases text with
  | none => exact Ensures.pure (passed rfl)
  | some text => exact Ensures.fail (refused _)

/-- A step that changes nothing keeps what does not count the steps. -/
theorem inspect_ensures {Holds : Disk → Prop} (holds : Holds disk.next) :
    Ensures Fate.Any (inspect step) disk (fun _ => Holds) (fun _ => Holds) Holds :=
  perform_ensures holds (fun _ => holds) (fun _ => holds) holds

theorem work_ensures {effect : Option Directory → Option Directory}
    (done : returned () { disk with staged := effect disk.staged }.next)
    (late : ∀ error, threw error { disk with staged := effect disk.staged }.next)
    (failed : ∀ error, threw error { disk with staged := leavings disk.steps disk.staged }.next)
    (killed : stopped { disk with staged := leavings disk.steps disk.staged }.next) :
    Ensures Fate.Any (work leavings step effect) disk returned threw stopped := by
  refine Ensures.operation trivial ?_
  intro fate _
  cases fate with
  | ok => exact done
  | fail => exact failed _
  | late => exact late _
  | kill => exact killed

end

/-! ### The copy -/

/-- The data is untouched and the staged copy holds this. -/
def Holding (original : Directory) (staged : Directory) (disk : Disk) : Prop :=
  Untouched original disk ∧ ∀ path, nodeAt disk.staged path = staged path

section
variable {staged : Directory} {step : Step}

/-- A program that keeps the data untouched, and leaves the staged copy like this if it returns. -/
def Stages (original : Directory) (program : Task Unit) (disk : Disk) (staged : Directory) : Prop :=
  Ensures Fate.Any program disk (fun _ => Holding original staged) (fun _ => Untouched original)
    (Untouched original)

theorem Stages.bind {first second : Task Unit} {middle : Directory}
    (before : Stages original first disk middle)
    (after : ∀ disk, Holding original middle disk → Stages original second disk staged) :
    Stages original (first >>= fun _ => second) disk staged :=
  Ensures.bind (fun _ => Holding original middle) before fun _ reached held => after reached held

theorem stages_inspect (held : Holding original staged disk) : Stages original (inspect step) disk staged :=
  perform_ensures held (fun _ => held.1) (fun _ => held.1) held.1

theorem stages_put (held : Holding original staged disk) (node : Node) :
    Stages original (perform step fun disk => { disk with staged := put disk.staged path node }) disk
      (Function.update staged path (some node)) := by
  refine perform_ensures ⟨held.1, ?_⟩ (fun _ => held.1) (fun _ => held.1) held.1
  intro other
  change nodeAt (put disk.staged path node) other = _
  rw [nodeAt_put, held.2, Function.update_apply]

theorem alter_holding (held : Holding original staged disk) (change : Node → Node) {node : Node}
    (found : staged path = some node) (other : RelPath) :
    nodeAt (alter disk.staged path change) other = Function.update staged path (some (change node)) other := by
  rw [nodeAt_alter, held.2, held.2, found, Option.map_some, Function.update_apply]

theorem stages_alter (held : Holding original staged disk) (change : Node → Node) {node : Node}
    (found : staged path = some node) :
    Stages original (perform step fun disk => { disk with staged := alter disk.staged path change }) disk
      (Function.update staged path (some (change node))) :=
  perform_ensures ⟨held.1, alter_holding held change found⟩ (fun _ => held.1) (fun _ => held.1) held.1

theorem stages_work (held : Holding original staged disk) (change : Node → Node) {node : Node}
    (found : staged path = some node) :
    Stages original (work leavings step fun staged => alter staged path change) disk
      (Function.update staged path (some (change node))) :=
  work_ensures ⟨held.1, alter_holding held change found⟩ (fun _ => held.1) (fun _ => held.1) held.1

theorem stages_mkdirAll (held : Holding original staged disk) (fresh : staged path = none) :
    Stages original (mkdirAll path) disk (Function.update staged path (some (.dir (made 0o700)))) := by
  refine look_ensures ?_
  have absent : nodeAt disk.staged path = none := (held.2 path).trans fresh
  simp only [absent]
  exact stages_put held _

theorem stages_create (held : Holding original staged disk) (fresh : staged path = none) :
    Stages original (create path) disk (Function.update staged path (some (.file [] (made 0o600)))) := by
  refine look_ensures ?_
  have absent : nodeAt disk.staged path = none := (held.2 path).trans fresh
  simp only [absent]
  exact stages_put held _

theorem stages_check (held : Holding original staged disk) {bytes : List UInt8} {mode : Meta}
    (found : staged path = some (.file bytes mode)) : Stages original (check path bytes) disk staged := by
  refine Stages.bind (stages_inspect held) ?_
  intro disk held
  refine look_ensures ?_
  have there : nodeAt disk.staged path = some (.file bytes mode) := (held.2 path).trans found
  simp only [there]
  exact refuseIf_ensures (fun _ => held) fun _ => held.1

theorem stages_congr {program : Task Unit} {other : Directory} (stages : Stages original program disk staged)
    (same : staged = other) : Stages original program disk other := same ▸ stages

/-- One entry of the walk. -/
theorem stages_copyEntry (held : Holding original staged disk) (entry : RelPath × Node)
    (fresh : staged entry.1 = none) :
    Stages original (copyEntry leavings entry) disk
      (Function.update staged entry.1 (some entry.2.walked)) := by
  obtain ⟨path, node⟩ := entry
  refine Stages.bind (stages_inspect held) ?_
  intro disk held
  cases node with
  | dir mode => exact stages_mkdirAll held fresh
  | other => exact Ensures.fail held.1
  | file bytes mode =>
      refine Stages.bind (stages_inspect held) ?_
      intro disk held
      refine Stages.bind (stages_create held fresh) ?_
      intro disk held
      refine Stages.bind (stages_work held (Node.write bytes) (Function.update_self _ _ _)) ?_
      intro disk held
      rw [Function.update_idem] at held
      refine Stages.bind (stages_inspect held) ?_
      intro disk held
      refine Stages.bind (stages_check held (Function.update_self _ _ _)) ?_
      intro disk held
      refine Stages.bind (stages_alter held (Node.chown mode) (Function.update_self _ _ _)) ?_
      intro disk held
      rw [Function.update_idem] at held
      refine stages_congr (stages_alter held (Node.chmod (mode.perm &&& 0o770)) (Function.update_self _ _ _)) ?_
      rw [Function.update_idem]
      rfl

theorem Snapshot.fresh {before after : List (RelPath × Node)} {entry : RelPath × Node}
    (split : snapshot.entries = before ++ entry :: after) : ∀ earlier ∈ before, earlier.1 ≠ entry.1 := by
  have distinct := snapshot.distinct
  change snapshot.entries.Pairwise _ at distinct
  rw [split, List.pairwise_append] at distinct
  intro earlier member
  exact distinct.2.2 earlier member entry List.mem_cons_self

theorem listing_fresh {written : Node → Node} {before : List (RelPath × Node)}
    (fresh : ∀ earlier ∈ before, earlier.1 ≠ path) : listing written before path = none := by
  have absent : before.find? (fun earlier => earlier.1 = path) = none := by
    rw [List.find?_eq_none]
    intro earlier member
    simpa using fresh earlier member
  simp only [listing, absent, Option.map_none]

/-- The whole walk. -/
theorem stages_walk (held : Holding original (fun _ => none) disk) (snapshot : Snapshot) :
    Stages original (Program.forEach snapshot.entries (copyEntry leavings)) disk
      (listing Node.walked snapshot.entries) := by
  refine Ensures.forEach (fun before => Holding original (listing Node.walked before)) held ?_
  intro before entry after disk split through
  have fresh := Snapshot.fresh split
  refine stages_congr (stages_copyEntry through entry (listing_fresh fresh)) ?_
  funext other
  rw [listing_snoc Node.walked before entry fresh other, Function.update_apply]

/-- The directories of this list are finished. -/
def finished (entries : List (RelPath × Node)) (dirs : List (RelPath × Meta)) : Directory := fun path =>
  if path ∈ dirs.map Prod.fst then listing Node.copied entries path else listing Node.walked entries path

theorem mem_dirsOf {dir : RelPath × Meta} : dir ∈ dirsOf entries ↔ (dir.1, Node.dir dir.2) ∈ entries := by
  obtain ⟨path, mode⟩ := dir
  simp only [dirsOf, List.mem_filterMap]
  constructor
  · intro some
    obtain ⟨⟨name, node⟩, member, same⟩ := some
    cases node with
    | dir other =>
        cases same
        exact member
    | file bytes other => cases same
    | other => cases same
  · intro member
    exact ⟨_, member, rfl⟩

theorem listing_mem {written : Node → Node} {entry : RelPath × Node} (snapshot : Snapshot)
    (member : entry ∈ snapshot.entries) :
    listing written snapshot.entries entry.1 = some (written entry.2) := by
  obtain ⟨before, after, split⟩ := List.append_of_mem member
  have fresh := Snapshot.fresh split
  have absent : before.find? (fun earlier => earlier.1 = entry.1) = none := by
    rw [List.find?_eq_none]
    intro earlier found
    simpa using fresh earlier found
  simp [listing, split, List.find?_append, absent]

/-- One directory gets its owner and its mode. -/
theorem stages_finishDir {dirs : List (RelPath × Meta)}
    (held : Holding original (finished snapshot.entries dirs) disk) (dir : RelPath × Meta)
    (member : dir ∈ dirsOf snapshot.entries) :
    Stages original (finishDir dir) disk (finished snapshot.entries (dirs ++ [dir])) := by
  have entry := mem_dirsOf.mp member
  have copied : listing Node.copied snapshot.entries dir.1 = some (.dir dir.2.masked) :=
    listing_mem snapshot entry
  have walked : listing Node.walked snapshot.entries dir.1 = some (.dir (made 0o700)) :=
    listing_mem snapshot entry
  have there : ∃ mode, finished snapshot.entries dirs dir.1 = some (.dir mode) := by
    unfold finished
    split
    · exact ⟨_, copied⟩
    · exact ⟨_, walked⟩
  obtain ⟨mode, found⟩ := there
  refine Stages.bind (stages_alter held (Node.chown dir.2) found) ?_
  intro disk held
  refine Stages.bind (stages_alter held (Node.chmod (dir.2.perm &&& 0o770)) (Function.update_self _ _ _)) ?_
  intro disk held
  rw [Function.update_idem] at held
  refine stages_congr (stages_inspect held) ?_
  funext other
  rw [Function.update_apply]
  unfold finished
  by_cases same : other = dir.1
  · subst same
    rw [if_pos rfl, if_pos (by simp), copied]
    rfl
  · have among : other ∈ (dirs ++ [dir]).map Prod.fst ↔ other ∈ dirs.map Prod.fst := by simp [same]
    rw [if_neg same]
    simp only [among]

/-- A finished walk is a full copy. -/
theorem finished_copy (snapshot : Snapshot) :
    finished snapshot.entries (dirsOf snapshot.entries).reverse = snapshot.copy := by
  funext path
  unfold finished Snapshot.copy
  split
  · rfl
  · rename_i plain
    unfold listing
    cases found : snapshot.entries.find? (fun entry => entry.1 = path) with
    | none => rfl
    | some entry =>
        have member := List.mem_of_find?_eq_some found
        have named : entry.1 = path := by simpa using List.find?_some found
        obtain ⟨name, node⟩ := entry
        cases node with
        | dir mode =>
            have among : (name, mode) ∈ dirsOf snapshot.entries := mem_dirsOf.mpr member
            exact absurd (List.mem_map.mpr ⟨_, List.mem_reverse.mpr among, named⟩) plain
        | file bytes mode => rfl
        | other => rfl

theorem stages_finish (held : Holding original (listing Node.walked snapshot.entries) disk) :
    Stages original (Program.forEach (dirsOf snapshot.entries).reverse finishDir) disk snapshot.copy := by
  rw [← finished_copy snapshot]
  refine Ensures.forEach (fun done => Holding original (finished snapshot.entries done)) ?_ ?_
  · exact ⟨held.1, fun path => by rw [held.2]; simp [finished]⟩
  · intro before dir after disk split through
    have member : dir ∈ dirsOf snapshot.entries := by
      rw [← List.mem_reverse, split]
      simp
    exact stages_finishDir through dir member

theorem stages_copyTree (held : Holding original (fun _ => none) disk) (snapshot : Snapshot) :
    Stages original (copyTree leavings snapshot) disk snapshot.copy := by
  refine Stages.bind (stages_walk held snapshot) ?_
  intro disk held
  refine Stages.bind (stages_finish held) ?_
  intro disk held
  exact stages_inspect held

/-- The staged copy is there as a directory. -/
theorem Holding.whole (held : Holding original snapshot.copy disk) : disk.staged = some snapshot.copy := by
  have root : snapshot.copy [] = some (.dir snapshot.root.masked) :=
    @listing_mem _ ([], .dir snapshot.root) snapshot List.mem_cons_self
  cases there : disk.staged with
  | none =>
      have nothing := held.2 []
      rw [root, there] at nothing
      cases nothing
  | some directory =>
      congr 1
      funext path
      have same := held.2 path
      rw [there] at same
      exact same

end

/-! ### A run -/

section
variable {Hash : Type} [DecidableEq Hash] {request : Request Hash}

/-- The data is set aside once the copy is whole. -/
theorem stage_ensures (untouched : Untouched original disk) :
    Ensures Fate.Any (do
        Program.onlyIf disk.staged.isSome (work leavings .removeAll fun _ => none)
        copyTree leavings snapshot
        rename Disk.data renameData
        inspect .syncDir) disk
      (fun _ => SetAside original snapshot) (fun _ => Safe original snapshot) (Safe original snapshot) := by
  have safe : ∀ {reached}, Untouched original reached → Safe original snapshot reached := .inl
  refine Ensures.bind (fun _ => Holding original fun _ => none) ?_ ?_
  · refine Ensures.onlyIf ?_ ?_
    · intro _
      exact work_ensures ⟨untouched, fun _ => rfl⟩ (fun _ => safe untouched) (fun _ => safe untouched)
        (safe untouched)
    · intro none
      refine ⟨untouched, fun path => ?_⟩
      have absent : disk.staged = Option.none := by simpa using none
      rw [absent]
      rfl
  · intro _ disk held
    refine Ensures.bind (fun _ => Holding original snapshot.copy) ?_ ?_
    · exact (stages_copyTree held snapshot).mono (fun _ _ post => post) (fun _ _ => safe) fun _ => safe
    · intro _ disk held
      obtain ⟨there, unset⟩ := held.1
      have aside : SetAside original snapshot (renameData disk).next :=
        ⟨rfl, there, held.whole⟩
      refine Ensures.bind (fun _ => SetAside original snapshot) ?_ ?_
      · refine look_ensures ?_
        simp only [there, Option.isSome_some, if_true]
        exact perform_ensures aside (fun _ => .inr (.inl aside)) (fun _ => safe held.1) (safe held.1)
      · intro _ disk aside
        exact perform_ensures aside (fun _ => .inr (.inl aside)) (fun _ => .inr (.inl aside))
          (.inr (.inl aside))

/-- The copy takes the place of the data that was set aside. -/
theorem place_ensures (aside : SetAside original snapshot disk) :
    Ensures Fate.Any (do
        rename Disk.staged renameStaged
        inspect .syncDir) disk
      (fun _ => Restored original snapshot) (fun _ => Safe original snapshot) (Safe original snapshot) := by
  obtain ⟨gone, failed, staged⟩ := aside
  have placed : Restored original snapshot (renameStaged disk).next := ⟨staged, failed, rfl⟩
  have still : Safe original snapshot disk.next := .inr (.inl ⟨gone, failed, staged⟩)
  refine Ensures.bind (fun _ => Restored original snapshot) ?_ ?_
  · refine look_ensures ?_
    simp only [staged, Option.isSome_some, if_true]
    exact perform_ensures placed (fun _ => .inr (.inr placed)) (fun _ => still) still
  · intro _ disk placed
    exact perform_ensures placed (fun _ => .inr (.inr placed)) (fun _ => .inr (.inr placed))
      (.inr (.inr placed))

theorem Safe.next (safe : Safe original snapshot disk) : Safe original snapshot disk.next := safe

/-- Every run from a safe state stops in one, and one that returns has restored the data. -/
theorem restoreData_ensures (safe : Safe original request.snapshot disk) :
    Ensures Fate.Any (restoreData leavings request) disk
      (fun _ => Restored original request.snapshot) (fun _ => Safe original request.snapshot)
      (Safe original request.snapshot) := by
  refine Ensures.bind (fun _ => Safe original request.snapshot) (refuseIf_ensures (fun _ => safe) fun _ => safe) ?_
  intro _ disk safe
  refine Ensures.bind (fun _ => Safe original request.snapshot) (inspect_ensures safe.next) ?_
  intro _ disk safe
  refine Ensures.bind (fun _ => Safe original request.snapshot) (inspect_ensures safe.next) ?_
  intro _ disk safe
  refine Ensures.bind (fun _ => Safe original request.snapshot) (refuseIf_ensures (fun _ => safe) fun _ => safe) ?_
  intro _ disk safe
  refine look_ensures ?_
  refine Ensures.bind (fun _ reached => SetAside original request.snapshot reached ∨
    Restored original request.snapshot reached) ?_ ?_
  · rcases safe with untouched | aside | restored
    · simp only [untouched.2, Option.isNone_none, Program.onlyIf, if_true]
      exact (stage_ensures untouched).mono (fun _ _ => .inl) (fun _ _ post => post) fun _ post => post
    · simp only [aside.2.1, Option.isNone_some, Program.onlyIf, Bool.false_eq_true, if_false]
      exact Ensures.pure (.inl aside)
    · simp only [restored.2.1, Option.isNone_some, Program.onlyIf, Bool.false_eq_true, if_false]
      exact Ensures.pure (.inr restored)
  · intro _ disk either
    refine look_ensures ?_
    rcases either with aside | restored
    · simp only [aside.1, Option.isNone_none, Program.onlyIf, if_true]
      exact place_ensures aside
    · simp only [restored.1, Option.isNone_some, Program.onlyIf, Bool.false_eq_true, if_false]
      exact Ensures.pure restored

/-- A run that returns found nothing to refuse. -/
theorem restoreData_accepts : Ensures Fate.Any (restoreData leavings request) disk
    (fun _ _ => validateRestore request.data request.backup request.id = none ∧
      verifySnapshot request.sha256 request.recorded request.snapshot = none)
    (fun _ _ => True) fun _ => True := by
  refine Ensures.bind (fun _ _ => validateRestore request.data request.backup request.id = none)
    (refuseIf_ensures id fun _ => trivial) ?_
  intro _ disk valid
  refine Ensures.bind (fun _ _ => True) Ensures.trivial ?_
  intro _ disk _
  refine Ensures.bind (fun _ _ => True) Ensures.trivial ?_
  intro _ disk _
  refine Ensures.bind (fun _ _ => verifySnapshot request.sha256 request.recorded request.snapshot = none)
    (refuseIf_ensures id fun _ => trivial) ?_
  intro _ disk verified
  exact Ensures.trivial.mono (fun _ _ _ => ⟨valid, verified⟩) (fun _ _ post => post) fun _ post => post

/-- The data was restored once, and this is in its place now. -/
def Kept (original : Directory) (data : Option Directory) (disk : Disk) : Prop :=
  disk.data = data ∧ disk.failed = some original ∧ disk.staged = none

/-- A further run changes nothing. -/
theorem restoreData_again {data : Option Directory} (kept : Kept original data disk) :
    Ensures Fate.Any (restoreData leavings request) disk (fun _ => Kept original data)
      (fun _ => Kept original data) (Kept original data) := by
  refine Ensures.bind (fun _ => Kept original data) (refuseIf_ensures (fun _ => kept) fun _ => kept) ?_
  intro _ disk kept
  refine Ensures.bind (fun _ => Kept original data) (inspect_ensures kept) ?_
  intro _ disk kept
  refine Ensures.bind (fun _ => Kept original data) (inspect_ensures kept) ?_
  intro _ disk kept
  refine Ensures.bind (fun _ => Kept original data) (refuseIf_ensures (fun _ => kept) fun _ => kept) ?_
  intro _ disk kept
  refine look_ensures ?_
  simp only [kept.2.1, Option.isNone_some, Program.onlyIf, Bool.false_eq_true, if_false]
  refine Ensures.bind (fun _ => Kept original data) (Ensures.pure kept) ?_
  intro _ disk kept
  refine look_ensures ?_
  split
  · -- somebody took the data directory away, and no copy is left to take its place
    refine Ensures.bind (fun _ => Kept original data) ?_ fun _ disk kept => inspect_ensures kept
    refine look_ensures ?_
    simp only [kept.2.2, Option.isSome_none, Bool.false_eq_true, if_false]
    exact Ensures.fail kept
  · exact Ensures.pure kept

/-- Left alone, a further run returns. -/
theorem restoreData_returns {data : Directory} (kept : Kept original (some data) disk)
    (valid : validateRestore request.data request.backup request.id = none)
    (verified : verifySnapshot request.sha256 request.recorded request.snapshot = none) :
    (restoreData leavings request [] disk).ending.isDone = true := by
  obtain ⟨there, failed, staged⟩ := kept
  obtain ⟨_, _, _, steps⟩ := disk
  cases there
  cases failed
  unfold restoreData
  rw [valid, verified]
  rfl

/-! ### Runs -/

inductive Turn where
  | run (fates : List Fate)
  /-- Somebody writes the data directory. -/
  | write (data : Option Directory)

def turn (leavings : Leavings) (request : Request Hash) (disk : Disk) : Turn → Disk
  | .run fates => (restoreData leavings request fates disk).state
  | .write data => { disk with data := data }

def attempts (leavings : Leavings) (request : Request Hash) (disk : Disk) (runs : List (List Fate)) : Disk :=
  replay (fun disk fates => (restoreData leavings request fates disk).state) disk runs

/-- A host before the first run, with whatever stands under the staged name. -/
def Disk.before (original : Directory) (staged : Option Directory) : Disk :=
  { data := some original, staged := staged, failed := none, steps := 0 }

theorem attempts_safe (leavings : Leavings) (request : Request Hash) (original : Directory)
    (staged : Option Directory) (runs : List (List Fate)) :
    Safe original request.snapshot (attempts leavings request (.before original staged) runs) := by
  refine replay_invariant (.inl ⟨rfl, rfl⟩) ?_ runs
  intro disk fates safe
  exact ((restoreData_ensures safe).mono (fun _ _ => Or.inr ∘ Or.inr) (fun _ _ post => post)
    fun _ post => post).state_of fun _ _ => trivial

/-- However often the restore is cut short, nothing is lost, and the run that completes puts a full
copy of the snapshot in the place of the data and keeps the data beside it; from then on runs leave
the data directory as it is. -/
theorem restore_repeatable (leavings : Leavings) (request : Request Hash) (original : Directory)
    (staged : Option Directory) (runs : List (List Fate)) :
    let disk := attempts leavings request (.before original staged) runs
    Safe original request.snapshot disk ∧
      ∀ fates, (restoreData leavings request fates disk).ending.isDone = true →
        let done := (restoreData leavings request fates disk).state
        done.data = some request.snapshot.copy ∧ done.failed = some original ∧
          ∀ later : List Turn, let reached := replay (turn leavings request) done later
            (∀ fates, (restoreData leavings request fates reached).state.data = reached.data) ∧
              reached.failed = some original ∧
              (reached.data.isSome → (restoreData leavings request [] reached).ending.isDone = true) := by
  intro disk
  have safe : Safe original request.snapshot disk := attempts_safe leavings request original staged runs
  refine ⟨safe, ?_⟩
  intro fates completes done
  obtain ⟨-, restored⟩ := (restoreData_ensures safe).returned_of (fun _ _ => trivial) completes
  obtain ⟨-, valid, verified⟩ := restoreData_accepts.returned_of (fun _ _ => trivial) completes
  refine ⟨restored.1, restored.2.1, ?_⟩
  intro later reached
  have kept : Kept original reached.data reached := by
    refine replay_invariant (motive := fun disk => Kept original disk.data disk) ⟨rfl, restored.2⟩ ?_ later
    intro disk event kept
    cases event with
    | run fates =>
        have same : Kept original disk.data (turn leavings request disk (.run fates)) :=
          (restoreData_again kept).state_of fun _ _ => trivial
        exact ⟨rfl, same.2⟩
    | write data => exact ⟨rfl, kept.2⟩
  refine ⟨?_, kept.2.1, ?_⟩
  · intro fates
    have same : Kept original reached.data (restoreData leavings request fates reached).state :=
      (restoreData_again kept).state_of fun _ _ => trivial
    exact same.1
  · intro there
    obtain ⟨data, found⟩ := Option.isSome_iff_exists.mp there
    rw [found] at kept
    exact restoreData_returns kept valid verified

/-- The snapshot of a data directory with one file. -/
def oneFile : Request (List UInt8) where
  data := ["srv", "dockge", "data"]
  backup := ["opt", "dockge", ".dockge2", "operations", "20260102T030405.000000006", "data-backup"]
  id := "20260102T030405.000000006"
  sha256 := fun bytes => bytes
  recorded := [(["dockge.db"], [1, 2])]
  snapshot :=
    { root := made 0o755
      rest := [(["dockge.db"], .file [1, 2] (made 0o644))]
      distinct := by simp }

/-- Whatever is cut short leaves a device in the place of everything. -/
def rubbish : Leavings := fun _ _ => some fun _ => some .other

/-- The first run is killed while it copies the file, and the second one completes. -/
theorem restore_repeatable_killed :
    let disk := attempts rubbish oneFile (.before (fun _ => none) none)
      [[.ok, .ok, .ok, .ok, .ok, .ok, .ok, .kill]]
    (restoreData rubbish oneFile [] disk).state.data = some oneFile.snapshot.copy :=
  ((restore_repeatable rubbish oneFile (fun _ => none) none
    [[.ok, .ok, .ok, .ok, .ok, .ok, .ok, .kill]]).2 [] (by decide +kernel)).1

end

end Dockge.Updater.DataRestore
