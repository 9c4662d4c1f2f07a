import Dockge.Mcp.Identities
import Mathlib.Data.List.Nodup

namespace Dockge.Mcp.Identities

open Data

/-! What an identity is bound to, and when it stays bound. -/

variable {world after : World} {task : Nat} {name : String} {row : Row} {clone : Published}

/-- The directory of a clone stands under its name. -/
def World.Stands (world : World) (clone : Published) : Prop :=
  ∃ directory, world.lstat clone.name = some directory ∧ directory.fingerprint = clone.fingerprint

/-- The row is that of the directory which now stands under its name. -/
def World.Current (world : World) (row : Row) : Prop :=
  ∃ directory, world.lstat row.name = some directory ∧ row.fingerprint = some directory.fingerprint

/-- What a clone read of its reservation still says what it says. -/
def Captured (world : World) (row : Row) : Prop :=
  row.id < world.nextId ∧ ∀ held ∈ world.rows, held.id = row.id → held.name = row.name

def PhaseSound (world : World) : Phase → Prop
  | .looking row _ | .statting row _ | .fetching row | .making row | .publishing row => Captured world row
  | .cleaning row fingerprint | .binding row fingerprint _ | .finishing row fingerprint =>
      Captured world row ∧ ⟨row.id, row.name, fingerprint⟩ ∈ world.published
  | .listing listing | .checking listing _ _ | .storing listing _ _ | .listed listing =>
      ∀ clone ∈ listing.since, clone ∈ world.kept
  | _ => True

/-- What holds whatever is called and whatever others do. -/
structure Sound (world : World) : Prop where
  names : (world.rows.map (·.name)).Nodup
  ids : (world.rows.map (·.id)).Nodup
  issued : ∀ row ∈ world.rows, row.id < world.nextId
  directoryNames : (world.directories.map (·.name)).Nodup
  made : ∀ directory ∈ world.directories, directory.fingerprint < world.nextFingerprint
  publishedMade : ∀ clone ∈ world.published, clone.fingerprint < world.nextFingerprint
  keptPublished : ∀ clone ∈ world.kept, clone ∈ world.published
  reported : ∀ report ∈ world.reports, report.1 < world.nextId ∧
    ∀ row ∈ world.rows, row.id = report.1 → row.fingerprint = some report.2
  once : ∀ first ∈ world.reports, ∀ second ∈ world.reports, first.1 = second.1 → first.2 = second.2
  tasks : ∀ (task : Nat) (phase : Phase), world.tasks[task]? = some phase → PhaseSound world phase

/-- What a step may do to the rows and the directories: rows keep their names, and a directory that is
there was there before or is new. -/
structure Grows (before after : World) : Prop where
  nextId : before.nextId ≤ after.nextId
  published : ∀ clone ∈ before.published, clone ∈ after.published
  kept : ∀ clone ∈ before.kept, clone ∈ after.kept
  rows : ∀ row ∈ after.rows, (∃ held ∈ before.rows, held.id = row.id ∧ held.name = row.name) ∨
    before.nextId ≤ row.id
  directories : ∀ directory ∈ after.directories, directory.fingerprint < before.nextFingerprint →
    ∃ held ∈ before.directories, held.name = directory.name ∧ held.fingerprint = directory.fingerprint

theorem Grows.captured (grows : Grows world after) (captured : Captured world row) : Captured after row := by
  obtain ⟨issued, named⟩ := captured
  refine ⟨Nat.lt_of_lt_of_le issued grows.nextId, fun held member same => ?_⟩
  obtain ⟨old, found, id, its⟩ | fresh := grows.rows held member
  · exact its.symm.trans (named old found (id.trans same))
  · rw [same] at fresh
    exact absurd issued (Nat.not_lt_of_le fresh)

theorem PhaseSound.grows {phase : Phase} (grows : Grows world after) (sound : PhaseSound world phase) :
    PhaseSound after phase := by
  cases phase with
  | looking | statting | fetching | making | publishing => exact grows.captured sound
  | cleaning | binding | finishing => exact ⟨grows.captured sound.1, grows.published _ sound.2⟩
  | listing | checking | storing | listed => exact fun clone since => grows.kept clone (sound clone since)
  | reading | reserving | storingReservation | reserved | finding | removing | unreserved | preparing | saved
  | failed => trivial

/-- A directory is found by its name. -/
theorem World.lstat_of_mem (sound : (world.directories.map (·.name)).Nodup) {directory : Directory}
    (member : directory ∈ world.directories) : world.lstat directory.name = some directory := by
  cases found : world.lstat directory.name with
  | none =>
      have absent := List.find?_eq_none.mp found directory member
      simp at absent
  | some held =>
      have same : held.name = directory.name := by simpa using List.find?_some found
      exact congrArg some (List.inj_on_of_nodup_map sound (List.mem_of_find?_eq_some found) member same)

theorem World.mem_of_lstat {directory : Directory} (found : world.lstat name = some directory) :
    directory ∈ world.directories ∧ directory.name = name :=
  ⟨List.mem_of_find?_eq_some found, by simpa using List.find?_some found⟩

/-- What stands after a step and was published before it stood before. -/
theorem Grows.stands (grows : Grows world after) (sound : Sound world)
    (made : clone.fingerprint < world.nextFingerprint) (stands : after.Stands clone) : world.Stands clone := by
  obtain ⟨directory, found, same⟩ := stands
  obtain ⟨member, named⟩ := World.mem_of_lstat found
  obtain ⟨held, old, name, fingerprint⟩ := grows.directories directory member (same ▸ made)
  refine ⟨held, ?_, fingerprint.trans same⟩
  rw [← named, ← name]
  exact World.lstat_of_mem sound.directoryNames old

namespace Sound

theorem goOn (sound : Sound world) {phase : Phase} (next : PhaseSound world phase) :
    Sound (world.goOn task phase) :=
  { sound with
    tasks := by
      intro other held found
      change (world.tasks.set task phase)[other]? = some held at found
      have kept : PhaseSound world held := by
        rw [List.getElem?_set] at found
        split at found
        · split at found
          · cases found
            exact next
          · cases found
        · exact sound.tasks other held found
      cases held <;> exact kept }

theorem begin_ (sound : Sound world) {phase : Phase} (next : PhaseSound world phase) : Sound (world.begin_ phase) :=
  { sound with
    tasks := by
      intro other held found
      change (world.tasks ++ [phase])[other]? = some held at found
      have kept : PhaseSound world held := by
        rw [List.getElem?_append] at found
        split at found
        · exact sound.tasks other held found
        · rw [List.getElem?_singleton] at found
          split at found
          · cases found
            exact next
          · cases found
      cases held <;> exact kept }

end Sound

theorem Grows.replaceRow (name : String) (fingerprint : Option Nat) : Grows world (world.replaceRow name fingerprint) where
  nextId := Nat.le_succ _
  published _ member := member
  kept _ member := member
  rows held member := by
    simp only [World.replaceRow, List.mem_append, List.mem_filter, List.mem_singleton] at member
    obtain ⟨old, -⟩ | rfl := member
    · exact .inl ⟨held, old, rfl, rfl⟩
    · exact .inr (Nat.le_refl _)
  directories directory member _ := ⟨directory, member, rfl, rfl⟩

theorem Grows.of_rows {rows : List Row}
    (kept : ∀ row ∈ rows, ∃ held ∈ world.rows, held.id = row.id ∧ held.name = row.name) (bound : List (Nat × Nat)) :
    Grows world { world with rows := rows, bound := bound } where
  nextId := Nat.le_refl _
  published _ member := member
  kept _ member := member
  rows held member := .inl (kept held member)
  directories directory member _ := ⟨directory, member, rfl, rfl⟩

namespace Sound

theorem replaceRow (sound : Sound world) (name : String) (fingerprint : Option Nat) :
    Sound (world.replaceRow name fingerprint) where
  names := by
    simp only [World.replaceRow, List.map_append, List.map_cons, List.map_nil]
    refine List.nodup_append.mpr ⟨sound.names.sublist (List.filter_sublist.map _), by simp, ?_⟩
    intro held member added found same
    obtain ⟨row, kept, rfl⟩ := List.mem_map.mp member
    have differs := List.of_mem_filter kept
    rw [List.mem_singleton] at found
    simp [same, found] at differs
  ids := by
    simp only [World.replaceRow, List.map_append, List.map_cons, List.map_nil]
    refine List.nodup_append.mpr ⟨sound.ids.sublist (List.filter_sublist.map _), by simp, ?_⟩
    intro held member added found same
    obtain ⟨row, kept, rfl⟩ := List.mem_map.mp member
    have bound := sound.issued row (List.mem_of_mem_filter kept)
    rw [List.mem_singleton] at found
    exact absurd bound (by rw [same, found]; exact Nat.lt_irrefl _)
  issued row member := by
    simp only [World.replaceRow, List.mem_append, List.mem_filter, List.mem_singleton] at member
    obtain ⟨old, -⟩ | rfl := member
    · exact Nat.lt_trans (sound.issued row old) (Nat.lt_succ_self _)
    · exact Nat.lt_succ_self _
  directoryNames := sound.directoryNames
  made := sound.made
  publishedMade := sound.publishedMade
  keptPublished := sound.keptPublished
  reported report member := by
    obtain ⟨issued, bound⟩ := sound.reported report member
    refine ⟨Nat.lt_trans issued (Nat.lt_succ_self _), fun row held same => ?_⟩
    simp only [World.replaceRow, List.mem_append, List.mem_filter, List.mem_singleton] at held
    obtain ⟨old, -⟩ | rfl := held
    · exact bound row old same
    · rw [← same] at issued
      exact absurd issued (Nat.lt_irrefl _)
  once := sound.once
  tasks task phase found := (sound.tasks task phase found).grows (.replaceRow name fingerprint)

/-- An identity is reported for the directory its row is bound to. -/
theorem report (sound : Sound world) {fingerprint : Nat} (member : row ∈ world.rows)
    (bound : row.fingerprint = some fingerprint) : Sound (world.report row.id fingerprint) :=
  { sound with
    reported := by
      intro report listed
      simp only [World.report, List.mem_append, List.mem_singleton] at listed
      obtain listed | rfl := listed
      · exact sound.reported report listed
      · refine ⟨sound.issued row member, fun held found same => ?_⟩
        rw [List.inj_on_of_nodup_map sound.ids found member same]
        exact bound
    once := by
      have agrees {report : Nat × Nat} (listed : report ∈ world.reports) (same : report.1 = row.id) :
          report.2 = fingerprint := by
        have held := (sound.reported report listed).2 row member same.symm
        rw [bound] at held
        exact (Option.some.inj held).symm
      intro first listed second found same
      simp only [World.report, List.mem_append, List.mem_singleton] at listed found
      obtain listed | rfl := listed
      · obtain found | rfl := found
        · exact sound.once first listed second found same
        · exact agrees listed same
      · obtain found | rfl := found
        · exact (agrees found same.symm).symm
        · rfl
    tasks := by
      intro other phase found
      have kept := sound.tasks other phase found
      cases phase <;> exact kept }

theorem of_rows (sound : Sound world) {rows : List Row} (names : (rows.map (·.name)).Nodup)
    (ids : (rows.map (·.id)).Nodup)
    (kept : ∀ row ∈ rows, ∃ held ∈ world.rows, held.id = row.id ∧ held.name = row.name ∧
      (held.fingerprint.isSome → row.fingerprint = held.fingerprint)) (bound : List (Nat × Nat)) :
    Sound { world with rows := rows, bound := bound } where
  names := names
  ids := ids
  issued row member := by
    obtain ⟨held, old, id, -⟩ := kept row member
    exact id ▸ sound.issued held old
  directoryNames := sound.directoryNames
  made := sound.made
  publishedMade := sound.publishedMade
  keptPublished := sound.keptPublished
  reported report listed := by
    obtain ⟨issued, settled⟩ := sound.reported report listed
    refine ⟨issued, fun row member same => ?_⟩
    obtain ⟨held, old, id, -, fingerprint⟩ := kept row member
    have its := settled held old (id.trans same)
    rw [fingerprint (by rw [its]; rfl), its]
  once := sound.once
  tasks task phase found := (sound.tasks task phase found).grows
    (.of_rows (fun row member => by
      obtain ⟨held, old, id, name, -⟩ := kept row member
      exact ⟨held, old, id, name⟩) bound)

theorem unreserve (sound : Sound world) (id : Nat) : Sound (world.unreserve id) :=
  sound.of_rows (sound.names.sublist (List.filter_sublist.map _)) (sound.ids.sublist (List.filter_sublist.map _))
    (fun row member => ⟨row, List.mem_of_mem_filter member, rfl, rfl, fun _ => rfl⟩) world.bound

theorem bind (sound : Sound world) (row : Row) (seen : Nat) : Sound (world.bind row seen) := by
  unfold World.bind
  split
  · refine sound.of_rows ?_ ?_ ?_ _
    · rw [List.map_map]
      refine (List.map_congr_left fun held _ => ?_) ▸ sound.names
      simp only [Function.comp]
      split <;> rfl
    · rw [List.map_map]
      refine (List.map_congr_left fun held _ => ?_) ▸ sound.ids
      simp only [Function.comp]
      split <;> rfl
    · intro changed member
      obtain ⟨held, old, rfl⟩ := List.mem_map.mp member
      refine ⟨held, old, ?_, ?_, ?_⟩
      · split <;> rfl
      · split <;> rfl
      · intro settled
        split
        next reserved => simp [Option.isNone_iff_eq_none.mp (Bool.and_eq_true_iff.mp reserved).2] at settled
        · rfl
  · exact sound

end Sound

namespace Grows

theorem mkdir {compose empty : Bool} : Grows world (world.mkdir name compose empty) where
  nextId := Nat.le_refl _
  published _ member := member
  kept _ member := member
  rows held member := .inl ⟨held, member, rfl, rfl⟩
  directories directory member made := by
    simp only [World.mkdir, List.mem_append, List.mem_singleton] at member
    obtain member | rfl := member
    · exact ⟨directory, member, rfl, rfl⟩
    · exact absurd made (Nat.lt_irrefl _)

theorem rename {compose : Bool} : Grows world (world.rename row compose) where
  nextId := Nat.le_refl _
  published _ member := List.mem_append_left _ member
  kept _ member := member
  rows held member := .inl ⟨held, member, rfl, rfl⟩
  directories directory member made := by
    simp only [World.rename, List.mem_append, List.mem_filter, List.mem_singleton] at member
    obtain ⟨member, -⟩ | rfl := member
    · exact ⟨directory, member, rfl, rfl⟩
    · exact absurd made (Nat.lt_irrefl _)

/-- Directories are taken away, or change what they hold. -/
theorem of_directories {directories : List Directory}
    (held : ∀ directory ∈ directories, ∃ old ∈ world.directories, old.name = directory.name ∧
      old.fingerprint = directory.fingerprint) : Grows world { world with directories := directories } where
  nextId := Nat.le_refl _
  published _ member := member
  kept _ member := member
  rows held member := .inl ⟨held, member, rfl, rfl⟩
  directories directory member _ := held directory member

theorem keep : Grows world (world.keep clone) where
  nextId := Nat.le_refl _
  published _ member := member
  kept _ member := List.mem_append_left _ member
  rows held member := .inl ⟨held, member, rfl, rfl⟩
  directories directory member _ := ⟨directory, member, rfl, rfl⟩

end Grows

namespace Sound

theorem mkdir (sound : Sound world) (free : world.lstat name = none) (compose empty : Bool) :
    Sound (world.mkdir name compose empty) :=
  { sound with
    directoryNames := by
      simp only [World.mkdir, List.map_append, List.map_cons, List.map_nil]
      refine List.nodup_append.mpr ⟨sound.directoryNames, by simp, ?_⟩
      intro held member added found same
      obtain ⟨directory, old, rfl⟩ := List.mem_map.mp member
      rw [List.mem_singleton] at found
      have absent := List.find?_eq_none.mp free directory old
      simp [same, found] at absent
    made := by
      intro directory member
      simp only [World.mkdir, List.mem_append, List.mem_singleton] at member
      obtain member | rfl := member
      · exact Nat.lt_trans (sound.made directory member) (Nat.lt_succ_self _)
      · exact Nat.lt_succ_self _
    publishedMade := fun clone member => Nat.lt_trans (sound.publishedMade clone member) (Nat.lt_succ_self _)
    tasks := fun task phase found => (sound.tasks task phase found).grows .mkdir }

theorem rename (sound : Sound world) (compose : Bool) : Sound (world.rename row compose) where
  names := sound.names
  ids := sound.ids
  issued := sound.issued
  directoryNames := by
    simp only [World.rename, List.map_append, List.map_cons, List.map_nil]
    refine List.nodup_append.mpr ⟨sound.directoryNames.sublist (List.filter_sublist.map _), by simp, ?_⟩
    intro held member added found same
    obtain ⟨directory, kept, rfl⟩ := List.mem_map.mp member
    have differs := List.of_mem_filter kept
    rw [List.mem_singleton] at found
    simp [same, found] at differs
  made directory member := by
    simp only [World.rename, List.mem_append, List.mem_filter, List.mem_singleton] at member
    obtain ⟨member, -⟩ | rfl := member
    · exact Nat.lt_trans (sound.made directory member) (Nat.lt_succ_self _)
    · exact Nat.lt_succ_self _
  publishedMade clone member := by
    simp only [World.rename, List.mem_append, List.mem_singleton] at member
    obtain member | rfl := member
    · exact Nat.lt_trans (sound.publishedMade clone member) (Nat.lt_succ_self _)
    · exact Nat.lt_succ_self _
  keptPublished clone member := List.mem_append_left _ (sound.keptPublished clone member)
  reported := sound.reported
  once := sound.once
  tasks task phase found := (sound.tasks task phase found).grows .rename

theorem of_directories (sound : Sound world) {directories : List Directory}
    (names : (directories.map (·.name)).Nodup)
    (held : ∀ directory ∈ directories, ∃ old ∈ world.directories, old.name = directory.name ∧
      old.fingerprint = directory.fingerprint) : Sound { world with directories := directories } :=
  { sound with
    directoryNames := names
    made := by
      intro directory member
      obtain ⟨old, found, -, same⟩ := held directory member
      exact same ▸ sound.made old found
    tasks := fun task phase found => (sound.tasks task phase found).grows (.of_directories held) }

theorem rmdir (sound : Sound world) (name : String) : Sound (world.rmdir name) :=
  sound.of_directories (sound.directoryNames.sublist (List.filter_sublist.map _))
    fun directory member => ⟨directory, List.mem_of_mem_filter member, rfl, rfl⟩

theorem delete (sound : Sound world) (name : String) :
    Sound { world with directories := world.directories.filter (·.name ≠ name) } :=
  sound.of_directories (sound.directoryNames.sublist (List.filter_sublist.map _))
    fun directory member => ⟨directory, List.mem_of_mem_filter member, rfl, rfl⟩

theorem edited (held : Directory) (name : String) (compose empty : Bool) :
    (if held.name = name then { held with compose := compose, empty := empty } else held).name = held.name ∧
      (if held.name = name then { held with compose := compose, empty := empty } else held).fingerprint =
        held.fingerprint := by
  split <;> exact ⟨rfl, rfl⟩

theorem edit (sound : Sound world) (name : String) (compose empty : Bool) :
    Sound { world with directories := world.directories.map fun held =>
      if held.name = name then { held with compose := compose, empty := empty } else held } := by
  refine sound.of_directories ?_ ?_
  · rw [List.map_map]
    exact (List.map_congr_left fun held _ => (edited held name compose empty).1.symm) ▸ sound.directoryNames
  · intro directory member
    obtain ⟨held, old, rfl⟩ := List.mem_map.mp member
    obtain ⟨named, fingerprint⟩ := edited held name compose empty
    exact ⟨held, old, named.symm, fingerprint.symm⟩

theorem keep (sound : Sound world) (published : clone ∈ world.published) : Sound (world.keep clone) :=
  { sound with
    keptPublished := by
      intro kept member
      simp only [World.keep, List.mem_append, List.mem_singleton] at member
      obtain member | rfl := member
      · exact sound.keptPublished kept member
      · exact published
    tasks := fun task phase found => (sound.tasks task phase found).grows .keep }

theorem findReserved_captured (sound : Sound world) {id : Nat} (found : world.findReserved id = some row) :
    Captured world row := by
  have member := List.mem_of_find?_eq_some found
  exact ⟨sound.issued row member, fun held listed same =>
    congrArg (·.name) (List.inj_on_of_nodup_map sound.ids listed member same)⟩

end Sound

theorem Grows.unreserve (id : Nat) : Grows world (world.unreserve id) :=
  .of_rows (fun row member => ⟨row, List.mem_of_mem_filter member, rfl, rfl⟩) world.bound

theorem Grows.bind (world : World) (row : Row) (seen : Nat) : Grows world (world.bind row seen) := by
  unfold World.bind
  split
  · refine .of_rows (fun changed member => ?_) _
    obtain ⟨held, old, rfl⟩ := List.mem_map.mp member
    refine ⟨held, old, ?_, ?_⟩
    · split <;> rfl
    · split <;> rfl
  · exact ⟨Nat.le_refl _, fun _ member => member, fun _ member => member,
      fun held member => .inl ⟨held, member, rfl, rfl⟩, fun directory member _ => ⟨directory, member, rfl, rfl⟩⟩

namespace Sound

theorem list (sound : Sound world) {listing : Listing} (since : ∀ clone ∈ listing.since, clone ∈ world.kept) :
    Sound (world.list task listing) := by
  unfold World.list
  split
  · exact sound.goOn since
  · split
    · exact sound.goOn since
    · exact sound.goOn since

theorem storeNew (sound : Sound world) {listing : Listing} (since : ∀ clone ∈ listing.since, clone ∈ world.kept)
    (fingerprint : Nat) :
    Sound (((world.replaceRow name (some fingerprint)).report world.nextId fingerprint).goOn task
      (.listing (World.Listing.add listing world.nextId name))) := by
  have replaced := sound.replaceRow name (some fingerprint)
  have member : ⟨world.nextId, name, some fingerprint⟩ ∈ (world.replaceRow name (some fingerprint)).rows := by
    simp [World.replaceRow]
  exact (replaced.report member rfl).goOn since

theorem store (sound : Sound world) {listing : Listing} (since : ∀ clone ∈ listing.since, clone ∈ world.kept)
    (fingerprint : Nat) : Sound (world.store task listing name fingerprint) := by
  unfold World.store
  split
  next row found =>
    split
    next bound => exact (sound.report (List.mem_of_find?_eq_some found) bound).goOn since
    · exact sound.storeNew since fingerprint
  · exact sound.storeNew since fingerprint

theorem storeReservation (sound : Sound world) : Sound (world.storeReservation task name) := by
  unfold World.storeReservation
  split
  · exact sound.goOn trivial
  · exact (sound.replaceRow _ none).goOn trivial

theorem go (sound : Sound world) (task : Nat) (works compose : Bool) : Sound (world.go task works compose) := by
  unfold World.go
  split
  next => exact sound.goOn fun _ member => member
  next listing found => exact sound.list (sound.tasks task _ found)
  next listing name fingerprint found =>
    have since := sound.tasks task _ found
    split
    · exact sound.goOn since
    · exact sound.goOn since
  next listing name fingerprint found => exact sound.store (sound.tasks task _ found) fingerprint
  next =>
    split
    · exact sound.goOn trivial
    · exact sound.goOn trivial
  next => exact sound.storeReservation
  next =>
    split
    · exact sound.goOn trivial
    · exact sound.goOn trivial
  next id found =>
    split
    · exact (sound.unreserve id).goOn trivial
    · exact sound.goOn trivial
  next =>
    split
    next row reserved => exact sound.goOn (sound.findReserved_captured reserved)
    · exact sound.goOn trivial
  next row left found =>
    have captured := sound.tasks task _ found
    split
    · exact sound.goOn captured
    · exact sound.goOn trivial
  next row left found =>
    have captured := sound.tasks task _ found
    split
    · exact sound.goOn trivial
    · split
      · exact sound.goOn captured
      · exact sound.goOn captured
  next row found =>
    have captured := sound.tasks task _ found
    split
    · exact sound.goOn captured
    · exact sound.goOn trivial
  next row found =>
    have captured := sound.tasks task _ found
    split
    · exact sound.goOn trivial
    next free => exact (sound.mkdir free false true).goOn (Grows.mkdir.captured captured)
  next row found =>
    have captured := sound.tasks task _ found
    split
    · exact (sound.rename compose).goOn ⟨Grows.rename.captured captured, by simp [World.rename]⟩
    · exact (sound.rmdir row.name).goOn trivial
  next row fingerprint found =>
    have published := sound.tasks task _ found
    split
    · exact sound.goOn published
    · exact sound.goOn trivial
  next row fingerprint seen found =>
    have published := sound.tasks task _ found
    exact (sound.bind row seen).goOn ⟨(Grows.bind world row seen).captured published.1,
      (Grows.bind world row seen).published _ published.2⟩
  next row fingerprint found => exact (sound.keep (sound.tasks task _ found).2).goOn trivial
  next => exact sound

theorem step (sound : Sound world) (event : Happens) : Sound (step world event) := by
  cases event with
  | synchronize | reserve | unreserve | clone => exact sound.begin_ trivial
  | go task works compose => exact sound.go task works compose
  | create name compose empty =>
      simp only [Identities.step]
      split
      · exact sound
      next free => exact sound.mkdir (by simpa using free) compose empty
  | edit name compose empty => exact sound.edit name compose empty
  | delete name => exact sound.delete name

theorem empty : Sound World.empty where
  names := List.nodup_nil
  ids := List.nodup_nil
  issued := nofun
  directoryNames := List.nodup_nil
  made := nofun
  publishedMade := nofun
  keptPublished := nofun
  reported := nofun
  once := nofun
  tasks _ _ found := by cases found

end Sound

/-! ## Where facts still hold when they are stored -/

/-- What a listing owes a clone that was saved before it began. -/
def Listing.Finds (listing : Listing) (clone : Published) : Prop :=
  clone.name ∈ listing.names ∨ ⟨clone.id, clone.name, false⟩ ∈ listing.identities

def PhaseGranted (world : World) : Phase → Prop
  | .binding _ fingerprint seen => seen = fingerprint
  | .finishing row fingerprint => world.Stands ⟨row.id, row.name, fingerprint⟩ →
      ⟨row.id, row.name, some fingerprint⟩ ∈ world.rows
  | .listing listing => ∀ clone ∈ listing.since, world.Stands clone → listing.Finds clone
  | .checking listing name fingerprint | .storing listing name fingerprint =>
      ∀ clone ∈ listing.since, world.Stands clone →
        listing.Finds clone ∨ clone.name = name ∧ clone.fingerprint = fingerprint
  | .listed listing => ∀ clone ∈ listing.since, world.Stands clone →
      ⟨clone.id, clone.name, false⟩ ∈ listing.identities
  | _ => True

/-- Reservations are bound to what was published for them, and a clone that was saved keeps its identity. -/
structure Granted (world : World) : Prop where
  bound : ∀ binding ∈ world.bound, ∃ clone ∈ world.published, clone.id = binding.1 ∧ clone.fingerprint = binding.2
  denoted : ∀ clone ∈ world.kept, world.Stands clone → ⟨clone.id, clone.name, some clone.fingerprint⟩ ∈ world.rows
  tasks : ∀ (task : Nat) (phase : Phase), world.tasks[task]? = some phase → PhaseGranted world phase

/-- The rows of the directories that stand are still there. -/
def Retains (world after : World) : Prop := ∀ row ∈ world.rows, world.Current row → row ∈ after.rows

theorem World.Stands.current (stands : world.Stands clone) :
    world.Current ⟨clone.id, clone.name, some clone.fingerprint⟩ := by
  obtain ⟨directory, found, same⟩ := stands
  exact ⟨directory, found, congrArg some same.symm⟩

/-- What a step must keep of one task for another -/
theorem PhaseGranted.carried {phase : Phase} (granted : PhaseGranted world phase) (sound : Sound world)
    (phaseSound : PhaseSound world phase) (grows : Grows world after) (retains : Retains world after) :
    PhaseGranted after phase := by
  have since {listing : Listing} (kept : ∀ clone ∈ listing.since, clone ∈ world.kept) {clone : Published}
      (member : clone ∈ listing.since) (stands : after.Stands clone) : world.Stands clone :=
    grows.stands sound (sound.publishedMade clone (sound.keptPublished clone (kept clone member))) stands
  cases phase with
  | binding => exact granted
  | finishing row fingerprint =>
      intro stands
      have before := grows.stands sound (sound.publishedMade _ phaseSound.2) stands
      exact retains _ (granted before) before.current
  | listing listing => exact fun clone member stands => granted clone member (since phaseSound member stands)
  | checking listing name fingerprint =>
      exact fun clone member stands => granted clone member (since phaseSound member stands)
  | storing listing name fingerprint =>
      exact fun clone member stands => granted clone member (since phaseSound member stands)
  | listed listing => exact fun clone member stands => granted clone member (since phaseSound member stands)
  | reading | reserving | storingReservation | reserved | finding | removing | unreserved | preparing | saved
  | failed | looking | statting | fetching | making | publishing | cleaning => trivial

namespace Granted

theorem carried (granted : Granted world) (sound : Sound world) (grows : Grows world after)
    (retains : Retains world after) (kept : after.kept = world.kept) (tasks : after.tasks = world.tasks)
    (bound : ∀ binding ∈ after.bound, binding ∈ world.bound ∨
      ∃ clone ∈ world.published, clone.id = binding.1 ∧ clone.fingerprint = binding.2) : Granted after where
  bound binding member := by
    obtain old | ⟨clone, published, id, fingerprint⟩ := bound binding member
    · obtain ⟨clone, published, id, fingerprint⟩ := granted.bound binding old
      exact ⟨clone, grows.published clone published, id, fingerprint⟩
    · exact ⟨clone, grows.published clone published, id, fingerprint⟩
  denoted clone member stands := by
    rw [kept] at member
    have before := grows.stands sound (sound.publishedMade clone (sound.keptPublished clone member)) stands
    exact retains _ (granted.denoted clone member before) before.current
  tasks task phase found := by
    rw [tasks] at found
    exact (granted.tasks task phase found).carried sound (sound.tasks task phase found) grows retains

theorem goOn (granted : Granted world) {phase : Phase} (next : PhaseGranted world phase) :
    Granted (world.goOn task phase) where
  bound := granted.bound
  denoted := granted.denoted
  tasks other held found := by
    change (world.tasks.set task phase)[other]? = some held at found
    have kept : PhaseGranted world held := by
      rw [List.getElem?_set] at found
      split at found
      · split at found
        · cases found
          exact next
        · cases found
      · exact granted.tasks other held found
    cases held <;> exact kept

theorem begin_ (granted : Granted world) {phase : Phase} (next : PhaseGranted world phase) :
    Granted (world.begin_ phase) where
  bound := granted.bound
  denoted := granted.denoted
  tasks other held found := by
    change (world.tasks ++ [phase])[other]? = some held at found
    have kept : PhaseGranted world held := by
      rw [List.getElem?_append] at found
      split at found
      · exact granted.tasks other held found
      · rw [List.getElem?_singleton] at found
        split at found
        · cases found
          exact next
        · cases found
    cases held <;> exact kept

end Granted

/-- The state in which a step stores or looks up what it goes by: the facts of a directory still hold,
or the row they would replace is not that of the directory now standing there; a clone finds its
reservation and the directory it published; and a saved clone has a compose file that listings accept. -/
def Undisturbed (world : World) : Happens → Prop
  | .go task _ _ =>
      match world.tasks[task]? with
      | some (.checking listing name _) =>
          ∀ clone ∈ listing.since, clone.name = name → world.Stands clone → (world.lstat name).any (·.compose)
      | some (.storing _ name fingerprint) =>
          ∀ row ∈ world.rows, row.name = name → world.Current row → row.fingerprint = some fingerprint
      | some (.storingReservation name) => ∀ row ∈ world.rows, row.name = name → ¬ world.Current row
      | some (.cleaning row fingerprint) =>
          ∀ directory, world.lstat row.name = some directory → directory.fingerprint = fingerprint
      | some (.binding row _ _) => (world.findReserved row.id).isSome
      | _ => True
  | _ => True

theorem retains_of_rows (same : after.rows = world.rows) : Retains world after := by
  intro row member _
  rw [same]
  exact member

theorem retains_replaceRow {fingerprint : Option Nat}
    (other : ∀ row ∈ world.rows, row.name = name → ¬ world.Current row) :
    Retains world (world.replaceRow name fingerprint) := by
  intro row member current
  simp only [World.replaceRow, List.mem_append, List.mem_filter]
  refine .inl ⟨member, ?_⟩
  simp only [decide_eq_true_eq]
  exact fun same => other row member same current

theorem retains_unreserve (id : Nat) : Retains world (world.unreserve id) := by
  intro row member current
  obtain ⟨directory, -, bound⟩ := current
  simp [World.unreserve, member, bound]

theorem retains_bind (world : World) (row : Row) (seen : Nat) : Retains world (world.bind row seen) := by
  intro held member current
  obtain ⟨directory, -, bound⟩ := current
  unfold World.bind
  split
  · refine List.mem_map.mpr ⟨held, member, ?_⟩
    rw [if_neg (by simp [bound])]
  · exact member

namespace Granted

theorem report (granted : Granted world) (id fingerprint : Nat) : Granted (world.report id fingerprint) where
  bound := granted.bound
  denoted := granted.denoted
  tasks task phase found := by
    have kept := granted.tasks task phase found
    cases phase <;> exact kept

theorem keep (granted : Granted world) (stands : world.Stands clone →
    ⟨clone.id, clone.name, some clone.fingerprint⟩ ∈ world.rows) : Granted (world.keep clone) where
  bound := granted.bound
  denoted kept member := by
    simp only [World.keep, List.mem_append, List.mem_singleton] at member
    obtain member | rfl := member
    · exact granted.denoted kept member
    · exact stands
  tasks task phase found := by
    have kept := granted.tasks task phase found
    cases phase <;> exact kept

theorem list (granted : Granted world) {listing : Listing} (finds : PhaseGranted world (.listing listing)) :
    Granted (world.list task listing) := by
  unfold World.list
  split
  next none_ =>
    refine granted.goOn fun clone member stands => List.mem_append_left _ ?_
    obtain left | found := finds clone member stands
    · simp [none_] at left
    · exact found
  next name rest names =>
    have later {clone : Published} (found : listing.Finds clone) :
        clone.name = name ∨ Listing.Finds { listing with names := rest } clone := by
      obtain left | found := found
      · rw [names, List.mem_cons] at left
        exact left.imp_right Or.inl
      · exact .inr (.inr found)
    split
    next directory there =>
      refine granted.goOn fun clone member stands => ?_
      obtain same | found := later (finds clone member stands)
      · obtain ⟨held, found, fingerprint⟩ := stands
        rw [same, there] at found
        cases found
        exact .inr ⟨same, fingerprint.symm⟩
      · exact .inl found
    next gone =>
      refine granted.goOn fun clone member stands => ?_
      obtain same | found := later (finds clone member stands)
      · obtain ⟨held, found, -⟩ := stands
        rw [same, gone] at found
        cases found
      · exact found

theorem add {listing : Listing} {id : Nat} (found : listing.Finds clone) :
    (World.Listing.add listing id name).Finds clone :=
  found.imp_right fun member => List.mem_append_left _ member

section store

variable {listing : Listing} {fingerprint : Nat} (granted : Granted world) (sound : Sound world)
  (since : ∀ clone ∈ listing.since, clone ∈ world.kept)
  (finds : PhaseGranted world (.storing listing name fingerprint))
include granted sound since finds

omit finds in
/-- The row of a clone that stands is the one the transaction finds. -/
theorem found_clone {clone : Published} (member : clone ∈ listing.since) (stands : world.Stands clone)
    (same : clone.name = name) :
    world.rows.find? (·.name = name) = some ⟨clone.id, clone.name, some clone.fingerprint⟩ := by
  have denoted := granted.denoted clone (since clone member) stands
  cases found : world.rows.find? (·.name = name) with
  | none =>
      have absent := List.find?_eq_none.mp found _ denoted
      simp [same] at absent
  | some row =>
      have named : row.name = name := by simpa using List.find?_some found
      exact congrArg some (List.inj_on_of_nodup_map sound.names (List.mem_of_find?_eq_some found) denoted
        (named.trans same.symm))

theorem storeNew (other : ∀ row ∈ world.rows, row.name = name → ¬ world.Current row) :
    Granted (((world.replaceRow name (some fingerprint)).report world.nextId fingerprint).goOn task
      (.listing (World.Listing.add listing world.nextId name))) := by
  have replaced : Granted (world.replaceRow name (some fingerprint)) :=
    granted.carried sound (.replaceRow _ _) (retains_replaceRow other) rfl rfl fun _ member => .inl member
  refine (replaced.report world.nextId fingerprint).goOn fun clone member stands => ?_
  have before : world.Stands clone := (Grows.replaceRow name (some fingerprint)).stands sound
    (sound.publishedMade clone (sound.keptPublished clone (since clone member))) stands
  obtain found | ⟨same, -⟩ := finds clone member before
  · exact add found
  · exact absurd before.current
      (other _ (granted.denoted clone (since clone member) before) same)

theorem store (holds : ∀ row ∈ world.rows, row.name = name → world.Current row →
    row.fingerprint = some fingerprint) : Granted (world.store task listing name fingerprint) := by
  unfold World.store
  split
  next row found =>
    have named : row.name = name := by simpa using List.find?_some found
    have member := List.mem_of_find?_eq_some found
    split
    next bound =>
      refine (granted.report row.id fingerprint).goOn fun clone listed stands => ?_
      obtain kept | ⟨same, -⟩ := finds clone listed stands
      · exact add kept
      · have its := granted.found_clone sound since listed stands same
        rw [found] at its
        cases its
        refine .inr (List.mem_append_right _ ?_)
        rw [same]
        exact List.mem_singleton_self _
    next differs =>
      refine granted.storeNew sound since finds fun held listed same current => differs ?_
      rw [List.inj_on_of_nodup_map sound.names member listed (named.trans same.symm)]
      exact holds held listed same current
  next none_ =>
    refine granted.storeNew sound since finds fun held listed same _ => ?_
    have absent := List.find?_eq_none.mp none_ held listed
    simp [same] at absent

end store

theorem storeReservation (granted : Granted world) (sound : Sound world)
    (other : ∀ row ∈ world.rows, row.name = name → ¬ world.Current row) :
    Granted (world.storeReservation task name) := by
  unfold World.storeReservation
  split
  · exact granted.goOn trivial
  · exact (granted.carried sound (.replaceRow _ _) (retains_replaceRow other) rfl rfl
      fun _ member => .inl member).goOn trivial

/-- A clone that finds its reservation binds it to the directory that it published. -/
theorem bind (granted : Granted world) (sound : Sound world) {fingerprint : Nat}
    (captured : Captured world row) (published : ⟨row.id, row.name, fingerprint⟩ ∈ world.published)
    (found : (world.findReserved row.id).isSome) :
    Granted (world.bind row fingerprint) ∧ ⟨row.id, row.name, some fingerprint⟩ ∈ (world.bind row fingerprint).rows := by
  have grows := Grows.bind world row fingerprint
  have retains := retains_bind world row fingerprint
  obtain ⟨held, reserved⟩ := Option.isSome_iff_exists.mp found
  have member := List.mem_of_find?_eq_some reserved
  have its := List.find?_some reserved
  simp only [World.bind, reserved] at grows retains ⊢
  refine ⟨granted.carried sound grows retains rfl rfl ?_, ?_⟩
  · intro binding listed
    rw [List.mem_append, List.mem_singleton] at listed
    obtain listed | rfl := listed
    · exact .inl listed
    · exact .inr ⟨_, published, rfl, rfl⟩
  · refine List.mem_map.mpr ⟨held, member, ?_⟩
    rw [if_pos its]
    simp only [Bool.and_eq_true, decide_eq_true_eq] at its
    rw [← captured.2 held member its.1, ← its.1]

theorem go (granted : Granted world) (sound : Sound world) {works compose : Bool}
    (undisturbed : Undisturbed world (.go task works compose)) : Granted (world.go task works compose) := by
  have still {phase : Phase} (next : PhaseGranted world phase) : Granted (world.goOn task phase) := granted.goOn next
  unfold World.go
  unfold Undisturbed at undisturbed
  split
  next =>
    refine still fun clone member stands => ?_
    obtain ⟨directory, found, -⟩ := stands
    obtain ⟨there, named⟩ := World.mem_of_lstat found
    exact .inl (List.mem_map.mpr ⟨directory, there, named⟩)
  next listing found => exact granted.list (granted.tasks task _ found)
  next listing name fingerprint found =>
    have finds := granted.tasks task _ found
    simp only [found] at undisturbed
    split
    · exact still finds
    next plain =>
      refine still fun clone member stands => ?_
      obtain finds | ⟨same, -⟩ := finds clone member stands
      · exact finds
      · exact absurd (undisturbed clone member same stands) plain
  next listing name fingerprint found =>
    simp only [found] at undisturbed
    exact granted.store sound (sound.tasks task _ found) (granted.tasks task _ found) undisturbed
  next =>
    split
    · exact still trivial
    · exact still trivial
  next name found =>
    simp only [found] at undisturbed
    exact granted.storeReservation sound undisturbed
  next =>
    split
    · exact still trivial
    · exact still trivial
  next id found =>
    split
    · exact (granted.carried sound (Grows.unreserve id) (retains_unreserve id) rfl rfl
        fun _ member => .inl member).goOn trivial
    · exact still trivial
  next =>
    split
    · exact still trivial
    · exact still trivial
  next =>
    split
    · exact still trivial
    · exact still trivial
  next =>
    split
    · exact still trivial
    · split
      · exact still trivial
      · exact still trivial
  next =>
    split
    · exact still trivial
    · exact still trivial
  next row found =>
    split
    · exact still trivial
    · exact (granted.carried sound .mkdir (retains_of_rows rfl) rfl rfl fun _ member => .inl member).goOn trivial
  next row found =>
    split
    · exact (granted.carried sound .rename (retains_of_rows rfl) rfl rfl fun _ member => .inl member).goOn trivial
    · exact (granted.carried sound (.of_directories fun directory member =>
        ⟨directory, List.mem_of_mem_filter member, rfl, rfl⟩) (retains_of_rows rfl) rfl rfl
        fun _ member => .inl member).goOn trivial
  next row fingerprint found =>
    simp only [found] at undisturbed
    split
    next directory there => exact still (undisturbed directory there)
    · exact still trivial
  next row fingerprint seen found =>
    simp only [found] at undisturbed
    have same : seen = fingerprint := granted.tasks task _ found
    subst same
    obtain ⟨captured, published⟩ := sound.tasks task _ found
    obtain ⟨bound, member⟩ := granted.bind sound captured published undisturbed
    exact bound.goOn fun _ => member
  next row fingerprint found => exact (granted.keep (granted.tasks task _ found)).goOn trivial
  next => exact granted

theorem step (granted : Granted world) (sound : Sound world) {event : Happens}
    (undisturbed : Undisturbed world event) : Granted (step world event) := by
  cases event with
  | synchronize | reserve | unreserve | clone => exact granted.begin_ trivial
  | go task works compose => exact granted.go sound undisturbed
  | create name compose empty =>
      simp only [Identities.step]
      split
      · exact granted
      · exact granted.carried sound .mkdir (retains_of_rows rfl) rfl rfl fun _ member => .inl member
  | edit name compose empty =>
      refine granted.carried sound (.of_directories fun directory member => ?_) (retains_of_rows rfl) rfl rfl
        fun _ member => .inl member
      obtain ⟨held, old, rfl⟩ := List.mem_map.mp member
      obtain ⟨named, fingerprint⟩ := Sound.edited held name compose empty
      exact ⟨held, old, named.symm, fingerprint.symm⟩
  | delete name =>
      exact granted.carried sound (.of_directories fun directory member =>
        ⟨directory, List.mem_of_mem_filter member, rfl, rfl⟩) (retains_of_rows rfl) rfl rfl
        fun _ member => .inl member

theorem empty : Granted World.empty where
  bound := nofun
  denoted := nofun
  tasks _ _ found := by cases found

end Granted

/-! ## Grants over whole runs -/

/-- No identity was ever reported for two directories. -/
def World.ReportsOnce (world : World) : Prop :=
  ∀ first ∈ world.reports, ∀ second ∈ world.reports, first.1 = second.1 → first.2 = second.2

/-- A reservation was only ever bound to a directory that a clone of it published. -/
def World.BindsPublished (world : World) : Prop :=
  ∀ binding ∈ world.bound, ∃ clone ∈ world.published, clone.id = binding.1 ∧ clone.fingerprint = binding.2

/-- Every listing that began after a clone was saved has its reservation for the name, as long as the
directory stands. -/
def World.Denotes (world : World) : Prop :=
  ∀ (task : Nat) (listing : Listing), world.tasks[task]? = some (.listed listing) →
    ∀ clone ∈ listing.since, world.Stands clone → ⟨clone.id, clone.name, false⟩ ∈ listing.identities

/-- A name is reserved and cloned into; before the clone binds what it published, somebody lists the
stacks.  The clone is saved, and another listing follows. -/
def listedMeanwhile : List Happens :=
  let goes (task count : Nat) : List Happens := List.replicate count (.go task true true)
  .reserve "app" :: goes 0 2 ++ .clone 0 :: goes 1 10 ++ .synchronize :: goes 2 4 ++ goes 1 3 ++
    .synchronize :: goes 3 5

/-- The listing that a task has finished -/
def World.listingOf (world : World) (task : Nat) : Option Listing :=
  match world.tasks[task]? with
  | some (.listed listing) => some listing
  | _ => none

theorem listedMeanwhile_loses :
    ((replay step .empty listedMeanwhile).listingOf 3).any (fun listing =>
      listing.since = [⟨0, "app", 1⟩] && listing.identities = [⟨1, "app", false⟩] &&
        (replay step .empty listedMeanwhile).lstat "app" = some ⟨"app", 1, true, false⟩) = true := by
  decide +kernel

theorem World.listed_of_listingOf {listing : Listing} (found : world.listingOf task = some listing) :
    world.tasks[task]? = some (.listed listing) := by
  unfold listingOf at found
  split at found
  next held =>
    cases found
    exact held
  · cases found

theorem saved_clone_loses_grant : ¬ ∀ history, (replay step .empty history).Denotes := by
  intro denotes
  have loses := listedMeanwhile_loses
  cases found : (replay step .empty listedMeanwhile).listingOf 3 with
  | none => simp [found] at loses
  | some listing =>
      simp only [found, Option.any_some, Bool.and_eq_true, decide_eq_true_eq] at loses
      obtain ⟨⟨since, identities⟩, there⟩ := loses
      have member := denotes listedMeanwhile 3 listing (World.listed_of_listingOf found) ⟨0, "app", 1⟩
        (by rw [since]; exact List.mem_singleton_self _) ⟨_, there, rfl⟩
      rw [identities] at member
      simp at member

/-- Whatever is called and whatever others do with the directories: no identity is reported for two of
them.  Where every step is undisturbed, a reservation is bound to nothing but what a clone of it
published, and a clone that was saved is listed under its reservation as long as its directory stands. -/
theorem grants_stay (history : List Happens) :
    (replay step .empty history).ReportsOnce ∧
      (Along step Undisturbed .empty history →
        (replay step .empty history).BindsPublished ∧ (replay step .empty history).Denotes) := by
  constructor
  · have sound : Sound (replay step .empty history) :=
      replay_invariant (motive := Sound) Sound.empty (fun _ event held => held.step event) history
    exact sound.once
  · intro undisturbed
    have both : Sound (replay step .empty history) ∧ Granted (replay step .empty history) :=
      undisturbed.invariant (motive := fun world => Sound world ∧ Granted world) ⟨Sound.empty, Granted.empty⟩
        fun _ event held allowed => ⟨held.1.step event, held.2.step held.1 allowed⟩
    exact ⟨both.2.bound, fun task listing listed => both.2.tasks task _ listed⟩

end Dockge.Mcp.Identities
