import Dockge.StackWrite.Rules

namespace Dockge.StackWrite

open Dockge.Data

/-! Where a write can be stopped: before its files changed, after all of them did, or in between
with a journal that can put them back. -/

variable {Hash Config : Type}

/-- One call, and the disk it found. -/
structure Save (Hash Config : Type) where
  start : Disk Hash Config
  targets : List (StackFileTarget Hash)
  metadata : Option (StackWriteMetadata Config)

namespace Save

/-- The name of the journal the call opens. -/
def own (save : Save Hash Config) : Nat := save.start.nextId

def HoldsOld (save : Save Hash Config) (disk : Disk Hash Config) : Prop :=
  ∀ target ∈ save.targets, disk.bytes target.name = save.start.bytes target.name

def HoldsNew (save : Save Hash Config) (disk : Disk Hash Config) : Prop :=
  ∀ target ∈ save.targets, disk.bytes target.name = some target.bytes

def SelectedBefore (save : Save Hash Config) (disk : Disk Hash Config) : Prop :=
  ∀ metadata, save.metadata = some metadata → disk.selections metadata.stack = metadata.before

/-- The selection is the one from before the write, unless a failed read was taken for none. -/
def SelectedOld (save : Save Hash Config) (disk : Disk Hash Config) : Prop :=
  disk.misread = false → save.SelectedBefore disk

def SelectedNew (save : Save Hash Config) (disk : Disk Hash Config) : Prop :=
  ∀ metadata, save.metadata = some metadata → disk.selections metadata.stack = some metadata.after

/-- A journal of another write, which names none of these files and not this stack. -/
def Unrelated (save : Save Hash Config) (journal : Journal Hash Config) : Prop :=
  ∀ manifest, journal.manifest = some manifest →
    (∀ file ∈ manifest.files, ∀ target ∈ save.targets, file.name ≠ target.name) ∧
    ∀ other metadata, manifest.metadata = some other → save.metadata = some metadata →
      other.stack ≠ metadata.stack

def OthersUnrelated (save : Save Hash Config) (disk : Disk Hash Config) : Prop :=
  ∀ id journal, id ≠ save.own → disk.journals id = some journal → save.Unrelated journal

/-- The manifest describes this write. -/
structure Describes (sha256 : Bytes → Hash) (save : Save Hash Config)
    (manifest : JournalManifest Hash Config) : Prop where
  each : ∀ file ∈ manifest.files, ∃ target ∈ save.targets, file.name = target.name ∧
    file.beforeHash = save.start.hashOf sha256 target.name ∧ file.afterHash = sha256 target.bytes ∧
    file.beforeHash ≠ some file.afterHash
  rest : ∀ target ∈ save.targets, (∃ file ∈ manifest.files, file.name = target.name) ∨
    save.start.bytes target.name = some target.bytes
  metadata : manifest.metadata = save.metadata
  sized : ∀ target ∈ save.targets, target.bytes.length ≤ maxFileBytes ∧
    ∀ bytes, save.start.bytes target.name = some bytes → bytes.length ≤ maxFileBytes

/-- Nothing of the write is left but a journal without a commit marker. -/
structure Undone (sha256 : Bytes → Hash) (save : Save Hash Config) (disk : Disk Hash Config) : Prop where
  old : save.HoldsOld disk
  selected : save.SelectedOld disk
  unmarked : save.own ∉ disk.marked
  journal : ∀ journal, disk.journals save.own = some journal → journal.committed = false ∧
    ∀ manifest, journal.manifest = some manifest → save.Describes sha256 manifest
  others : save.OthersUnrelated disk

/-- The write took place. -/
structure Done (sha256 : Bytes → Hash) (save : Save Hash Config) (disk : Disk Hash Config) : Prop where
  new : save.HoldsNew disk
  selected : save.SelectedNew disk
  journal : ∀ journal, disk.journals save.own = some journal → save.own ∈ disk.marked ∧
    ∀ manifest, journal.manifest = some manifest → save.Describes sha256 manifest
  others : save.OthersUnrelated disk

/-- The journal can put back every file it names. -/
structure Restores (sha256 : Bytes → Hash) (save : Save Hash Config) (journal : Journal Hash Config)
    (manifest : JournalManifest Hash Config) : Prop where
  planned : journal.manifest = some manifest
  describes : save.Describes sha256 manifest
  uncommitted : journal.committed = false
  before : ∀ file ∈ manifest.files, ∀ bytes, save.start.bytes file.name = some bytes →
    journal.before file.name = some bytes

/-- Some of the files were replaced, and the journal can put them back. -/
structure Underway (sha256 : Bytes → Hash) (save : Save Hash Config) (disk : Disk Hash Config) : Prop where
  either : ∀ target ∈ save.targets, disk.bytes target.name = save.start.bytes target.name ∨
    disk.bytes target.name = some target.bytes
  unmarked : save.own ∉ disk.marked
  journal : ∃ journal manifest, disk.journals save.own = some journal ∧
    save.Restores sha256 journal manifest
  others : save.OthersUnrelated disk

inductive Lands (sha256 : Bytes → Hash) (save : Save Hash Config) (disk : Disk Hash Config) : Prop where
  | undone (undone : save.Undone sha256 disk)
  | done (done : save.Done sha256 disk)
  | underway (underway : save.Underway sha256 disk)

/-- The write has not taken place, and what is left of it can be taken back. -/
inductive Reverting (sha256 : Bytes → Hash) (save : Save Hash Config) (disk : Disk Hash Config) : Prop where
  | undone (undone : save.Undone sha256 disk)
  | underway (underway : save.Underway sha256 disk)

theorem Reverting.lands {sha256 : Bytes → Hash} {save : Save Hash Config} {disk : Disk Hash Config}
    (reverting : save.Reverting sha256 disk) : save.Lands sha256 disk := by
  cases reverting with
  | undone undone => exact .undone undone
  | underway underway => exact .underway underway

end Save

section
variable {sha256 : Bytes → Hash} {save : Save Hash Config} {disk : Disk Hash Config}

/-! ### The journal -/

@[simp] theorem setJournal_bytes (id : Nat) (journal : Option (Journal Hash Config)) (name : String) :
    (disk.setJournal id journal).bytes name = disk.bytes name := rfl

@[simp] theorem onJournal_bytes (id : Nat) (change : Journal Hash Config → Journal Hash Config)
    (name : String) : (disk.onJournal id change).bytes name = disk.bytes name := rfl

@[simp] theorem onJournal_own (id : Nat) (change : Journal Hash Config → Journal Hash Config) :
    (disk.onJournal id change).journals id = (disk.journals id).map change := by
  simp [Disk.onJournal, Disk.setJournal]

theorem onJournal_other {id other : Nat} (change : Journal Hash Config → Journal Hash Config)
    (different : other ≠ id) : (disk.onJournal id change).journals other = disk.journals other := by
  simp [Disk.onJournal, Disk.setJournal, Function.update_of_ne different]

theorem drop_manifest {journal : Journal Hash Config} {part : Part}
    {manifest : JournalManifest Hash Config} (held : (journal.drop part).manifest = some manifest) :
    journal.manifest = some manifest := by
  cases part <;> first | exact held | cases held

theorem drop_uncommitted {journal : Journal Hash Config} (part : Part)
    (uncommitted : journal.committed = false) : (journal.drop part).committed = false := by
  cases part <;> first | exact uncommitted | rfl

theorem Save.OthersUnrelated.onOwn (others : save.OthersUnrelated disk)
    (change : Journal Hash Config → Journal Hash Config) :
    save.OthersUnrelated (disk.onJournal save.own change) := by
  intro id journal different held
  rw [onJournal_other change different] at held
  exact others id journal different held

theorem Save.OthersUnrelated.setOwn (others : save.OthersUnrelated disk)
    (journal : Option (Journal Hash Config)) :
    save.OthersUnrelated (disk.setJournal save.own journal) := by
  intro id found different held
  exact others id found different (by simpa [Disk.setJournal, Function.update_of_ne different] using held)

theorem Save.Undone.onOwn (undone : save.Undone sha256 disk)
    {change : Journal Hash Config → Journal Hash Config}
    (journal : ∀ journal, disk.journals save.own = some journal → (change journal).committed = false ∧
      ∀ manifest, (change journal).manifest = some manifest → save.Describes sha256 manifest) :
    save.Undone sha256 (disk.onJournal save.own change) where
  old := undone.old
  selected := undone.selected
  unmarked := undone.unmarked
  journal := by
    intro found held
    rw [onJournal_own, Option.map_eq_some_iff] at held
    obtain ⟨before, same, rfl⟩ := held
    exact journal before same
  others := undone.others.onOwn change

theorem Save.Undone.drop (undone : save.Undone sha256 disk) (part : Part) :
    save.Undone sha256 (disk.onJournal save.own fun journal => journal.drop part) := by
  refine undone.onOwn ?_
  intro journal held
  obtain ⟨uncommitted, describes⟩ := undone.journal journal held
  exact ⟨drop_uncommitted part uncommitted, fun manifest same => describes manifest (drop_manifest same)⟩

theorem Save.Undone.remove (undone : save.Undone sha256 disk) :
    save.Undone sha256 (disk.setJournal save.own none) where
  old := undone.old
  selected := undone.selected
  unmarked := undone.unmarked
  journal := by simp [Disk.setJournal]
  others := undone.others.setOwn none

theorem Save.Done.drop (done : save.Done sha256 disk) (part : Part) :
    save.Done sha256 (disk.onJournal save.own fun journal => journal.drop part) where
  new := done.new
  selected := done.selected
  journal := by
    intro found held
    rw [onJournal_own, Option.map_eq_some_iff] at held
    obtain ⟨before, same, rfl⟩ := held
    obtain ⟨marked, describes⟩ := done.journal before same
    exact ⟨marked, fun manifest held => describes manifest (drop_manifest held)⟩
  others := done.others.onOwn _

theorem Save.Done.remove (done : save.Done sha256 disk) :
    save.Done sha256 (disk.setJournal save.own none) where
  new := done.new
  selected := done.selected
  journal := by simp [Disk.setJournal]
  others := done.others.setOwn none

theorem Save.Undone.removeJournal {allowed : Fate → Prop} {parts : List Part} (undisturbed : allowed .ok)
    (undone : save.Undone sha256 disk) :
    Ensures allowed (removeJournal parts save.own) disk
      (fun _ reached => save.Undone sha256 reached ∧ reached.journals save.own = none)
      (fun _ => save.Undone sha256) (save.Undone sha256) :=
  removeJournal_ensures undisturbed undone (fun _ part held => held.drop part) fun _ held => held.remove

theorem Save.Done.removeJournal {allowed : Fate → Prop} {parts : List Part} (undisturbed : allowed .ok)
    (done : save.Done sha256 disk) :
    Ensures allowed (removeJournal parts save.own) disk
      (fun _ reached => save.Done sha256 reached ∧ reached.journals save.own = none)
      (fun _ => save.Done sha256) (save.Done sha256) :=
  removeJournal_ensures undisturbed done (fun _ part held => held.drop part) fun _ held => held.remove

/-! ### The commit -/

/-- The journal is complete; these files were replaced, and the selection perhaps stored. -/
structure Save.Committing (sha256 : Bytes → Hash) (save : Save Hash Config)
    (manifest : JournalManifest Hash Config) (written : List String) (stored : Bool)
    (disk : Disk Hash Config) : Prop where
  replaced : ∀ target ∈ save.targets, target.name ∈ written → disk.bytes target.name = some target.bytes
  kept : ∀ target ∈ save.targets, target.name ∉ written →
    disk.bytes target.name = save.start.bytes target.name
  selected : if stored then save.SelectedNew disk else save.SelectedOld disk
  unmarked : save.own ∉ disk.marked
  journal : ∃ journal, disk.journals save.own = some journal ∧ save.Restores sha256 journal manifest
  others : save.OthersUnrelated disk

variable {manifest : JournalManifest Hash Config} {written : List String} {stored : Bool}

theorem Save.Committing.underway (committing : save.Committing sha256 manifest written stored disk) :
    save.Underway sha256 disk where
  either := by
    intro target member
    by_cases done : target.name ∈ written
    · exact .inr (committing.replaced target member done)
    · exact .inl (committing.kept target member done)
  unmarked := committing.unmarked
  journal := by
    obtain ⟨journal, held, restores⟩ := committing.journal
    exact ⟨journal, manifest, held, restores⟩
  others := committing.others

theorem Save.Committing.reverting (committing : save.Committing sha256 manifest written stored disk) :
    save.Reverting sha256 disk :=
  .underway committing.underway

/-- Every file is back. -/
theorem Save.Committing.undone (committing : save.Committing sha256 manifest [] false disk) :
    save.Undone sha256 disk where
  old := fun target member => committing.kept target member (by simp)
  selected := committing.selected
  unmarked := committing.unmarked
  journal := by
    intro found held
    obtain ⟨journal, same, restores⟩ := committing.journal
    rw [same] at held
    cases held
    refine ⟨restores.uncommitted, ?_⟩
    intro other described
    rw [restores.planned] at described
    cases described
    exact restores.describes
  others := committing.others

/-- One file changed, to what the targets of its name ask for or back. -/
theorem Save.Committing.setFile {name : String} {file : Option File} {next : List String}
    (committing : save.Committing sha256 manifest written stored disk)
    (others : ∀ other, other ≠ name → (other ∈ next ↔ other ∈ written))
    (replaced : ∀ target ∈ save.targets, target.name = name → name ∈ next →
      file.map (·.bytes) = some target.bytes)
    (kept : ∀ target ∈ save.targets, target.name = name → name ∉ next →
      file.map (·.bytes) = save.start.bytes name) :
    save.Committing sha256 manifest next stored (disk.setFile name file) where
  replaced := by
    intro target member present
    by_cases same : target.name = name
    · rw [same] at present ⊢
      simpa [Disk.bytes, Disk.setFile] using replaced target member same present
    · simpa [Disk.bytes, Disk.setFile, Function.update_of_ne same] using
        committing.replaced target member ((others _ same).mp present)
  kept := by
    intro target member absent
    by_cases same : target.name = name
    · rw [same] at absent ⊢
      simpa [Disk.bytes, Disk.setFile] using kept target member same absent
    · simpa [Disk.bytes, Disk.setFile, Function.update_of_ne same] using
        committing.kept target member fun present => absent ((others _ same).mpr present)
  selected := committing.selected
  unmarked := committing.unmarked
  journal := committing.journal
  others := committing.others

theorem Save.Committing.setSelections (committing : save.Committing sha256 manifest written stored disk)
    {next : Bool} (selections : String → Option Config) (misread wiped : Bool)
    (selected : if next then save.SelectedNew { disk with selections, misread, wiped }
      else save.SelectedOld { disk with selections, misread, wiped }) :
    save.Committing sha256 manifest written next { disk with selections, misread, wiped } where
  replaced := committing.replaced
  kept := committing.kept
  selected := selected
  unmarked := committing.unmarked
  journal := committing.journal
  others := committing.others

/-- The commit marker. -/
theorem Save.Committing.mark (committing : save.Committing sha256 manifest written true disk)
    (complete : ∀ file ∈ manifest.files, file.name ∈ written) :
    save.Done sha256 { disk.onJournal save.own fun journal => { journal with committed := true } with
      marked := save.own :: disk.marked } where
  new := by
    intro target member
    obtain ⟨_, _, restores⟩ := committing.journal
    by_cases done : target.name ∈ written
    · exact committing.replaced target member done
    · rcases restores.describes.rest target member with ⟨file, present, same⟩ | same
      · exact absurd (same ▸ complete file present) done
      · exact (committing.kept target member done).trans same
  selected := committing.selected
  journal := by
    intro found held
    obtain ⟨journal, same, restores⟩ := committing.journal
    change (disk.onJournal save.own _).journals save.own = some found at held
    rw [onJournal_own, same] at held
    cases held
    refine ⟨List.mem_cons_self, ?_⟩
    intro other described
    have : manifest = other := Option.some.inj (restores.planned.symm.trans described)
    exact this ▸ restores.describes
  others := committing.others.onOwn _

end

end Dockge.StackWrite
