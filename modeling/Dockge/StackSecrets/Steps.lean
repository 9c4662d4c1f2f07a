import Dockge.StackSecrets.Commit
import Dockge.StackWrite.Reverts

namespace Dockge.StackSecrets

open Dockge.Data
open Dockge.StackConfig (Found StackFileConfig resolveConfig)
open Dockge.StackWrite

/-! What each step of a call can come to. -/

variable {Hash : Type} {host : Host Hash} {disk : Disk Hash StackFileConfig} {allowed : Fate → Prop}

theorem onDisk_ensures {α : Type} {program : DiskTask Hash StackFileConfig α}
    {returned : α → Disk Hash StackFileConfig → Prop} (Kept : Disk Hash StackFileConfig → Prop)
    {Stopped : Disk Hash StackFileConfig → Prop}
    (before : Ensures allowed program disk returned (fun _ => Kept) Stopped) :
    Ensures allowed (onDisk program) disk returned (fun _ => Kept) Stopped := by
  refine Ensures.orElse (fun _ => Kept) before ?_
  intro _ _ kept
  exact Ensures.fail kept

theorem readSelectedFile_ensures (fileName : String) :
    Ensures Fate.Any (readSelectedFile fileName) disk (fun _ reached => disk = reached)
      (fun _ reached => disk = reached) (disk = ·) := by
  refine Ensures.bind (fun _ reached => disk = reached) (Ensures.attempt ?_) ?_
  · exact (ask_ensures any_ok (fun _ _ => rfl) rfl).mono (fun _ _ => id) (fun _ _ => id) fun _ => id
  · intro tried reached same
    cases tried with
    | ok _ => exact Ensures.pure same
    | error _ => exact Ensures.pure same

theorem accessSecret_ensures (fileName : Option String) :
    Ensures Fate.Any (accessSecret fileName) disk (fun _ reached => disk = reached)
      (fun _ reached => disk = reached) (disk = ·) := by
  cases fileName with
  | none => exact Ensures.pure rfl
  | some fileName =>
      refine Ensures.orElse (fun _ reached => disk = reached) (ask_ensures any_ok (fun _ _ => rfl) rfl) ?_
      intro _ _ same
      exact Ensures.fail same

/-- The journal goes as it should. -/
theorem removeJournal_undisturbed {parts : List Part} {journal : Nat} :
    Ensures (· = .ok) (removeJournal parts journal) disk
      (fun _ reached => reached.journals journal = none ∧
        (∀ id, id ≠ journal → reached.journals id = disk.journals id) ∧ reached.files = disk.files ∧
        reached.selections = disk.selections ∧ reached.nextId = disk.nextId ∧ reached.marked = disk.marked)
      (fun _ _ => False) (fun _ => False) := by
  let Same (reached : Disk Hash StackFileConfig) : Prop :=
    (∀ id, id ≠ journal → reached.journals id = disk.journals id) ∧ reached.files = disk.files ∧
      reached.selections = disk.selections ∧ reached.nextId = disk.nextId ∧ reached.marked = disk.marked
  have works {effect : Disk Hash StackFileConfig → Disk Hash StackFileConfig}
      {reached : Disk Hash StackFileConfig} {returned : Unit → Disk Hash StackFileConfig → Prop}
      (took : returned () (effect reached)) :
      Ensures (· = .ok) (perform effect) reached returned (fun _ _ => False) (fun _ => False) := by
    refine Ensures.operation rfl ?_
    intro fate same
    subst same
    exact took
  refine Ensures.bind (fun _ => Same) ?_ ?_
  · refine Ensures.forEach (fun _ => Same) ⟨fun _ _ => rfl, rfl, rfl, rfl, rfl⟩ ?_
    intro _ part _ reached _ same
    refine works ⟨?_, same.2⟩
    intro id other
    rw [onJournal_other _ other]
    exact same.1 id other
  · intro _ reached same
    refine works ⟨by simp [Disk.setJournal], ?_, same.2⟩
    intro id other
    simpa [Disk.setJournal, Function.update_of_ne other] using same.1 id other

section
variable [DecidableEq Hash]

/-- A write whose file does not hold what was read is refused before it touches anything. -/
theorem writeLocked_conflict {sha256 : Bytes → Hash} {target : StackFileTarget Hash} {wanted : Option Hash}
    {parts : List Part} (undisturbed : allowed .ok) (asked : target.expectedHash = some wanted)
    (mismatch : wanted ≠ disk.hashOf sha256 target.name) :
    Ensures allowed (writeLocked sha256 [target] { metadata := none, parts }) disk (fun _ _ => False)
      (fun _ reached => disk = reached) (disk = ·) := by
  unfold writeLocked
  refine Ensures.bind _ (planWrite_ensures undisturbed [target] rfl) ?_
  rintro ⟨hashes, pending⟩ _ ⟨rfl, planned, _⟩
  exact absurd (planned.expected target List.mem_cons_self wanted asked) mismatch

end

end Dockge.StackSecrets
