import Mathlib.Algebra.GroupWithZero.Nat
import Mathlib.Order.Interval.Finset.Nat

namespace Dockge.Data

/-! Half-open intervals of time that a store keeps one after another.

An entry of the store is whatever it keeps beside the interval; `spanOf` reads
the interval off it.
-/

structure Span where
  start : Nat
  stop : Nat
deriving DecidableEq, Repr

namespace Span

def Holds (span : Span) (moment : Nat) : Prop := span.start ≤ moment ∧ moment < span.stop

instance (span : Span) (moment : Nat) : Decidable (span.Holds moment) :=
  inferInstanceAs (Decidable (_ ∧ _))

/-- The length of the part that lies between two moments. -/
def lengthWithin (span : Span) (first last : Nat) : Nat := min span.stop last - max span.start first

theorem card_held (span : Span) (first last : Nat) :
    ((Finset.Ico first last).filter span.Holds).card = span.lengthWithin first last := by
  have same : (Finset.Ico first last).filter span.Holds =
      Finset.Ico (max span.start first) (min span.stop last) := by
    ext moment
    simp only [Finset.mem_filter, Finset.mem_Ico, Holds]
    omega
  rw [same, Nat.card_Ico]
  rfl

end Span

variable {Entry : Type} {spanOf : Entry → Span} {entries earlier later : List Entry} {entry last : Entry}

/-- Each interval ends no later than the ones after it begin. -/
def Apart (spanOf : Entry → Span) (entries : List Entry) : Prop :=
  entries.Pairwise fun before after => (spanOf before).stop ≤ (spanOf after).start

instance : Decidable (Apart spanOf entries) := inferInstanceAs (Decidable (List.Pairwise _ _))

/-- A moment that one of the intervals holds. -/
def Covered (spanOf : Entry → Span) (entries : List Entry) (moment : Nat) : Prop :=
  ∃ entry ∈ entries, (spanOf entry).Holds moment

instance : DecidablePred (Covered spanOf entries) :=
  fun _ => inferInstanceAs (Decidable (∃ _ ∈ entries, _))

/-- How many moments between `first` and `last` the intervals cover together. -/
def coveredLength (spanOf : Entry → Span) (entries : List Entry) (first last : Nat) : Nat :=
  ((Finset.Ico first last).filter (Covered spanOf entries)).card

@[simp] theorem covered_nil {moment : Nat} : ¬ Covered spanOf [] moment := by
  simp [Covered]

@[simp] theorem covered_cons {moment : Nat} :
    Covered spanOf (entry :: entries) moment ↔ (spanOf entry).Holds moment ∨ Covered spanOf entries moment := by
  simp [Covered]

@[simp] theorem covered_append {moment : Nat} :
    Covered spanOf (earlier ++ later) moment ↔ Covered spanOf earlier moment ∨ Covered spanOf later moment := by
  simp [Covered, or_and_right, exists_or]

theorem Apart.filter (apart : Apart spanOf entries) (kept : Entry → Bool) :
    Apart spanOf (entries.filter kept) :=
  List.Pairwise.filter kept apart

theorem apart_append_singleton :
    Apart spanOf (earlier ++ [last]) ↔
      Apart spanOf earlier ∧ ∀ entry ∈ earlier, (spanOf entry).stop ≤ (spanOf last).start := by
  simp [Apart, List.pairwise_append]

/-- Apart intervals share no moment, so their lengths add up. -/
theorem Apart.sum_lengthWithin (apart : Apart spanOf entries) (first last : Nat) :
    (entries.map fun entry => (spanOf entry).lengthWithin first last).sum =
      coveredLength spanOf entries first last := by
  induction entries with
  | nil => simp [coveredLength]
  | cons entry rest ih =>
      obtain ⟨after, apartRest⟩ := List.pairwise_cons.mp apart
      have split : (Finset.Ico first last).filter (Covered spanOf (entry :: rest)) =
          (Finset.Ico first last).filter (spanOf entry).Holds ∪
            (Finset.Ico first last).filter (Covered spanOf rest) := by
        rw [← Finset.filter_or]
        exact Finset.filter_congr fun moment _ => covered_cons
      have disjoint : Disjoint ((Finset.Ico first last).filter (spanOf entry).Holds)
          ((Finset.Ico first last).filter (Covered spanOf rest)) := by
        rw [Finset.disjoint_filter]
        intro moment _ held covered
        obtain ⟨other, member, holds⟩ := covered
        have := after other member
        unfold Span.Holds at held holds
        omega
      rw [List.map_cons, List.sum_cons, ih apartRest, ← Span.card_held, coveredLength, coveredLength, split,
        Finset.card_union_of_disjoint disjoint]

/-- Only what is covered in the window counts. -/
theorem coveredLength_congr {Other : Type} {otherSpan : Other → Span} {others : List Other}
    {first last : Nat}
    (same : ∀ moment, first ≤ moment → (Covered spanOf entries moment ↔ Covered otherSpan others moment)) :
    coveredLength spanOf entries first last = coveredLength otherSpan others first last := by
  unfold coveredLength
  congr 1
  apply Finset.filter_congr
  intro moment inside
  exact same moment (Finset.mem_Ico.mp inside).1

end Dockge.Data
