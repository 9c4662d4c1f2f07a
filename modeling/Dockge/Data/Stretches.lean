import Mathlib.Algebra.Order.Field.Rat
import Mathlib.Algebra.BigOperators.Group.List.Basic
import Mathlib.Tactic.Linarith

namespace Dockge.Data

/-! Stretches of time, and how much of them lies in others, over the rationals. -/

structure Stretch where
  start : ℚ
  stop : ℚ
deriving DecidableEq, Repr

namespace Stretch

/-- An inverted stretch has no length. -/
def length (stretch : Stretch) : ℚ := max 0 (stretch.stop - stretch.start)

/-- How much of a stretch lies in a window -/
def overlap (stretch window : Stretch) : ℚ :=
  max 0 (min stretch.stop window.stop - max stretch.start window.start)

variable {stretch window : Stretch} {stretches : List Stretch}

theorem length_nonneg (stretch : Stretch) : 0 ≤ stretch.length := le_max_left _ _

theorem overlap_nonneg (stretch window : Stretch) : 0 ≤ stretch.overlap window := le_max_left _ _

/-- Inside the window, all of it lies there. -/
theorem overlap_eq_length (first : window.start ≤ stretch.start) (last : stretch.stop ≤ window.stop) :
    stretch.overlap window = stretch.length := by
  rw [overlap, length, min_eq_left last, max_eq_left first]

/-- Each stretch ends no later than those after it begin. -/
def Apart (stretches : List Stretch) : Prop := stretches.Pairwise fun before after => before.stop ≤ after.start

theorem sum_overlap_le_of {bound : ℚ} (apart : Apart stretches) (within : window.start ≤ bound)
    (begun : ∀ stretch ∈ stretches, bound ≤ stretch.start) :
    (stretches.map (·.overlap window)).sum ≤ max 0 (window.stop - bound) := by
  induction stretches generalizing bound with
  | nil => exact le_max_left _ _
  | cons stretch rest ih =>
      obtain ⟨follows, apartRest⟩ := List.pairwise_cons.mp apart
      have later := ih apartRest (within.trans (le_max_left bound stretch.stop)) fun other member =>
        max_le (begun other (List.mem_cons_of_mem _ member)) (follows other member)
      have own := begun stretch List.mem_cons_self
      rw [List.map_cons, List.sum_cons]
      have head : stretch.overlap window + max 0 (window.stop - max bound stretch.stop) ≤
          max 0 (window.stop - bound) := by
        unfold overlap
        rw [max_eq_left (within.trans own)]
        rcases le_total stretch.stop window.stop with ends | ends
        · rw [min_eq_left ends]
          rcases le_total stretch.stop stretch.start with inverted | proper
          · rw [max_eq_left (by linarith : stretch.stop - stretch.start ≤ 0), zero_add]
            exact max_le_max (le_refl 0) (by linarith [le_max_left bound stretch.stop])
          · have after : bound ≤ stretch.stop := own.trans proper
            rw [max_eq_right (by linarith : (0 : ℚ) ≤ stretch.stop - stretch.start), max_eq_right after,
              max_eq_right (by linarith : (0 : ℚ) ≤ window.stop - stretch.stop),
              max_eq_right (by linarith : (0 : ℚ) ≤ window.stop - bound)]
            linarith
        · rw [min_eq_right ends,
            max_eq_left (by linarith [le_max_right bound stretch.stop] : window.stop - max bound stretch.stop ≤ 0),
            add_zero]
          exact max_le_max (le_refl 0) (by linarith)
      linarith

/-- What begins before the window counts from its start. -/
def after (moment : ℚ) (stretch : Stretch) : Stretch := ⟨max moment stretch.start, stretch.stop⟩

theorem overlap_after (stretch window : Stretch) : (stretch.after window.start).overlap window = stretch.overlap window := by
  rw [overlap, overlap, after, max_comm window.start, max_assoc, max_self]

/-- Stretches that lie apart fill a window at most once. -/
theorem sum_overlap_le (window : Stretch) (apart : Apart stretches) (proper : window.start ≤ window.stop) :
    (stretches.map (·.overlap window)).sum ≤ window.stop - window.start := by
  have same : stretches.map (·.overlap window) = (stretches.map (after window.start)).map (·.overlap window) := by
    rw [List.map_map]
    exact List.map_congr_left fun stretch _ => (overlap_after stretch window).symm
  have apart' : Apart (stretches.map (after window.start)) :=
    List.pairwise_map.mpr (apart.imp fun follows => follows.trans (le_max_right _ _))
  have begun : ∀ stretch ∈ stretches.map (after window.start), window.start ≤ stretch.start := by
    intro stretch member
    obtain ⟨original, -, rfl⟩ := List.mem_map.mp member
    exact le_max_left _ _
  have bounded := sum_overlap_le_of apart' (le_refl window.start) begun
  rw [max_eq_right (by linarith)] at bounded
  rw [same]
  exact bounded

/-! ## A window cut into pieces -/

/-- What lies before a moment, counted from the start of a stretch -/
def passed (stretch : Stretch) (moment : ℚ) : ℚ := max stretch.start (min stretch.stop moment)

theorem overlap_eq_passed (proper : stretch.start ≤ stretch.stop) (ordered : window.start ≤ window.stop) :
    stretch.overlap window = stretch.passed window.stop - stretch.passed window.start := by
  unfold overlap passed
  rcases le_total stretch.stop window.start with left | left
  · rw [min_eq_left (left.trans ordered), min_eq_left left, max_eq_right (proper.trans left),
      max_eq_left (by linarith : stretch.stop - window.start ≤ 0)]
    linarith
  · rw [min_eq_right left]
    rcases le_total window.stop stretch.start with right | right
    · rw [min_eq_right (right.trans proper), max_eq_left right, max_eq_left (ordered.trans right),
        max_eq_left (by linarith : window.stop - stretch.start ≤ 0)]
      linarith
    · rw [max_eq_right (le_min proper right)]
      refine max_eq_right ?_
      have bound : max stretch.start window.start ≤ min stretch.stop window.stop :=
        max_le (le_min proper right) (le_min left ordered)
      linarith

/-- Pieces of one width, one after another from a moment on -/
def pieces (start width : ℚ) : Nat → List Stretch
  | 0 => []
  | count + 1 => pieces start width count ++ [⟨start + count * width, start + (count + 1) * width⟩]

/-- The parts of a stretch in the pieces of a window add up to the stretch. -/
theorem sum_overlap_pieces {start width : ℚ} (proper : stretch.start ≤ stretch.stop) (wide : 0 ≤ width)
    (count : Nat) : ((pieces start width count).map stretch.overlap).sum =
      stretch.passed (start + count * width) - stretch.passed start := by
  induction count with
  | zero => simp [pieces]
  | succ count ih =>
      have ordered : start + count * width ≤ start + (count + 1) * width := by linarith
      rw [pieces, List.map_append, List.sum_append, ih, List.map_cons, List.map_nil, List.sum_singleton,
        overlap_eq_passed proper ordered]
      push_cast
      linarith

/-- A stretch inside the window that the pieces make up lies in them as a whole. -/
theorem sum_overlap_pieces_eq {start width : ℚ} {count : Nat} (proper : stretch.start ≤ stretch.stop)
    (wide : 0 ≤ width) (first : start ≤ stretch.start) (last : stretch.stop ≤ start + count * width) :
    ((pieces start width count).map stretch.overlap).sum = stretch.length := by
  rw [sum_overlap_pieces proper wide, passed, passed, min_eq_left last, max_eq_right proper,
    min_eq_right (first.trans proper), max_eq_left first, length, max_eq_right (by linarith)]

end Stretch

end Dockge.Data
