import Mathlib.Data.List.Lex
import Mathlib.Data.Prod.Lex
import Mathlib.Order.Compare

namespace Dockge.Data

/-! Comparisons in linear orders, and of what is ordered part by part. -/

variable {α β : Type*} [LinearOrder α] [LinearOrder β]

/-- The comparison that the linear order gives, whatever else decides its relations -/
def comparison (left right : α) : Ordering := cmp left right

theorem comparison_eq {left right : α} {order : Ordering} (compares : order.Compares left right) :
    comparison left right = order :=
  compares.cmp_eq

theorem comparison_compares (left right : α) : (comparison left right).Compares left right :=
  cmp_compares left right

theorem comparison_self (value : α) : comparison value value = .eq :=
  comparison_eq rfl

theorem comparison_swap (left right : α) : (comparison left right).swap = comparison right left :=
  cmp_swap left right

theorem comparison_eq_eq {left right : α} : comparison left right = .eq ↔ left = right :=
  (comparison_compares left right).eq_eq

theorem comparison_cons (x y : α) (xs ys : List α) :
    comparison (x :: xs) (y :: ys) = (comparison x y).then (comparison xs ys) := by
  obtain less | rfl | greater := lt_trichotomy x y
  · have whole : x :: xs < y :: ys := List.cons_lt_cons_iff.mpr (.inl less)
    rw [(comparison_eq less : _ = Ordering.lt), (comparison_eq whole : _ = Ordering.lt)]
    rfl
  · obtain less | rfl | greater := lt_trichotomy xs ys
    · have whole : x :: xs < x :: ys := List.cons_lt_cons_iff.mpr (.inr ⟨rfl, less⟩)
      rw [comparison_self, (comparison_eq less : _ = Ordering.lt), (comparison_eq whole : _ = Ordering.lt)]
      rfl
    · simp only [comparison_self]
      rfl
    · have whole : x :: ys < x :: xs := List.cons_lt_cons_iff.mpr (.inr ⟨rfl, greater⟩)
      rw [comparison_self, (comparison_eq greater : _ = Ordering.gt), (comparison_eq whole : _ = Ordering.gt)]
      rfl
  · have whole : y :: ys < x :: xs := List.cons_lt_cons_iff.mpr (.inl greater)
    rw [(comparison_eq greater : _ = Ordering.gt), (comparison_eq whole : _ = Ordering.gt)]
    rfl

theorem comparison_nil_cons (y : α) (ys : List α) : comparison [] (y :: ys) = .lt :=
  comparison_eq (List.nil_lt_cons y ys)

theorem comparison_cons_nil (x : α) (xs : List α) : comparison (x :: xs) [] = .gt :=
  comparison_eq (List.nil_lt_cons x xs)

theorem comparison_toLex (x y : α) (left right : β) :
    comparison (toLex (x, left)) (toLex (y, right)) = (comparison x y).then (comparison left right) := by
  obtain less | rfl | greater := lt_trichotomy x y
  · have whole : toLex (x, left) < toLex (y, right) := Prod.Lex.toLex_lt_toLex.mpr (.inl less)
    rw [(comparison_eq less : _ = Ordering.lt), (comparison_eq whole : _ = Ordering.lt)]
    rfl
  · obtain less | rfl | greater := lt_trichotomy left right
    · have whole : toLex (x, left) < toLex (x, right) := Prod.Lex.toLex_lt_toLex.mpr (.inr ⟨rfl, less⟩)
      rw [comparison_self, (comparison_eq less : _ = Ordering.lt), (comparison_eq whole : _ = Ordering.lt)]
      rfl
    · simp only [comparison_self]
      rfl
    · have whole : toLex (x, right) < toLex (x, left) := Prod.Lex.toLex_lt_toLex.mpr (.inr ⟨rfl, greater⟩)
      rw [comparison_self, (comparison_eq greater : _ = Ordering.gt), (comparison_eq whole : _ = Ordering.gt)]
      rfl
  · have whole : toLex (y, right) < toLex (x, left) := Prod.Lex.toLex_lt_toLex.mpr (.inl greater)
    rw [(comparison_eq greater : _ = Ordering.gt), (comparison_eq whole : _ = Ordering.gt)]
    rfl

/-- A comparison as -1, 0 or 1 -/
def sign : Ordering → Int
  | .lt => -1
  | .eq => 0
  | .gt => 1

@[simp] theorem sign_swap (order : Ordering) : sign order.swap = -sign order := by
  cases order <;> rfl

@[simp] theorem sign_eq_zero {order : Ordering} : sign order = 0 ↔ order = .eq := by
  cases order <;> decide

theorem sign_nonpos {left right : α} : sign (comparison left right) ≤ 0 ↔ left ≤ right := by
  have compares := comparison_compares left right
  cases order : comparison left right with
  | lt =>
      rw [order] at compares
      exact iff_of_true (by decide) compares.le
  | eq =>
      rw [order] at compares
      exact iff_of_true (by decide) compares.le
  | gt =>
      rw [order] at compares
      exact iff_of_false (by decide) (not_le_of_gt compares)

end Dockge.Data
