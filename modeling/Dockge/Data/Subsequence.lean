import Mathlib.Data.List.Basic
import Mathlib.Data.List.Infix

namespace Dockge.Data

/-! Longest common subsequences of two lists. -/

variable {Item : Type} [DecidableEq Item] {left right common : List Item} {item : Item}

structure IsLongest (common left right : List Item) : Prop where
  inLeft : common.Sublist left
  inRight : common.Sublist right
  longest : ∀ other : List Item, other.Sublist left → other.Sublist right → other.length ≤ common.length

def commonLength : List Item → List Item → Nat
  | [], _ => 0
  | _ :: _, [] => 0
  | first :: left, second :: right =>
      if first = second then 1 + commonLength left right
      else max (commonLength left (second :: right)) (commonLength (first :: left) right)
termination_by left right => left.length + right.length

/-- What two lists are found to share, where of two ways the first list is left alone last -/
def align : List Item → List Item → List Item
  | [], _ => []
  | _ :: _, [] => []
  | first :: left, second :: right =>
      if first = second then first :: align left right
      else if commonLength (first :: left) right ≤ commonLength left (second :: right) then align left (second :: right)
      else align (first :: left) right
termination_by left right => left.length + right.length

theorem sublist_of_ne {first second : Item} {rest : List Item} (different : first ≠ second)
    (sublist : (first :: rest).Sublist (second :: right)) : (first :: rest).Sublist right := by
  cases sublist with
  | cons _ sublist => exact sublist
  | cons_cons _ sublist => exact absurd rfl different

theorem length_le_commonLength (one : common.Sublist left) (two : common.Sublist right) :
    common.length ≤ commonLength left right := by
  induction left, right using commonLength.induct generalizing common with
  | case1 right =>
      rw [List.sublist_nil.mp one]
      exact Nat.zero_le _
  | case2 first left =>
      rw [List.sublist_nil.mp two]
      exact Nat.zero_le _
  | case3 first left right ih =>
      rw [commonLength, if_pos rfl]
      have rest := ih one.tail two.tail
      rw [List.length_tail] at rest
      omega
  | case4 first left second right different ih ih_ =>
      rw [commonLength, if_neg different]
      cases one with
      | cons _ one => exact Nat.le_trans (ih one two) (Nat.le_max_left _ _)
      | cons_cons _ one => exact Nat.le_trans (ih_ (one.cons_cons first) (sublist_of_ne different two)) (Nat.le_max_right _ _)

theorem length_align (left right : List Item) : (align left right).length = commonLength left right := by
  induction left, right using align.induct with
  | case1 right => rw [align, commonLength, List.length_nil]
  | case2 first left => rw [align, commonLength, List.length_nil]
  | case3 first left right ih => rw [align, commonLength, if_pos rfl, if_pos rfl, List.length_cons, ih, Nat.add_comm]
  | case4 first left second right different least ih =>
      rw [align, commonLength, if_neg different, if_neg different, if_pos least, ih, Nat.max_eq_left least]
  | case5 first left second right different more ih =>
      rw [align, commonLength, if_neg different, if_neg different, if_neg more, ih,
        Nat.max_eq_right (Nat.le_of_lt (Nat.lt_of_not_le more))]

theorem align_sublist (left right : List Item) : (align left right).Sublist left ∧ (align left right).Sublist right := by
  induction left, right using align.induct with
  | case1 right =>
      rw [align]
      exact ⟨List.nil_sublist _, List.nil_sublist _⟩
  | case2 first left =>
      rw [align]
      exact ⟨List.nil_sublist _, List.nil_sublist _⟩
  | case3 left first right ih =>
      rw [align, if_pos rfl]
      exact ⟨ih.1.cons_cons first, ih.2.cons_cons first⟩
  | case4 first left second right different least ih =>
      rw [align, if_neg different, if_pos least]
      exact ⟨ih.1.cons first, ih.2⟩
  | case5 first left second right different more ih =>
      rw [align, if_neg different, if_neg more]
      exact ⟨ih.1, ih.2.cons second⟩

/-- What is found is a longest common subsequence. -/
theorem align_longest (left right : List Item) : IsLongest (align left right) left right := by
  obtain ⟨one, two⟩ := align_sublist left right
  refine ⟨one, two, ?_⟩
  intro other one two
  rw [length_align]
  exact length_le_commonLength one two

/-! ## Shared beginnings and ends -/

omit [DecidableEq Item] in
theorem IsLongest.symm (longest : IsLongest common left right) : IsLongest common right left :=
  ⟨longest.inRight, longest.inLeft, fun other one two => longest.longest other two one⟩

omit [DecidableEq Item] in
theorem IsLongest.cons (longest : IsLongest common left right) (item : Item) :
    IsLongest (item :: common) (item :: left) (item :: right) := by
  refine ⟨longest.inLeft.cons_cons item, longest.inRight.cons_cons item, ?_⟩
  intro other one two
  have rest := longest.longest other.tail one.tail two.tail
  rw [List.length_tail] at rest
  rw [List.length_cons]
  omega

omit [DecidableEq Item] in
theorem IsLongest.append_left (longest : IsLongest common left right) (shared : List Item) :
    IsLongest (shared ++ common) (shared ++ left) (shared ++ right) := by
  induction shared with
  | nil => exact longest
  | cons item rest ih => exact ih.cons item

omit [DecidableEq Item] in
theorem IsLongest.reverse (longest : IsLongest common left right) :
    IsLongest common.reverse left.reverse right.reverse := by
  refine ⟨longest.inLeft.reverse, longest.inRight.reverse, ?_⟩
  intro other one two
  have length := longest.longest other.reverse (List.reverse_sublist.mp (by rwa [List.reverse_reverse]))
    (List.reverse_sublist.mp (by rwa [List.reverse_reverse]))
  rw [List.length_reverse] at length ⊢
  exact length

omit [DecidableEq Item] in
theorem IsLongest.append_right (longest : IsLongest common left right) (shared : List Item) :
    IsLongest (common ++ shared) (left ++ shared) (right ++ shared) := by
  have turned := (longest.reverse.append_left shared.reverse).reverse
  simpa only [List.reverse_append, List.reverse_reverse] using turned

/-- How many items two lists begin with alike -/
def sharedStart : List Item → List Item → Nat
  | first :: left, second :: right => if first = second then sharedStart left right + 1 else 0
  | _, _ => 0

theorem sharedStart_le (left right : List Item) :
    sharedStart left right ≤ left.length ∧ sharedStart left right ≤ right.length := by
  induction left generalizing right with
  | nil => exact ⟨Nat.zero_le _, Nat.zero_le _⟩
  | cons first left ih =>
      cases right with
      | nil => exact ⟨Nat.zero_le _, Nat.zero_le _⟩
      | cons second right =>
          rw [sharedStart]
          split
          next => exact ⟨Nat.succ_le_succ (ih right).1, Nat.succ_le_succ (ih right).2⟩
          next => exact ⟨Nat.zero_le _, Nat.zero_le _⟩

theorem take_sharedStart (left right : List Item) :
    left.take (sharedStart left right) = right.take (sharedStart left right) := by
  induction left generalizing right with
  | nil =>
      cases right with
      | nil => rfl
      | cons second right => rfl
  | cons first left ih =>
      cases right with
      | nil => rfl
      | cons second right =>
          rw [sharedStart]
          split
          next same => rw [List.take_succ_cons, List.take_succ_cons, ih right, same]
          next => rfl

end Dockge.Data
