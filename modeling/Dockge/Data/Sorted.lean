import Mathlib.Data.List.Perm.Basic
import Mathlib.Data.List.Sort

namespace Dockge.Data

/-! What a query that filters and sorts by a key answers of a list that is sorted by it already. -/

variable {Entry : Type} {key : Entry → Nat} {entries : List Entry}

/-- A sorted list is cut in two by a bound on its key. -/
theorem filter_lt_append_filter_le (sorted : entries.Pairwise fun before after => key before ≤ key after) (bound : Nat) :
    entries.filter (key · < bound) ++ entries.filter (bound ≤ key ·) = entries := by
  induction entries with
  | nil => rfl
  | cons entry rest ih =>
      obtain ⟨first, restSorted⟩ := List.pairwise_cons.mp sorted
      by_cases low : key entry < bound
      · have notHigh : ¬ bound ≤ key entry := by omega
        simp only [List.filter_cons, low, notHigh, decide_true, decide_false, if_true, Bool.false_eq_true, if_false,
          List.cons_append]
        rw [ih restSorted]
      · have high : bound ≤ key entry := by omega
        have none : rest.filter (key · < bound) = [] := by
          rw [List.filter_eq_nil_iff]
          intro other member below
          have above := first other member
          have := of_decide_eq_true below
          omega
        have all : rest.filter (bound ≤ key ·) = rest := by
          rw [List.filter_eq_self]
          intro other member
          exact decide_eq_true (high.trans (first other member))
        simp [low, high, none, all]

/-- Sorting keeps the order of the entries that are in order. -/
theorem filter_mergeSort {chosen : Entry → Bool}
    (sorted : (entries.filter chosen).Pairwise fun before after => key before ≤ key after) :
    (entries.mergeSort fun before after => key before ≤ key after).filter chosen = entries.filter chosen := by
  have trans : ∀ first second third : Entry, decide (key first ≤ key second) = true →
      decide (key second ≤ key third) = true → decide (key first ≤ key third) = true := by
    intro first second third below above
    exact decide_eq_true ((of_decide_eq_true below).trans (of_decide_eq_true above))
  have total : ∀ first second : Entry, (decide (key first ≤ key second) || decide (key second ≤ key first)) = true := by
    intro first second
    rw [Bool.or_eq_true, decide_eq_true_eq, decide_eq_true_eq]
    exact Nat.le_total _ _
  have kept : List.Sublist (entries.filter chosen) (entries.mergeSort fun before after => key before ≤ key after) :=
    List.sublist_mergeSort trans total (sorted.imp decide_eq_true) List.filter_sublist
  have chosenKept := kept.filter chosen
  rw [List.filter_filter] at chosenKept
  simp only [Bool.and_self] at chosenKept
  have permuted := (List.mergeSort_perm entries fun before after => key before ≤ key after).filter chosen
  exact (chosenKept.eq_of_length permuted.length_eq.symm).symm

/-- Sorting the other way round turns a list around, where no two entries share a key. -/
theorem mergeSort_descending (sorted : entries.Pairwise fun before after => key before < key after) :
    (entries.mergeSort fun before after => key after ≤ key before) = entries.reverse := by
  have turned : entries.reverse.Pairwise fun before after => decide (key after ≤ key before) = true := by
    rw [List.pairwise_reverse]
    exact sorted.imp fun below => decide_eq_true (Nat.le_of_lt below)
  have trans : ∀ first second third : Entry, decide (key second ≤ key first) = true →
      decide (key third ≤ key second) = true → decide (key third ≤ key first) = true := by
    intro first second third below above
    exact decide_eq_true ((of_decide_eq_true above).trans (of_decide_eq_true below))
  have total : ∀ first second : Entry, (decide (key second ≤ key first) || decide (key first ≤ key second)) = true := by
    intro first second
    rw [Bool.or_eq_true, decide_eq_true_eq, decide_eq_true_eq]
    exact Nat.le_total _ _
  have permuted := (List.mergeSort_perm entries fun before after => key after ≤ key before).trans
    entries.reverse_perm.symm
  refine List.Perm.eq_of_pairwise ?_ (List.pairwise_mergeSort trans total entries) turned permuted
  intro first second held other below above
  have sameKey : key first = key second := Nat.le_antisymm (of_decide_eq_true above) (of_decide_eq_true below)
  have distinct : (entries.map key).Nodup := (List.pairwise_map.mpr sorted).imp Nat.ne_of_lt
  exact List.inj_on_of_nodup_map distinct (List.mem_mergeSort.mp held) (List.mem_reverse.mp other) sameKey

theorem replicate_flatten_perm (entries : List Entry) (count : Nat) :
    (List.replicate count entries).flatten.Perm (entries.flatMap (List.replicate count)) := by
  induction count with
  | zero => simp
  | succ count ih =>
      rw [List.replicate_succ, List.flatten_cons]
      have joined := List.map_append_flatMap_perm entries id (List.replicate count)
      rw [List.map_id] at joined
      exact (ih.append_left entries).trans joined

/-- Entries with keys of their own, read several times over and sorted: each stands beside its copies. -/
theorem mergeSort_repeated (sorted : entries.Pairwise fun before after => key before < key after) (count : Nat) :
    ((List.replicate count entries).flatten.mergeSort fun before after => key before ≤ key after) =
      entries.flatMap (List.replicate count) := by
  have beside : (entries.flatMap (List.replicate count)).Pairwise
      fun before after => decide (key before ≤ key after) = true := by
    induction entries with
    | nil => exact List.Pairwise.nil
    | cons entry rest ih =>
        obtain ⟨first, restSorted⟩ := List.pairwise_cons.mp sorted
        rw [List.flatMap_cons, List.pairwise_append]
        refine ⟨List.pairwise_replicate.mpr (.inr (decide_eq_true (Nat.le_refl _))), ih restSorted, ?_⟩
        intro before copy after member
        obtain ⟨other, held, copied⟩ := List.mem_flatMap.mp member
        rw [List.eq_of_mem_replicate copy, List.eq_of_mem_replicate copied]
        exact decide_eq_true (Nat.le_of_lt (first other held))
  have trans : ∀ first second third : Entry, decide (key first ≤ key second) = true →
      decide (key second ≤ key third) = true → decide (key first ≤ key third) = true := by
    intro first second third below above
    exact decide_eq_true ((of_decide_eq_true below).trans (of_decide_eq_true above))
  have total : ∀ first second : Entry, (decide (key first ≤ key second) || decide (key second ≤ key first)) = true := by
    intro first second
    rw [Bool.or_eq_true, decide_eq_true_eq, decide_eq_true_eq]
    exact Nat.le_total _ _
  have permuted := (List.mergeSort_perm (List.replicate count entries).flatten
    fun before after => key before ≤ key after).trans (replicate_flatten_perm entries count)
  refine List.Perm.eq_of_pairwise ?_ (List.pairwise_mergeSort trans total _) beside permuted
  intro first second held other below above
  have sameKey : key first = key second := Nat.le_antisymm (of_decide_eq_true below) (of_decide_eq_true above)
  have distinct : (entries.map key).Nodup := (List.pairwise_map.mpr sorted).imp Nat.ne_of_lt
  have read {entry : Entry} (member : entry ∈ entries.flatMap (List.replicate count)) : entry ∈ entries := by
    obtain ⟨original, listed, copied⟩ := List.mem_flatMap.mp member
    exact List.eq_of_mem_replicate copied ▸ listed
  exact List.inj_on_of_nodup_map distinct (read (permuted.subset held)) (read other) sameKey

end Dockge.Data
