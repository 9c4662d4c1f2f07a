import Mathlib.Data.List.Sort

namespace Dockge.Data

/-! Stable sorting by a key: which list it is, and what filtering before or after it gives. -/

variable {Entry Key : Type*} [LinearOrder Key] {key : Entry → Key} {entries left right : List Entry}

def sortBy (key : Entry → Key) (entries : List Entry) : List Entry :=
  entries.mergeSort fun before after => key before ≤ key after

def SortedBy (key : Entry → Key) (entries : List Entry) : Prop :=
  entries.Pairwise fun before after => key before ≤ key after

section
variable (key)

theorem le_trans_key (first second third : Entry) (below : decide (key first ≤ key second) = true)
    (above : decide (key second ≤ key third) = true) : decide (key first ≤ key third) = true :=
  decide_eq_true ((of_decide_eq_true below).trans (of_decide_eq_true above))

theorem le_total_key (first second : Entry) :
    (decide (key first ≤ key second) || decide (key second ≤ key first)) = true := by
  rw [Bool.or_eq_true, decide_eq_true_eq, decide_eq_true_eq]
  exact le_total _ _

end

theorem sortBy_sorted (entries : List Entry) : SortedBy key (sortBy key entries) :=
  (List.pairwise_mergeSort (le_trans_key key) (le_total_key key) entries).imp of_decide_eq_true

theorem sortBy_perm (entries : List Entry) : (sortBy key entries).Perm entries :=
  List.mergeSort_perm entries _

/-- Entries of one key keep their order. -/
theorem filter_sortBy (entries : List Entry) (value : Key) :
    (sortBy key entries).filter (key · = value) = entries.filter (key · = value) := by
  have level : (entries.filter (key · = value)).Pairwise fun before after => decide (key before ≤ key after) = true := by
    refine List.pairwise_of_forall_mem_list fun before member after held => decide_eq_true (le_of_eq ?_)
    rw [of_decide_eq_true (List.mem_filter.mp member).2, of_decide_eq_true (List.mem_filter.mp held).2]
  have kept := (List.sublist_mergeSort (le_trans_key key) (le_total_key key) level List.filter_sublist).filter
    (key · = value)
  rw [List.filter_filter] at kept
  simp only [Bool.and_self] at kept
  exact (kept.eq_of_length ((sortBy_perm entries).filter _).length_eq.symm).symm

/-- A sorted list is determined by the order it gives to the entries of each key. -/
theorem eq_of_sorted (first : SortedBy key left) (second : SortedBy key right)
    (same : ∀ value, left.filter (key · = value) = right.filter (key · = value)) : left = right := by
  induction left generalizing right with
  | nil =>
      cases right with
      | nil => rfl
      | cons entry rest =>
          have none_ := same (key entry)
          simp at none_
  | cons entry rest ih =>
      cases right with
      | nil =>
          have none_ := same (key entry)
          simp at none_
      | cons other others =>
          obtain ⟨least, sorted⟩ := List.pairwise_cons.mp first
          obtain ⟨least', sorted'⟩ := List.pairwise_cons.mp second
          have keys : key entry = key other := by
            apply le_antisymm
            · have member : other ∈ (entry :: rest).filter (key · = key other) := by
                rw [same]
                simp
              obtain rfl | held := List.mem_cons.mp (List.mem_of_mem_filter member)
              · exact le_refl _
              · exact least other held
            · have member : entry ∈ (other :: others).filter (key · = key entry) := by
                rw [← same]
                simp
              obtain rfl | held := List.mem_cons.mp (List.mem_of_mem_filter member)
              · exact le_refl _
              · exact least' entry held
          have heads := same (key entry)
          rw [List.filter_cons_of_pos (by simp), List.filter_cons_of_pos (by simp [keys])] at heads
          obtain ⟨rfl, -⟩ := List.cons.inj heads
          congr 1
          refine ih sorted sorted' fun value => ?_
          have level := same value
          by_cases own : key entry = value
          · rw [List.filter_cons_of_pos (by simp [own]), List.filter_cons_of_pos (by simp [own])] at level
            exact (List.cons.inj level).2
          · rw [List.filter_cons_of_neg (by simp [own]), List.filter_cons_of_neg (by simp [own])] at level
            exact level

/-- The one sorted list that keeps the order of the entries of each key -/
theorem sortBy_eq (sorted : SortedBy key left)
    (same : ∀ value, left.filter (key · = value) = entries.filter (key · = value)) : sortBy key entries = left :=
  eq_of_sorted (sortBy_sorted entries) sorted fun value => (filter_sortBy entries value).trans (same value).symm

theorem sortBy_filter (entries : List Entry) (chosen : Entry → Bool) :
    (sortBy key entries).filter chosen = sortBy key (entries.filter chosen) := by
  refine (sortBy_eq ((sortBy_sorted entries).filter chosen) fun value => ?_).symm
  rw [List.filter_filter, List.filter_filter]
  have swapped (list : List Entry) : list.filter (fun entry => decide (key entry = value) && chosen entry) =
      (list.filter (key · = value)).filter chosen := by
    rw [List.filter_filter]
    exact List.filter_congr fun entry _ => Bool.and_comm _ _
  rw [swapped, swapped, filter_sortBy]

/-- What is before a bound is sorted by itself, and so is the rest. -/
theorem sortBy_append (low high : List Entry) (before : ∀ entry ∈ low, ∀ other ∈ high, key entry ≤ key other)
    (same : ∀ value, (low ++ high).filter (key · = value) = entries.filter (key · = value)) :
    sortBy key entries = sortBy key low ++ sortBy key high := by
  refine sortBy_eq ?_ fun value => ?_
  · refine List.pairwise_append.mpr ⟨sortBy_sorted low, sortBy_sorted high, ?_⟩
    intro entry member other held
    exact before entry ((sortBy_perm low).subset member) other ((sortBy_perm high).subset held)
  · rw [List.filter_append, filter_sortBy, filter_sortBy, ← List.filter_append, same]

/-- An entry stands behind those of a lower key, and among those of its own where it was. -/
theorem sortBy_insert (before after : List Entry) (entry : Entry) :
    sortBy key (before ++ entry :: after) =
      sortBy key (before.filter (key · ≤ key entry) ++ after.filter (key · < key entry)) ++
        entry :: sortBy key (before.filter (key entry < key ·) ++ after.filter (key entry ≤ key ·)) := by
  have below : ∀ other ∈ sortBy key (before.filter (key · ≤ key entry) ++ after.filter (key · < key entry)),
      key other ≤ key entry := by
    intro other member
    obtain held | held := List.mem_append.mp ((sortBy_perm _).subset member)
    · exact of_decide_eq_true (List.mem_filter.mp held).2
    · exact (of_decide_eq_true (List.mem_filter.mp held).2).le
  have above : ∀ other ∈ sortBy key (before.filter (key entry < key ·) ++ after.filter (key entry ≤ key ·)),
      key entry ≤ key other := by
    intro other member
    obtain held | held := List.mem_append.mp ((sortBy_perm _).subset member)
    · exact (of_decide_eq_true (List.mem_filter.mp held).2).le
    · exact of_decide_eq_true (List.mem_filter.mp held).2
  refine sortBy_eq ?_ fun value => ?_
  · refine List.pairwise_append.mpr ⟨sortBy_sorted _, List.pairwise_cons.mpr ⟨above, sortBy_sorted _⟩, ?_⟩
    intro other member following held
    obtain rfl | held := List.mem_cons.mp held
    · exact below other member
    · exact (below other member).trans (above following held)
  · have none_of {list : List Entry} {chosen : Entry → Bool} (never : ∀ other, key other = value → chosen other = false) :
        (list.filter chosen).filter (key · = value) = [] := by
      rw [List.filter_filter, List.filter_eq_nil_iff]
      intro other member both
      obtain ⟨same, held⟩ := Bool.and_eq_true_iff.mp both
      rw [never other (of_decide_eq_true same)] at held
      exact Bool.false_ne_true held
    have all_of {list : List Entry} {chosen : Entry → Bool} (always : ∀ other, key other = value → chosen other = true) :
        (list.filter chosen).filter (key · = value) = list.filter (key · = value) := by
      rw [List.filter_filter]
      refine List.filter_congr fun other member => ?_
      by_cases same : key other = value
      · simp [same, always other same]
      · simp [same]
    rw [List.filter_append, filter_sortBy, List.filter_append, List.filter_append, List.filter_cons, List.filter_cons,
      filter_sortBy, List.filter_append]
    rcases lt_trichotomy value (key entry) with less | rfl | more
    · rw [all_of (by simp +contextual [less.le]), all_of (by simp +contextual [less]),
        none_of (by simp +contextual [less.le]), none_of (by simp +contextual [less]),
        if_neg (by simp [less.ne']), if_neg (by simp [less.ne'])]
      simp
    · rw [all_of (by simp +contextual), none_of (by simp +contextual), none_of (by simp +contextual),
        all_of (by simp +contextual), if_pos (by simp), if_pos (by simp)]
      simp
    · rw [none_of (by simp +contextual [more]), none_of (by simp +contextual [more.le]),
        all_of (by simp +contextual [more]), all_of (by simp +contextual [more.le]),
        if_neg (by simp [more.ne]), if_neg (by simp [more.ne])]
      simp

end Dockge.Data
