import Mathlib
import Dockge.GitUi.LengthTable

namespace Dockge.GitUi

open Data

/-! What the two panes of a comparison have in common. -/

variable {lines opposite : List Line} {start : Nat} {changed : Nat → Bool}

/-! ## Rows of consecutive lines -/

def rowsFrom (changed : Nat → Bool) (start : Nat) (lines : List Line) : List DiffRow :=
  lines.mapIdx fun index text => { text, changed := changed (start + index) }

theorem rowsFrom_cons (changed : Nat → Bool) (start : Nat) (line : Line) (lines : List Line) :
    rowsFrom changed start (line :: lines) = ⟨line, changed start⟩ :: rowsFrom changed (start + 1) lines := by
  rw [rowsFrom, List.mapIdx_cons, rowsFrom]
  simp only [Nat.add_zero, Nat.add_assoc, Nat.add_comm 1]

theorem rowsFrom_append (changed : Nat → Bool) (start : Nat) (lines rest : List Line) :
    rowsFrom changed start (lines ++ rest) =
      rowsFrom changed start lines ++ rowsFrom changed (start + lines.length) rest := by
  rw [rowsFrom, List.mapIdx_append, rowsFrom, rowsFrom]
  simp only [Nat.add_assoc, Nat.add_comm lines.length]

theorem texts_rowsFrom (changed : Nat → Bool) (start : Nat) (lines : List Line) :
    (rowsFrom changed start lines).map DiffRow.text = lines := by
  induction lines generalizing start with
  | nil => rfl
  | cons line lines ih => rw [rowsFrom_cons, List.map_cons, ih]

theorem unchangedLines_cons (row : DiffRow) (rows : List DiffRow) :
    unchangedLines (row :: rows) = if row.changed = true then unchangedLines rows else row.text :: unchangedLines rows := by
  rw [unchangedLines, List.filter_cons]
  cases row.changed <;> rfl

theorem unchangedLines_append (rows rest : List DiffRow) :
    unchangedLines (rows ++ rest) = unchangedLines rows ++ unchangedLines rest := by
  rw [unchangedLines, List.filter_append, List.map_append, unchangedLines, unchangedLines]

theorem unchanged_all (kept : ∀ index, start ≤ index → index < start + lines.length → changed index = false) :
    unchangedLines (rowsFrom changed start lines) = lines := by
  induction lines generalizing start with
  | nil => rfl
  | cons line lines ih =>
      rw [List.length_cons] at kept
      rw [rowsFrom_cons, unchangedLines_cons, kept start (Nat.le_refl _) (by omega), if_neg Bool.false_ne_true,
        ih fun index from_ before => kept index (by omega) (by omega)]

/-- The unchanged lines are those at the indexes kept, one by one. -/
theorem unchanged_kept {kept : List Nat} (ascends : kept.Pairwise (· < ·))
    (within : ∀ index ∈ kept, start ≤ index ∧ index < start + lines.length)
    (marks : ∀ index, start ≤ index → index < start + lines.length → changed index = !kept.contains index) :
    (unchangedLines (rowsFrom changed start lines)).map some = kept.map fun index => lines[index - start]? := by
  induction lines generalizing start kept with
  | nil =>
      have none_ : kept = [] := List.eq_nil_iff_forall_not_mem.mpr fun index member => by
        have bounds := within index member
        rw [List.length_nil] at bounds
        omega
      rw [none_]
      rfl
  | cons line lines ih =>
      rw [List.length_cons] at within marks
      rw [rowsFrom_cons, unchangedLines_cons, marks start (Nat.le_refl _) (by omega)]
      have shifted : ∀ others : List Nat, (∀ index ∈ others, start + 1 ≤ index) →
          (others.map fun index => (line :: lines)[index - start]?) =
            others.map fun index => lines[index - (start + 1)]? := by
        intro others later
        refine List.map_congr_left fun index member => ?_
        have one := later index member
        rw [show index - start = index - (start + 1) + 1 by omega, List.getElem?_cons_succ]
      by_cases first : start ∈ kept
      · obtain ⟨others, rfl⟩ : ∃ others, kept = start :: others := by
          cases kept with
          | nil => cases first
          | cons head others =>
              obtain rfl | later := List.mem_cons.mp first
              · exact ⟨others, rfl⟩
              · have after := (List.pairwise_cons.mp ascends).1 start later
                have bound := (within head List.mem_cons_self).1
                omega
        obtain ⟨after, ascends⟩ := List.pairwise_cons.mp ascends
        have mark : (start :: others).contains start = true := List.contains_iff_mem.mpr first
        rw [mark, Bool.not_true, if_neg Bool.false_ne_true, List.map_cons, List.map_cons, Nat.sub_self,
          List.getElem?_cons_zero, shifted others after, ih ascends]
        · intro index member
          have bound := (within index (List.mem_cons_of_mem _ member)).2
          exact ⟨after index member, by omega⟩
        · intro index from_ before
          rw [marks index (by omega) (by omega), List.contains_cons, beq_false_of_ne (by omega), Bool.false_or]
      · have after : ∀ index ∈ kept, start + 1 ≤ index := by
          intro index member
          have other : index ≠ start := fun equal => first (equal ▸ member)
          have bound := (within index member).1
          omega
        have mark : kept.contains start = false := Bool.eq_false_iff.mpr fun found => first (List.contains_iff_mem.mp found)
        rw [mark, Bool.not_false, if_pos rfl, shifted kept after, ih ascends]
        · intro index member
          have bound := (within index member).2
          exact ⟨after index member, by omega⟩
        · intro index from_ before
          exact marks index (by omega) (by omega)

/-! ## The changed block -/

theorem sharedStart_comm (lines opposite : List Line) : sharedStart lines opposite = sharedStart opposite lines := by
  induction lines generalizing opposite with
  | nil => cases opposite <;> rfl
  | cons line lines ih =>
      cases opposite with
      | nil => rfl
      | cons line_ opposite => rw [sharedStart, sharedStart, ih opposite, if_congr eq_comm rfl rfl]

theorem trimEnd_comm : ∀ rows columns : Nat,
    trimEnd opposite lines start columns rows = (trimEnd lines opposite start rows columns).swap
  | 0, 0 => rfl
  | 0, columns + 1 => rfl
  | rows + 1, 0 => rfl
  | rows + 1, columns + 1 => by
      rw [trimEnd, trimEnd, trimEnd_comm rows columns]
      by_cases same : lines[start + rows]? = opposite[start + columns]?
      · rw [if_pos same, if_pos same.symm]
      · rw [if_neg same, if_neg fun equal => same equal.symm, Prod.swap]

theorem trimEnd_le : ∀ rows columns : Nat,
    (trimEnd lines opposite start rows columns).1 ≤ rows ∧ (trimEnd lines opposite start rows columns).2 ≤ columns
  | 0, 0 => ⟨Nat.le_refl _, Nat.le_refl _⟩
  | 0, columns + 1 => ⟨Nat.le_refl _, Nat.le_refl _⟩
  | rows + 1, 0 => ⟨Nat.le_refl _, Nat.le_refl _⟩
  | rows + 1, columns + 1 => by
      rw [trimEnd]
      split
      next =>
        obtain ⟨fewer, fewer_⟩ := trimEnd_le rows columns
        exact ⟨Nat.le_succ_of_le fewer, Nat.le_succ_of_le fewer_⟩
      next => exact ⟨Nat.le_refl _, Nat.le_refl _⟩

theorem drop_trimEnd : ∀ rows columns : Nat, start + rows ≤ lines.length → start + columns ≤ opposite.length →
    lines.drop (start + rows) = opposite.drop (start + columns) →
    lines.drop (start + (trimEnd lines opposite start rows columns).1) =
      opposite.drop (start + (trimEnd lines opposite start rows columns).2)
  | 0, 0, _, _, same => same
  | 0, columns + 1, _, _, same => same
  | rows + 1, 0, _, _, same => same
  | rows + 1, columns + 1, inLines, inOpposite, same => by
      rw [trimEnd]
      split
      next equal =>
        have here : start + rows < lines.length := by omega
        have here_ : start + columns < opposite.length := by omega
        rw [List.getElem?_eq_getElem here, List.getElem?_eq_getElem here_, Option.some.injEq] at equal
        refine drop_trimEnd rows columns (by omega) (by omega) ?_
        rw [List.drop_eq_getElem_cons here, List.drop_eq_getElem_cons here_, equal, Nat.add_assoc, Nat.add_assoc, same]
      next => exact same

theorem changedBlock_comm (lines opposite : List Line) :
    changedBlock opposite lines =
      ((changedBlock lines opposite).1, (changedBlock lines opposite).2.2, (changedBlock lines opposite).2.1) := by
  rw [changedBlock, sharedStart_comm opposite lines, trimEnd_comm, changedBlock]
  rfl

theorem withinLimit_comm : WithinLimit opposite lines ↔ WithinLimit lines opposite := by
  rw [WithinLimit, changedBlock_comm lines opposite, WithinLimit, Nat.mul_comm]

/-- The lines of the changed block on one side -/
def blockOf (lines opposite : List Line) : List Line :=
  (lines.drop (changedBlock lines opposite).1).take (changedBlock lines opposite).2.1

def endOf (lines opposite : List Line) : List Line :=
  lines.drop ((changedBlock lines opposite).1 + (changedBlock lines opposite).2.1)

def startOf (lines opposite : List Line) : List Line := lines.take (changedBlock lines opposite).1

theorem startOf_comm (lines opposite : List Line) : startOf opposite lines = startOf lines opposite := by
  rw [startOf, changedBlock_comm lines opposite, startOf]
  exact (take_sharedStart lines opposite).symm

theorem block_bound (lines opposite : List Line) :
    (changedBlock lines opposite).1 + (changedBlock lines opposite).2.1 ≤ lines.length := by
  have begins := (sharedStart_le lines opposite).1
  have fewer := (@trimEnd_le lines opposite (sharedStart lines opposite) (lines.length - sharedStart lines opposite)
    (opposite.length - sharedStart lines opposite)).1
  rw [changedBlock]
  dsimp only
  omega

theorem endOf_comm (lines opposite : List Line) : endOf opposite lines = endOf lines opposite := by
  have begins := sharedStart_le lines opposite
  rw [endOf, changedBlock_comm lines opposite, endOf]
  refine (@drop_trimEnd lines opposite (sharedStart lines opposite) (lines.length - sharedStart lines opposite)
    (opposite.length - sharedStart lines opposite) ?_ ?_ ?_).symm
  · rw [Nat.add_sub_of_le begins.1]
  · rw [Nat.add_sub_of_le begins.2]
  · rw [Nat.add_sub_of_le begins.1, Nat.add_sub_of_le begins.2, List.drop_length, List.drop_length]

theorem startOf_block_end (lines opposite : List Line) :
    startOf lines opposite ++ (blockOf lines opposite ++ endOf lines opposite) = lines := by
  rw [startOf, blockOf, endOf, ← List.drop_drop, List.take_append_drop, List.take_append_drop]

theorem length_blockOf (lines opposite : List Line) : (blockOf lines opposite).length = (changedBlock lines opposite).2.1 := by
  have bound := block_bound lines opposite
  rw [blockOf, List.length_take, List.length_drop]
  omega

theorem holds_blockOf (lines opposite : List Line) :
    HoldsBlock lines (changedBlock lines opposite).1 (blockOf lines opposite) := by
  intro index inside
  rw [length_blockOf] at inside
  rw [blockOf, List.getElem?_take_of_lt inside, List.getElem?_drop]

theorem blockOf_comm (lines opposite : List Line) :
    blockOf opposite lines = (opposite.drop (changedBlock lines opposite).1).take (changedBlock lines opposite).2.2 := by
  rw [blockOf, changedBlock_comm lines opposite]

/-! ## What each pane leaves unchanged -/

def matched (lines opposite : List Line) : List Nat :=
  matchedLines lines opposite (changedBlock lines opposite).1 (changedBlock lines opposite).2.1
    (changedBlock lines opposite).2.2

theorem matched_bounds (lines opposite : List Line) :
    (matched lines opposite).Pairwise (· < ·) ∧
      ∀ index ∈ matched lines opposite,
        (changedBlock lines opposite).1 ≤ index ∧
          index < (changedBlock lines opposite).1 + (changedBlock lines opposite).2.1 := by
  rw [matched, matchedLines]
  split
  next => exact ⟨.nil, fun _ never => by cases never⟩
  next =>
    obtain ⟨ascends, within⟩ := walk_ascends ((changedBlock lines opposite).2.1 + (changedBlock lines opposite).2.2) 0 0
    exact ⟨ascends, within⟩

/-- What the two sides of the block are found to share, where the table is small enough -/
def shared (lines opposite : List Line) : List Line :=
  if ((changedBlock lines opposite).2.1 + 1) * ((changedBlock lines opposite).2.2 + 1) ≤ maximumCells then
    align (blockOf lines opposite) (blockOf opposite lines)
  else []

theorem matched_eq (lines opposite : List Line) :
    (matched lines opposite).map (fun index => lines[index]?) = (shared lines opposite).map some := by
  have rows := length_blockOf lines opposite
  have columns := length_blockOf opposite lines
  rw [changedBlock_comm lines opposite] at columns
  dsimp only at columns
  have holds := holds_blockOf lines opposite
  have holds_ := holds_blockOf opposite lines
  rw [changedBlock_comm lines opposite] at holds_
  rw [matched, matchedLines, shared]
  split
  next none_ =>
    rw [List.map_nil]
    split
    next within =>
      obtain empty | empty | large := none_
      · rw [List.eq_nil_of_length_eq_zero (rows.trans empty), align, List.map_nil]
      · have nothing : align (blockOf lines opposite) ([] : List Line) = [] := List.sublist_nil.mp (align_sublist _ _).2
        rw [List.eq_nil_of_length_eq_zero (columns.trans empty), nothing, List.map_nil]
      · omega
    next => rfl
  next some_ =>
    rw [if_pos (by omega), ← rows, ← columns]
    exact walk_eq holds holds_ _ 0 0 (Nat.zero_le _) (Nat.zero_le _) (by omega)

variable (a b : List Char)

/-- The texts of the rows of one pane that are not marked -/
def unchangedBeside : List Line := unchangedLines (diffLineRows (some a) (some b))

theorem diffLineRows_eq :
    diffLineRows (some a) (some b) =
      rowsFrom (fun index =>
        decide ((changedBlock (linesOf a) (linesOf b)).1 ≤ index) &&
          decide (index < (changedBlock (linesOf a) (linesOf b)).1 + (changedBlock (linesOf a) (linesOf b)).2.1) &&
          !(matched (linesOf a) (linesOf b)).contains index) 0 (linesOf a) := by
  rw [rowsFrom]
  simp only [Nat.zero_add]
  rfl

/-- A pane leaves unchanged the shared start, what the block shares and the shared end. -/
theorem unchangedBeside_eq :
    unchangedBeside a b =
      startOf (linesOf a) (linesOf b) ++ (shared (linesOf a) (linesOf b) ++ endOf (linesOf a) (linesOf b)) := by
  generalize linesA : linesOf a = lines
  generalize linesB : linesOf b = opposite
  have bound := block_bound lines opposite
  have begins : (startOf lines opposite).length = (changedBlock lines opposite).1 := by
    rw [startOf, List.length_take]
    omega
  have middle := length_blockOf lines opposite
  obtain ⟨ascends, within⟩ := matched_bounds lines opposite
  rw [unchangedBeside, diffLineRows_eq, linesA, linesB]
  generalize marking : (fun index => decide ((changedBlock lines opposite).1 ≤ index) &&
    decide (index < (changedBlock lines opposite).1 + (changedBlock lines opposite).2.1) &&
    !(matched lines opposite).contains index) = changed
  have parts : rowsFrom changed 0 lines =
      rowsFrom changed 0 (startOf lines opposite ++ (blockOf lines opposite ++ endOf lines opposite)) := by
    rw [startOf_block_end]
  rw [parts, rowsFrom_append, rowsFrom_append, unchangedLines_append, unchangedLines_append, Nat.zero_add, begins, middle]
  have first : unchangedLines (rowsFrom changed 0 (startOf lines opposite)) = startOf lines opposite := by
    refine unchanged_all fun index from_ before => ?_
    rw [← marking]
    simp only [Bool.and_eq_false_iff, decide_eq_false_iff_not]
    omega
  have last : unchangedLines (rowsFrom changed ((changedBlock lines opposite).1 + (changedBlock lines opposite).2.1)
      (endOf lines opposite)) = endOf lines opposite := by
    refine unchanged_all fun index from_ before => ?_
    rw [← marking]
    simp only [Bool.and_eq_false_iff, decide_eq_false_iff_not]
    omega
  have inside : unchangedLines (rowsFrom changed (changedBlock lines opposite).1 (blockOf lines opposite)) =
      shared lines opposite := by
    have marks : ∀ index, (changedBlock lines opposite).1 ≤ index →
        index < (changedBlock lines opposite).1 + (blockOf lines opposite).length →
        changed index = !(matched lines opposite).contains index := by
      intro index from_ before
      rw [middle] at before
      rw [← marking]
      simp only [decide_eq_true from_, decide_eq_true before, Bool.true_and]
    refine List.map_injective_iff.mpr (Option.some_injective _) ?_
    rw [unchanged_kept ascends (by rwa [middle]) marks, ← matched_eq]
    refine List.map_congr_left fun index member => ?_
    obtain ⟨from_, before⟩ := within index member
    have here := holds_blockOf lines opposite (index - (changedBlock lines opposite).1) (by omega)
    rw [← here, Nat.add_sub_of_le from_]
  rw [first, inside, last]

theorem shared_within {lines opposite : List Line} (within : WithinLimit lines opposite) :
    shared lines opposite = align (blockOf lines opposite) (blockOf opposite lines) := if_pos within

theorem shared_beyond {lines opposite : List Line} (beyond : ¬ WithinLimit lines opposite) : shared lines opposite = [] :=
  if_neg beyond

theorem shared_sublist (lines opposite : List Line) :
    (shared lines opposite).Sublist (blockOf lines opposite) ∧ (shared lines opposite).Sublist (blockOf opposite lines) := by
  rw [shared]
  split
  next => exact align_sublist _ _
  next => exact ⟨List.nil_sublist _, List.nil_sublist _⟩

theorem unchangedBeside_sublist :
    (unchangedBeside a b).Sublist (linesOf a) ∧ (unchangedBeside a b).Sublist (linesOf b) := by
  obtain ⟨one, two⟩ := shared_sublist (linesOf a) (linesOf b)
  have whole := startOf_block_end (linesOf a) (linesOf b)
  have whole_ := startOf_block_end (linesOf b) (linesOf a)
  rw [startOf_comm (linesOf a) (linesOf b), endOf_comm (linesOf a) (linesOf b)] at whole_
  rw [unchangedBeside_eq]
  constructor
  · have part := ((one.append_right (endOf (linesOf a) (linesOf b))).append_left (startOf (linesOf a) (linesOf b)))
    rwa [whole] at part
  · have part := ((two.append_right (endOf (linesOf a) (linesOf b))).append_left (startOf (linesOf a) (linesOf b)))
    rwa [whole_] at part

theorem unchangedBeside_longest (within : WithinLimit (linesOf a) (linesOf b)) :
    IsLongest (unchangedBeside a b) (linesOf a) (linesOf b) := by
  have whole := startOf_block_end (linesOf a) (linesOf b)
  have whole_ := startOf_block_end (linesOf b) (linesOf a)
  rw [startOf_comm (linesOf a) (linesOf b), endOf_comm (linesOf a) (linesOf b)] at whole_
  have block := align_longest (blockOf (linesOf a) (linesOf b)) (blockOf (linesOf b) (linesOf a))
  have all := (block.append_right (endOf (linesOf a) (linesOf b))).append_left (startOf (linesOf a) (linesOf b))
  rw [whole, whole_] at all
  rwa [unchangedBeside_eq, shared_within within]

theorem unchangedBeside_beyond (beyond : ¬ WithinLimit (linesOf a) (linesOf b)) :
    unchangedBeside a b = unchangedBeside b a := by
  have beyond_ : ¬ WithinLimit (linesOf b) (linesOf a) := fun within => beyond (withinLimit_comm.mp within)
  rw [unchangedBeside_eq, unchangedBeside_eq, shared_beyond beyond, shared_beyond beyond_,
    startOf_comm (linesOf a) (linesOf b), endOf_comm (linesOf a) (linesOf b)]

end Dockge.GitUi
