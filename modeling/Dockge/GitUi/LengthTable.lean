import Mathlib
import Dockge.GitUi.DiffLines

namespace Dockge.GitUi

open Data

/-! The table holds the longest common lengths, and the walk through it finds a longest alignment. -/

variable {lines opposite left right : List Line} {start row column : Nat} {lengths : Nat → Nat}

/-- The lines from one on are those of a block. -/
def HoldsBlock (lines : List Line) (start : Nat) (block : List Line) : Prop :=
  ∀ index, index < block.length → lines[start + index]? = block[index]?

def Filled (left right : List Line) (row column : Nat) (lengths : Nat → Nat) : Prop :=
  ∀ one two, one ≤ left.length → two ≤ right.length →
    row < one ∨ one = row ∧ column ≤ two ∨ two = right.length →
    lengths (one * (right.length + 1) + two) = commonLength (left.drop one) (right.drop two)

theorem commonLength_nil_right (left : List Line) : commonLength left [] = 0 := by
  cases left with
  | nil => rw [commonLength]
  | cons first left => rw [commonLength]

theorem drop_of_block (holds : HoldsBlock lines start left) (inside : row < left.length) :
    ∃ line, lines[start + row]? = some line ∧ left.drop row = line :: left.drop (row + 1) := by
  refine ⟨left[row], ?_, List.drop_eq_getElem_cons inside⟩
  rw [holds row inside]
  exact List.getElem?_eq_getElem inside

section Cells

variable (holds : HoldsBlock lines start left) (holds_ : HoldsBlock opposite start right)

include holds holds_

theorem cell_eq (inRows : row < left.length) (inColumns : column < right.length)
    (filled : Filled left right row (column + 1) lengths) :
    cell lines opposite start right.length row lengths column = commonLength (left.drop row) (right.drop column) := by
  obtain ⟨line, here, drop⟩ := drop_of_block holds inRows
  obtain ⟨line_, here_, drop_⟩ := drop_of_block holds_ inColumns
  have diagonal := filled (row + 1) (column + 1) inRows inColumns (.inl (Nat.lt_succ_self row))
  have below := filled (row + 1) column inRows (Nat.le_of_lt inColumns) (.inl (Nat.lt_succ_self row))
  have beside := filled row (column + 1) (Nat.le_of_lt inRows) inColumns (.inr (.inl ⟨rfl, Nat.le_refl _⟩))
  rw [← Nat.add_assoc] at diagonal beside
  rw [cell, here, here_, diagonal, below, beside, drop, drop_, commonLength]
  simp only [Option.some.injEq]

omit holds holds_ in
theorem position_inj {one two : Nat} (within : two ≤ right.length) (inside : column < right.length + 1)
    (same : one * (right.length + 1) + two = row * (right.length + 1) + column) : one = row ∧ two = column := by
  have quotient := congrArg (· / (right.length + 1)) same
  have remainder := congrArg (· % (right.length + 1)) same
  simp only [Nat.mul_comm _ (right.length + 1), Nat.mul_add_mod, Nat.mul_add_div (Nat.succ_pos right.length),
    Nat.mod_eq_of_lt inside, Nat.mod_eq_of_lt (Nat.lt_succ_of_le within), Nat.div_eq_of_lt inside,
    Nat.div_eq_of_lt (Nat.lt_succ_of_le within), Nat.add_zero] at quotient remainder
  exact ⟨quotient, remainder⟩

theorem filled_cell (inRows : row < left.length) (inColumns : column < right.length)
    (filled : Filled left right row (column + 1) lengths) :
    Filled left right row column (Function.update lengths (row * (right.length + 1) + column)
      (cell lines opposite start right.length row lengths column)) := by
  intro one two inLeft inRight done
  by_cases same : one * (right.length + 1) + two = row * (right.length + 1) + column
  · obtain ⟨rfl, rfl⟩ := position_inj inRight (Nat.lt_succ_of_lt inColumns) same
    rw [Function.update_self]
    exact cell_eq holds holds_ inRows inColumns filled
  · rw [Function.update_of_ne same]
    refine filled one two inLeft inRight ?_
    obtain later | ⟨here, from_⟩ | last := done
    · exact .inl later
    · have other : two ≠ column := fun equal => same (by rw [here, equal])
      exact .inr (.inl ⟨here, by omega⟩)
    · exact .inr (.inr last)

theorem filled_row (inRows : row < left.length) : ∀ (column : Nat) (lengths : Nat → Nat), column ≤ right.length →
    Filled left right row column lengths →
    Filled left right row 0 (fillRow lines opposite start right.length row column lengths)
  | 0, _, _, filled => filled
  | column + 1, lengths, inColumns, filled =>
      filled_row inRows column _ (Nat.le_of_lt inColumns) (filled_cell holds holds_ inRows inColumns filled)

theorem filled_rows : ∀ (row : Nat) (lengths : Nat → Nat), row ≤ left.length → Filled left right row 0 lengths →
    Filled left right 0 0 (fillRows lines opposite start right.length row lengths)
  | 0, _, _, filled => filled
  | row + 1, lengths, inRows, filled => by
      refine filled_rows row _ (Nat.le_of_lt inRows) (filled_row holds holds_ inRows right.length lengths (Nat.le_refl _) ?_)
      intro one two inLeft inRight done
      refine filled one two inLeft inRight ?_
      omega

/-- Every cell of the table is the longest common length of what is left of both blocks. -/
theorem lengths_eq {one two : Nat} (inLeft : one ≤ left.length) (inRight : two ≤ right.length) :
    fillRows lines opposite start right.length left.length (fun _ => 0) (one * (right.length + 1) + two) =
      commonLength (left.drop one) (right.drop two) := by
  refine filled_rows holds holds_ left.length _ (Nat.le_refl _) ?_ one two inLeft inRight (by omega)
  intro one two inLeft inRight done
  obtain last | last : one = left.length ∨ two = right.length := by omega
  · rw [last, List.drop_length, commonLength]
  · rw [last, List.drop_length, commonLength_nil_right]

/-- Enough turns take the walk to the end of a block, and what it finds is the alignment. -/
theorem walk_eq : ∀ (turns row column : Nat), row ≤ left.length → column ≤ right.length →
    left.length - row + (right.length - column) ≤ turns →
    (walk lines opposite start left.length right.length
      (fillRows lines opposite start right.length left.length fun _ => 0) turns row column).map (fun index => lines[index]?) =
        (align (left.drop row) (right.drop column)).map some
  | 0, row, column, inLeft, inRight, enough => by
      have last : row = left.length := by omega
      rw [walk, last, List.drop_length, align]
      rfl
  | turns + 1, row, column, inLeft, inRight, enough => by
      rw [walk]
      by_cases inside : row < left.length ∧ column < right.length
      · obtain ⟨inRows, inColumns⟩ := inside
        obtain ⟨line, here, drop⟩ := drop_of_block holds inRows
        obtain ⟨line_, here_, drop_⟩ := drop_of_block holds_ inColumns
        have further : column + 1 ≤ right.length := inColumns
        have deeper : row + 1 ≤ left.length := inRows
        have below := lengths_eq holds holds_ deeper (Nat.le_of_lt inColumns)
        have beside := lengths_eq holds holds_ (Nat.le_of_lt inRows) further
        rw [← Nat.add_assoc] at beside
        rw [if_pos ⟨inRows, inColumns⟩, below, beside]
        by_cases same : line = line_
        · rw [here, here_, if_pos (congrArg some same), List.map_cons, here, drop, drop_, align, if_pos same, List.map_cons,
            walk_eq turns (row + 1) (column + 1) inRows inColumns (by omega)]
        · have different : lines[start + row]? ≠ opposite[start + column]? := by
            rw [here, here_]
            exact fun equal => same (Option.some.inj equal)
          rw [if_neg different, drop, drop_, align, if_neg same]
          split
          next least => rw [walk_eq turns (row + 1) column inRows (Nat.le_of_lt inColumns) (by omega), drop_]
          next more => rw [walk_eq turns row (column + 1) (Nat.le_of_lt inRows) inColumns (by omega), drop]
      · rw [if_neg inside, List.map_nil]
        obtain last | last : row = left.length ∨ column = right.length := by omega
        · rw [last, List.drop_length, align, List.map_nil]
        · have nothing : align (left.drop row) ([] : List Line) = [] := List.sublist_nil.mp (align_sublist _ _).2
          rw [last, List.drop_length, nothing, List.map_nil]

end Cells

/-- The walk only goes forward, inside its rows. -/
theorem walk_ascends {rows columns : Nat} : ∀ turns row column : Nat,
    (walk lines opposite start rows columns lengths turns row column).Pairwise (· < ·) ∧
      ∀ index ∈ walk lines opposite start rows columns lengths turns row column, start + row ≤ index ∧ index < start + rows
  | 0, row, column => ⟨.nil, fun _ never => by cases never⟩
  | turns + 1, row, column => by
      rw [walk]
      split
      next inside =>
        split
        next =>
          obtain ⟨ascends, within⟩ := walk_ascends turns (row + 1) (column + 1)
          refine ⟨List.pairwise_cons.mpr ⟨?_, ascends⟩, ?_⟩
          · intro index member
            have bound := within index member
            omega
          · intro index member
            obtain rfl | member := List.mem_cons.mp member
            · omega
            · have bound := within index member
              omega
        next =>
          split
          next =>
            obtain ⟨ascends, within⟩ := walk_ascends turns (row + 1) column
            refine ⟨ascends, ?_⟩
            intro index member
            have bound := within index member
            omega
          next => exact walk_ascends turns row (column + 1)
      next => exact ⟨.nil, fun _ never => by cases never⟩

end Dockge.GitUi
