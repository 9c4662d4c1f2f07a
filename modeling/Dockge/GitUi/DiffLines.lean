import Mathlib
import Dockge.Data.Subsequence

namespace Dockge.GitUi

open Data

/-! The two panes a changed file is compared in. -/

abbrev Line := List Char

structure DiffRow where
  text : Line
  changed : Bool
deriving DecidableEq

def maximumCells : Nat := 250000

section Table

variable (lines opposite : List Line) (start columns row : Nat)

def cell (lengths : Nat → Nat) (column : Nat) : Nat :=
  if lines[start + row]? = opposite[start + column]? then 1 + lengths ((row + 1) * (columns + 1) + column + 1)
  else max (lengths ((row + 1) * (columns + 1) + column)) (lengths (row * (columns + 1) + column + 1))

/-- One row of the table, from its last column -/
def fillRow : Nat → (Nat → Nat) → Nat → Nat
  | 0, lengths => lengths
  | column + 1, lengths =>
      fillRow column (Function.update lengths (row * (columns + 1) + column)
        (cell lines opposite start columns row lengths column))

end Table

def fillRows (lines opposite : List Line) (start columns : Nat) : Nat → (Nat → Nat) → Nat → Nat
  | 0, lengths => lengths
  | row + 1, lengths => fillRows lines opposite start columns row (fillRow lines opposite start columns row columns lengths)

/-- The walk through the table; each of its turns leaves a row or a column behind. -/
def walk (lines opposite : List Line) (start rows columns : Nat) (lengths : Nat → Nat) : Nat → Nat → Nat → List Nat
  | 0, _, _ => []
  | turns + 1, row, column =>
      if row < rows ∧ column < columns then
        if lines[start + row]? = opposite[start + column]? then
          (start + row) :: walk lines opposite start rows columns lengths turns (row + 1) (column + 1)
        else if lengths ((row + 1) * (columns + 1) + column) ≥ lengths (row * (columns + 1) + column + 1) then
          walk lines opposite start rows columns lengths turns (row + 1) column
        else walk lines opposite start rows columns lengths turns row (column + 1)
      else []

def matchedLines (lines opposite : List Line) (start rows columns : Nat) : List Nat :=
  if rows = 0 ∨ columns = 0 ∨ (rows + 1) * (columns + 1) > maximumCells then []
  else
    walk lines opposite start rows columns (fillRows lines opposite start columns rows fun _ => 0) (rows + columns) 0 0

/-- How many rows and columns are left once the shared end is taken off -/
def trimEnd (lines opposite : List Line) (start : Nat) : Nat → Nat → Nat × Nat
  | rows + 1, columns + 1 =>
      if lines[start + rows]? = opposite[start + columns]? then trimEnd lines opposite start rows columns
      else (rows + 1, columns + 1)
  | rows, columns => (rows, columns)

/-- The first line two texts differ at, and how many rows and columns they differ in -/
def changedBlock (lines opposite : List Line) : Nat × Nat × Nat :=
  (sharedStart lines opposite,
    trimEnd lines opposite (sharedStart lines opposite) (lines.length - sharedStart lines opposite)
      (opposite.length - sharedStart lines opposite))

def linesOf (text : List Char) : List Line := text.splitOn '\n'

def joinLines (lines : List Line) : List Char := ['\n'].intercalate lines

def diffLineRows (source other : Option (List Char)) : List DiffRow :=
  match source with
  | none => []
  | some source =>
      let lines := linesOf source
      let opposite := (other.map linesOf).getD []
      let (start, rows, columns) := changedBlock lines opposite
      let unchanged := matchedLines lines opposite start rows columns
      lines.mapIdx fun index text =>
        { text, changed := decide (start ≤ index) && decide (index < start + rows) && !unchanged.contains index }

def unchangedLines (rows : List DiffRow) : List Line := (rows.filter fun row => !row.changed).map DiffRow.text

def WithinLimit (lines opposite : List Line) : Prop :=
  ((changedBlock lines opposite).2.1 + 1) * ((changedBlock lines opposite).2.2 + 1) ≤ maximumCells

example : diffLineRows (some "a\nb\nc".toList) (some "a\nx\nc".toList) =
    [⟨['a'], false⟩, ⟨['b'], true⟩, ⟨['c'], false⟩] := by decide

end Dockge.GitUi
