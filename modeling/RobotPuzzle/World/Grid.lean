/-!
# Cells and the grid

A cell is named by its row and column, counted from the top left corner. The grid is the rectangle
of cells that a level plays on.

* `GridSize.has_iff`: which cells the grid has.
-/

namespace RobotPuzzle

/-- A cell, by row and column. Row zero is the top row. -/
structure Position where
  row : Int
  col : Int
  deriving DecidableEq, Repr

namespace Position

/-- The cell some rows below and some columns to the right. -/
def offset (p : Position) (rows cols : Int) : Position := ⟨p.row + rows, p.col + cols⟩

theorem offset_offset (p : Position) (r c r' c' : Int) :
    (p.offset r c).offset r' c' = p.offset (r + r') (c + c') := by
  simp [offset, Int.add_assoc]

end Position

/-- The extent of a grid. -/
structure GridSize where
  rows : Int
  cols : Int
  deriving DecidableEq, Repr

namespace GridSize

/-- Whether a cell belongs to the grid. -/
def has (size : GridSize) (p : Position) : Bool :=
  0 ≤ p.row && p.row < size.rows && 0 ≤ p.col && p.col < size.cols

theorem has_iff {size : GridSize} {p : Position} :
    size.has p = true ↔ (0 ≤ p.row ∧ p.row < size.rows) ∧ 0 ≤ p.col ∧ p.col < size.cols := by
  simp [has, and_assoc]

end GridSize

end RobotPuzzle
