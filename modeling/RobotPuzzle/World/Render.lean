import RobotPuzzle.World.Basic

/-!
# Drawing a world

A world is drawn as one line of text for each row of the grid, with a symbol for each cell: the
robot as an arrow, an open door as `d`, any other tile as the symbol of its kind, a hole as `?`.

* `length_lines`: there are as many lines as rows.
* `length_cells`: each line has as many cells as there are columns.
-/

namespace RobotPuzzle

/-- The symbol of each tile kind. -/
abbrev Symbols := TileKind → Text

namespace Symbols

/-- The usual symbols. -/
def standard : Symbols
  | .empty => " "
  | .floor => "."
  | .wall => "#"
  | .start => "S"
  | .goal => "G"
  | .coin => "o"
  | .gem => "*"
  | .spike => "^"
  | .pit => "x"
  | .button => "b"
  | .door => "D"

/-- Other symbols for some kinds; the last one given for a kind counts. -/
def replace (symbols : Symbols) (changes : List (TileKind × Text)) : Symbols :=
  changes.foldl (fun symbols (kind, symbol) k => if k = kind then symbol else symbols k) symbols

end Symbols

namespace Direction

/-- The robot's symbol, an arrow to where it faces. -/
def arrow : Direction → String
  | .up => "A"
  | .right => ">"
  | .down => "V"
  | .left => "<"

end Direction

namespace World

/-- The symbol of a tile, or of a hole. -/
def tileSymbol (symbols : Symbols) : Option Tile → Text
  | none => "?"
  | some t => if t.kind = .door ∧ t.active.truthy = true then "d" else symbols t.kind

/-- The symbol of a cell. -/
def cellSymbol (w : World) (symbols : Symbols) (showRobot : Bool) (p : Position) : Text :=
  if showRobot && w.robot.position == p then w.robot.direction.arrow
  else tileSymbol symbols (w.tiles.at? p)

/-- The symbols of a row, from left to right. -/
def cells (w : World) (symbols : Symbols) (showRobot : Bool) (row : Nat) : List Text :=
  (List.range w.size.cols.toNat).map fun col : Nat => w.cellSymbol symbols showRobot ⟨row, col⟩

/-- The lines of a drawing, from top to bottom. -/
def lines (w : World) (symbols : Symbols) (showRobot : Bool) : List Text :=
  (List.range w.size.rows.toNat).map fun row => (w.cells symbols showRobot row).flatten

/-- The drawing of a world. -/
def render (w : World) (symbols : Symbols) (showRobot : Bool) : Text :=
  Text.joinWith "\n" (w.lines symbols showRobot)

/-- The drawing of a world with the usual symbols and the robot. -/
def picture (w : World) : Text :=
  w.render Symbols.standard true

theorem length_lines (w : World) (symbols : Symbols) (showRobot : Bool) :
    (w.lines symbols showRobot).length = w.size.rows.toNat := by
  simp [lines]

theorem length_cells (w : World) (symbols : Symbols) (showRobot : Bool) (row : Nat) :
    (w.cells symbols showRobot row).length = w.size.cols.toNat := by
  simp [cells]

end World

end RobotPuzzle
