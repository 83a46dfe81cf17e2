import RobotPuzzle.World.Direction
import RobotPuzzle.World.Tile

/-!
# The world of a run

The robot, and the snapshot of grid, tiles and robot that a run carries along.
-/

namespace RobotPuzzle

/-- The robot that a program drives. -/
structure Robot where
  position : Position
  direction : Direction
  jumping : Bool
  moving : Bool
  coins : Int
  gems : Int
  energy : Int
  deriving DecidableEq, Repr

namespace Robot

/-- A robot that has not moved yet, with empty pockets and full energy. -/
def fresh (position : Position) (direction : Direction) : Robot :=
  ⟨position, direction, false, false, 0, 0, 100⟩

/-- The robot between two instructions: the marks of the last motion are gone. -/
def settled (r : Robot) : Robot := { r with moving := false, jumping := false }

/-- The cell some steps ahead; a negative number counts backwards. -/
def cellAhead (r : Robot) (steps : Int) : Position :=
  r.position.offset (r.direction.delta.1 * steps) (r.direction.delta.2 * steps)

theorem cellAhead_zero (r : Robot) : r.cellAhead 0 = r.position := by
  simp [cellAhead, Position.offset]

end Robot

/-- A snapshot of a run. -/
structure World where
  size : GridSize
  tiles : Tiles
  robot : Robot

end RobotPuzzle
