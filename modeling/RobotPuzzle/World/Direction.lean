import RobotPuzzle.Word

/-!
# Directions

The four ways that the robot can face. Turning walks the cycle up, right, down, left.

* `turnLeft_turnRight`, `turnRight_turnLeft`: the two turns undo each other.
* `turnRight_turnRight`: two turns are a reversal.
* `delta_turnRight`: turning right turns the step `(row, col)` into `(col, -row)`.
-/

namespace RobotPuzzle

/-- Where the robot faces. -/
inductive Direction where
  | up
  | right
  | down
  | left
  deriving DecidableEq, Repr

namespace Direction

instance : Word Direction where
  all := [.up, .right, .down, .left]
  spelling
    | .up => "up"
    | .right => "right"
    | .down => "down"
    | .left => "left"

instance : LawfulWord Direction := ⟨fun word => by cases word <;> decide +kernel⟩

/-- The rows and columns of one step ahead. Rows grow downwards. -/
def delta : Direction → Int × Int
  | .up => (-1, 0)
  | .right => (0, 1)
  | .down => (1, 0)
  | .left => (0, -1)

/-- A quarter turn clockwise. -/
def turnRight : Direction → Direction
  | .up => .right
  | .right => .down
  | .down => .left
  | .left => .up

/-- A quarter turn anticlockwise. -/
def turnLeft : Direction → Direction
  | .up => .left
  | .left => .down
  | .down => .right
  | .right => .up

/-- The opposite direction. -/
def reverse : Direction → Direction
  | .up => .down
  | .down => .up
  | .left => .right
  | .right => .left

theorem turnLeft_turnRight (d : Direction) : d.turnRight.turnLeft = d := by cases d <;> rfl

theorem turnRight_turnLeft (d : Direction) : d.turnLeft.turnRight = d := by cases d <;> rfl

theorem turnRight_turnRight (d : Direction) : d.turnRight.turnRight = d.reverse := by
  cases d <;> rfl

theorem delta_turnRight (d : Direction) : d.turnRight.delta = (d.delta.2, -d.delta.1) := by
  cases d <;> rfl

end Direction

end RobotPuzzle
