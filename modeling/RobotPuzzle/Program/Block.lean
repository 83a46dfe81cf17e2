import RobotPuzzle.Text.Quoted
import RobotPuzzle.Word

/-!
# Command blocks

A program is a flat list of blocks. Loops and conditions are written with marker blocks that open
and close them.

* `Repeats.count_clamp_of_le`: a count from one to ten is kept.
* `Block.one_le_repeats`: a loop runs at least once.
-/

namespace RobotPuzzle

/-- What a block tells the robot to do. -/
inductive Command where
  | moveForward
  | moveBackward
  | turnLeft
  | turnRight
  | jump
  | wait
  | interact
  | loopStart
  | loopEnd
  | ifStart
  | ifElse
  | ifEnd
  deriving DecidableEq, Repr

namespace Command

instance : Word Command where
  all :=
    [.moveForward, .moveBackward, .turnLeft, .turnRight, .jump, .wait, .interact, .loopStart,
      .loopEnd, .ifStart, .ifElse, .ifEnd]
  spelling
    | .moveForward => "move_forward"
    | .moveBackward => "move_backward"
    | .turnLeft => "turn_left"
    | .turnRight => "turn_right"
    | .jump => "jump"
    | .wait => "wait"
    | .interact => "interact"
    | .loopStart => "loop_start"
    | .loopEnd => "loop_end"
    | .ifStart => "if_start"
    | .ifElse => "if_else"
    | .ifEnd => "if_end"

instance : LawfulWord Command := ⟨fun word => by cases word <;> decide +kernel⟩

/-- Whether the command only marks a loop or a condition. -/
def isMarker : Command → Bool
  | .loopStart | .loopEnd | .ifStart | .ifElse | .ifEnd => true
  | _ => false

/-- Whether what follows stands further in. -/
def isOpener : Command → Bool
  | .loopStart | .ifStart => true
  | _ => false

/-- Whether the command ends what an opener began. -/
def isCloser : Command → Bool
  | .loopEnd | .ifEnd => true
  | _ => false

/-- The markers that may be used wherever the command may be used. -/
def partners : Command → List Command
  | .loopStart => [.loopEnd]
  | .ifStart => [.ifElse, .ifEnd]
  | _ => []

end Command

/-- How often a loop runs: from one to ten times. -/
structure Repeats where
  count : Nat
  one_le_count : 1 ≤ count
  count_le_ten : count ≤ 10
  deriving DecidableEq, Repr

namespace Repeats

/-- The count of a loop that does not say how often it runs. -/
def standard : Repeats := ⟨2, by decide, by decide⟩

/-- The count nearest to a number. -/
def clamp (n : Int) : Repeats :=
  ⟨max 1 (min 10 n.toNat), by omega, by omega⟩

theorem count_clamp (n : Int) : ((clamp n).count : Int) = max 1 (min 10 n) := by
  simp only [clamp]; omega

/-- A number from one to ten is its own count. -/
theorem count_clamp_of_le {n : Int} (h : 1 ≤ n) (h' : n ≤ 10) : ((clamp n).count : Int) = n := by
  rw [count_clamp]; omega

end Repeats

/-- A block that the player has placed. -/
structure Block where
  command : Command
  id : Text
  /-- How far in the block is shown. -/
  nest : Nat
  /-- How often a loop runs, where a block says so. -/
  value : Option Repeats
  deriving DecidableEq, Repr

namespace Block

/-- How often the loop that the block starts runs. -/
def repeats (b : Block) : Nat := (b.value.getD .standard).count

/-- The id of the block that is placed as the `n`-th one. -/
def freshId (n : Nat) : Text := Text.hex 8 n

/-- A new block, placed as the `n`-th one. -/
def fresh (n : Nat) (command : Command) : Block :=
  { command, id := freshId n, nest := 0
    value := if command = .loopStart then some .standard else none }

theorem one_le_repeats (b : Block) : 1 ≤ b.repeats := (b.value.getD .standard).one_le_count

end Block

end RobotPuzzle
