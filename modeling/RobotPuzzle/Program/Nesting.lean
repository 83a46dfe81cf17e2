import RobotPuzzle.Program.Block

/-!
# Nesting

How far in each block of a program is shown. An opener stands at the depth it was met at and what
follows one step further in, a closer steps out again, and an `if_else` lines up with its
`if_start`. A closer without an opener stays at depth zero.

* `length_nested`, `map_id_nested`: nesting keeps the blocks and their order.
-/

namespace RobotPuzzle

namespace Nesting

/-- The depth at which a command is shown, and the depth behind it, when it is met at `depth`. -/
def step (depth : Nat) (command : Command) : Nat × Nat :=
  if command.isCloser then (depth - 1, depth - 1)
  else if command = .ifElse then (depth - 1, depth)
  else (depth, if command.isOpener then depth + 1 else depth)

/-- Shows blocks from a depth on. -/
def nestFrom (depth : Nat) : List Block → List Block
  | [] => []
  | b :: rest =>
    let (shown, behind) := step depth b.command
    { b with nest := shown } :: nestFrom behind rest

/-- Shows a whole program. -/
def nested (blocks : List Block) : List Block := nestFrom 0 blocks

theorem length_nestFrom (depth : Nat) (blocks : List Block) :
    (nestFrom depth blocks).length = blocks.length := by
  induction blocks generalizing depth with
  | nil => rfl
  | cons b rest ih => simp [nestFrom, ih]

theorem length_nested (blocks : List Block) : (nested blocks).length = blocks.length :=
  length_nestFrom 0 blocks

theorem map_id_nestFrom (depth : Nat) (blocks : List Block) :
    (nestFrom depth blocks).map Block.id = blocks.map Block.id := by
  induction blocks generalizing depth with
  | nil => rfl
  | cons b rest ih => simp [nestFrom, ih]

theorem map_id_nested (blocks : List Block) : (nested blocks).map Block.id = blocks.map Block.id :=
  map_id_nestFrom 0 blocks

end Nesting

end RobotPuzzle
