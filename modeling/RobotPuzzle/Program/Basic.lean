import RobotPuzzle.Fault
import RobotPuzzle.Numeral.Binary
import RobotPuzzle.Program.Nesting

/-!
# Programs

The program that a player puts together for a level, and the edits of it. An edit that the level's
rules do not allow changes nothing. After every edit that moves blocks the nesting is shown anew.

* `add_of_not_accepts`: a block that the level refuses changes nothing.
-/

namespace RobotPuzzle

/-- The place that an edit names for a block. -/
inductive Spot where
  /-- No place is named. -/
  | unnamed
  | index (i : Int)
  /-- A double, which is a place only where a bound takes its stead. -/
  | real (x : Float)
  /-- A value that is no number. -/
  | other
  deriving DecidableEq, Repr

namespace Spot

/-- The place that a JSON value names. -/
def ofJson : Json → Spot
  | .null => .unnamed
  | .int n => .index n
  | .bool b => .index (if b then 1 else 0)
  | .real x => .real x
  | .str _ | .arr _ | .obj _ => .other

/-- Indices stay below this bound, `2 ^ 63`. -/
def indexRange : Int := 0x8000000000000000

/-- Where to insert among `n` blocks: at the end if no place is named or it lies behind the end, and
at the front if it lies before it. -/
def insertion (s : Spot) (n : Nat) : Except Fault Nat :=
  match s with
  | .unnamed => .ok n
  | .index i => if i < indexRange then .ok (min i.toNat n) else .error .tooLarge
  | .real x => if 0.0 < x then .error .wrongKind else .ok 0
  | .other => .error .wrongKind

/-- The place among `n` other blocks that is nearest to the named one. -/
def nearest (s : Spot) (n : Nat) : Except Fault Nat :=
  match s with
  | .index i => .ok (min i.toNat n)
  | .real x =>
    if Float.ofNat n < x then .ok n else if 0.0 < x then .error .wrongKind else .ok 0
  | .unnamed | .other => .error .wrongKind

/-- An insertion is never behind the end. -/
theorem le_of_insertion {s : Spot} {n i : Nat} (h : s.insertion n = .ok i) : i ≤ n := by
  unfold insertion at h
  repeat' split at h
  all_goals first | contradiction | (cases h; omega)

end Spot

/-- A program for a level. -/
structure Program where
  level : Level
  blocks : List Block

namespace Program

open Nesting

/-- A program of given blocks. -/
def ofBlocks (level : Level) (blocks : List Block) : Program := ⟨level, nested blocks⟩

/-- The empty program. -/
def empty (level : Level) : Program := ofBlocks level []

/-- How many blocks may still be placed. -/
def remaining (p : Program) : Int := max 0 (p.level.maxBlocks - p.blocks.length)

/-- Whether the block budget is used up. -/
def isFull (p : Program) : Bool := p.level.maxBlocks ≤ p.blocks.length

/-- The block with an id. -/
def find? (p : Program) (id : Text) : Option Block := p.blocks.find? (·.id == id)

/-- Whether a block with the command may be placed. -/
def accepts (p : Program) (command : Command) : Bool := !p.isFull && p.level.allows command

/-- The program with its blocks replaced. -/
def withBlocks (p : Program) (blocks : List Block) : Program := { p with blocks := nested blocks }

/-- Places a block, the `n`-th one of all, and returns it as it stands in the program; none if it is
not accepted. -/
def add (p : Program) (command : Command) (spot : Spot) (n : Nat) :
    Except Fault (Option Block × Program) :=
  if p.accepts command then do
    let i ← spot.insertion p.blocks.length
    let block := Block.fresh n command
    let p := p.withBlocks (p.blocks.insertIdx i block)
    pure (p.find? block.id, p)
  else .ok (none, p)

/-- Removes the blocks with an id; false if there are none. -/
def remove (p : Program) (id : Text) : Bool × Program :=
  if p.blocks.any (·.id == id) then (true, p.withBlocks (p.blocks.filter (·.id != id)))
  else (false, p)

/-- Moves a block to a place; false if there is no block with the id. -/
def move (p : Program) (id : Text) (spot : Spot) : Except Fault (Bool × Program) :=
  match p.blocks.findIdx? (·.id == id), p.find? id with
  | some i, some block => do
    let others := p.blocks.eraseIdx i
    let j ← spot.nearest others.length
    pure (true, p.withBlocks (others.insertIdx j block))
  | _, _ => .ok (false, p)

/-- Sets how often a loop runs, from one to ten times; false if the id is that of no loop. -/
def setRepeats (p : Program) (id : Text) (count : Except Fault Int) :
    Except Fault (Bool × Program) :=
  match p.find? id with
  | none => .ok (false, p)
  | some block =>
    if block.command = .loopStart then do
      let value := some (Repeats.clamp (← count))
      let set (b : Block) : Block := if b.id = id then { b with value } else b
      pure (true, { p with blocks := p.blocks.map set })
    else .ok (false, p)

/-- Removes all blocks. -/
def clear (p : Program) : Program := { p with blocks := [] }

theorem add_of_not_accepts {p : Program} {command : Command} (h : p.accepts command = false)
    (spot : Spot) (n : Nat) : p.add command spot n = .ok (none, p) := by
  simp [add, h]

end Program

end RobotPuzzle
