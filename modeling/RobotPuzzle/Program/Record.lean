import RobotPuzzle.Program.Block
import RobotPuzzle.Record.Field

/-!
# Records of blocks

The JSON record of a block, how it is checked, and the short form in which a program is listed.
-/

namespace RobotPuzzle

namespace Block

/-- The count of a loop as JSON. -/
def valueJson (b : Block) : Json := Json.orNull (fun r => .int r.count) b.value

/-- The record of a block. -/
def toJson (b : Block) : Json :=
  .obj [("type", .str (Word.spelling b.command)), ("instance_id", .str b.id),
    ("nest_level", .int b.nest), ("value", b.valueJson)]

/-- A block in a listing: command, id, depth and count. -/
def toRow (b : Block) : Json :=
  .arr [.str (Word.spelling b.command), .str b.id, .int b.nest, b.valueJson]

/-- Checks the record of a block. -/
def check : Field.Check Block := Field.record fun f =>
  mk <$> f.required "type" Field.word
    <*> f.required "instance_id" Field.text
    <*> (Int.toNat <$> f.optional "nest_level" 0 (Field.atLeast 0))
    <*> (Option.map Repeats.clamp <$> f.optional "value" none (Field.nullable (Field.between 1 10)))

end Block

end RobotPuzzle
