import RobotPuzzle.Level.Basic
import RobotPuzzle.World.Record

/-!
# Records of levels

The JSON record of a level, and how it is checked. The tiles may also come from elsewhere, already
made: `checkWith` takes them as they are.
-/

namespace RobotPuzzle

namespace Level

/-- The record of a level. -/
def toJson (level : Level) : Json :=
  .obj [("id", .int level.id), ("name", .str level.name), ("chapter", .int level.chapter),
    ("chapter_name", .str level.chapterName), ("description", .str level.description),
    ("difficulty", .str (Word.spelling level.difficulty)), ("grid_size", level.size.toJson),
    ("tiles", level.tiles.toJson), ("start_position", level.start.toJson),
    ("start_direction", .str (Word.spelling level.facing)),
    ("available_commands", Json.words (level.commands.map Word.spelling)),
    ("max_blocks", .int level.maxBlocks), ("optimal_blocks", Json.orNull .int level.optimalBlocks),
    ("goal_type", .str (Word.spelling level.goal)), ("coins_required", .int level.coinsRequired),
    ("gems_required", .int level.gemsRequired), ("hints", Json.texts level.hints)]

/-- Checks the fields of a level whose tiles have been checked apart. -/
def checkWith (tiles : Checked Tiles) (f : Fields) : Checked Level :=
  mk <$> f.required "id" (Field.atLeast 1)
    <*> f.required "name" Field.text
    <*> f.optional "chapter" 1 Field.integer
    <*> f.optional "chapter_name" "" Field.text
    <*> f.optional "description" "" Field.text
    <*> f.optional "difficulty" .beginner Field.word
    <*> f.required "grid_size" GridSize.check
    <*> tiles
    <*> f.required "start_position" Position.check
    <*> f.optional "start_direction" .right Field.word
    <*> f.optional "available_commands" [] (Field.list Field.word)
    <*> f.required "max_blocks" (Field.atLeast 1)
    <*> f.optional "optimal_blocks" none (Field.nullable (Field.atLeast 1))
    <*> f.optional "goal_type" .reachGoal Field.word
    <*> f.optional "coins_required" 0 (Field.atLeast 0)
    <*> f.optional "gems_required" 0 (Field.atLeast 0)
    <*> f.optional "hints" [] (Field.list Field.text)

/-- Checks the record of a level. -/
def check : Field.Check Level := Field.record fun f =>
  checkWith (f.optional "tiles" [] (Field.list Tile.check)) f

end Level

end RobotPuzzle
