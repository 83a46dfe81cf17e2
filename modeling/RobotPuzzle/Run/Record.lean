import RobotPuzzle.Run.Basic
import RobotPuzzle.World.Record

/-!
# Records of runs

The JSON records of steps, outcomes and reports, and how steps and outcomes are checked.
-/

namespace RobotPuzzle

namespace Step

/-- The record of a step. -/
def toJson (s : Step) : Json :=
  .obj [("command_id", .str s.blockId), ("command_type", .str (Word.spelling s.command)),
    ("robot", s.robot.toJson), ("tile_changes", .arr (s.changes.map TileChange.toJson)),
    ("message", .str s.message), ("success", .bool s.success), ("is_last_step", .bool s.isLast)]

/-- Checks the record of a step. -/
def check : Field.Check Step := Field.record fun f =>
  mk <$> f.required "command_id" Field.text
    <*> f.required "command_type" Field.word
    <*> f.required "robot" Robot.check
    <*> f.optional "tile_changes" [] (Field.list TileChange.check)
    <*> f.optional "message" "" Field.text
    <*> f.optional "success" true Field.boolean
    <*> f.optional "is_last_step" false Field.boolean

end Step

namespace Outcome

/-- The record of an outcome. -/
def toJson (o : Outcome) : Json :=
  .obj [("level_id", .int o.levelId), ("completed", .bool o.completed), ("stars", .int o.stars),
    ("blocks_used", .int o.blocksUsed), ("optimal_blocks", .int o.optimalBlocks),
    ("coins_collected", .int o.coins), ("gems_collected", .int o.gems), ("steps", .int o.steps),
    ("time_spent", .int o.time), ("score", .int o.score), ("xp_earned", .int o.xp),
    ("sparks_earned", .int o.sparks), ("is_perfect", .bool o.perfect),
    ("reason", Json.orNull .str o.reason)]

/-- Checks the record of an outcome. -/
def check : Field.Check Outcome := Field.record fun f =>
  mk <$> f.required "level_id" Field.integer
    <*> f.required "completed" Field.boolean
    <*> f.optional "stars" 0 (Field.between 0 3)
    <*> f.optional "blocks_used" 0 (Field.atLeast 0)
    <*> f.optional "optimal_blocks" 0 (Field.atLeast 0)
    <*> f.optional "coins_collected" 0 Field.integer
    <*> f.optional "gems_collected" 0 Field.integer
    <*> f.optional "steps" 0 (Field.atLeast 0)
    <*> f.optional "time_spent" 0 (Field.atLeast 0)
    <*> f.optional "score" 0 Field.integer
    <*> f.optional "xp_earned" 0 Field.integer
    <*> f.optional "sparks_earned" 0 Field.integer
    <*> f.optional "is_perfect" false Field.boolean
    <*> f.optional "reason" none (Field.nullable Field.text)

end Outcome

namespace Report

/-- Whether the run is over. -/
def isTerminal (r : Report) : Bool := r.outcome.isSome

/-- The record of a report. -/
def toJson (r : Report) : Json :=
  .obj [("step", Json.orNull Step.toJson r.step), ("result", Json.orNull Outcome.toJson r.outcome),
    ("terminal", .bool r.isTerminal)]

end Report

end RobotPuzzle
