import RobotPuzzle.Program.Block
import RobotPuzzle.World.Basic

/-!
# Levels

What a level gives the player: the grid with its tiles, where the robot starts, the commands that
may be used, how many blocks there may be, and what counts as a win.
-/

namespace RobotPuzzle

/-- How hard a level is said to be. -/
inductive Difficulty where
  | beginner
  | easy
  | medium
  | hard
  | expert
  deriving DecidableEq, Repr

instance : Word Difficulty where
  all := [.beginner, .easy, .medium, .hard, .expert]
  spelling
    | .beginner => "beginner"
    | .easy => "easy"
    | .medium => "medium"
    | .hard => "hard"
    | .expert => "expert"

instance : LawfulWord Difficulty := ⟨fun word => by cases word <;> decide +kernel⟩

/-- What counts as a win. -/
inductive Goal where
  | reachGoal
  | collectAll
  | collectAndReach
  deriving DecidableEq, Repr

namespace Goal

instance : Word Goal where
  all := [.reachGoal, .collectAll, .collectAndReach]
  spelling
    | .reachGoal => "reach_goal"
    | .collectAll => "collect_all"
    | .collectAndReach => "collect_and_reach"

instance : LawfulWord Goal := ⟨fun word => by cases word <;> decide +kernel⟩

/-- Whether the robot has to end on the goal tile. -/
def needsTile : Goal → Bool
  | .reachGoal | .collectAndReach => true
  | .collectAll => false

/-- Whether coins and gems have to be collected. -/
def needsTreasure : Goal → Bool
  | .reachGoal => false
  | .collectAll | .collectAndReach => true

end Goal

/-- A level. -/
structure Level where
  id : Int
  name : Text
  chapter : Int
  chapterName : Text
  description : Text
  difficulty : Difficulty
  size : GridSize
  tiles : Tiles
  start : Position
  facing : Direction
  commands : List Command
  maxBlocks : Int
  optimalBlocks : Option Int
  goal : Goal
  coinsRequired : Int
  gemsRequired : Int
  hints : List Text

namespace Level

/-- The number of blocks that a best solution takes: the block budget, unless the level says. -/
def optimal (level : Level) : Int := level.optimalBlocks.getD level.maxBlocks

/-- Whether the player may use a command: the level lists it, or lists its opener. -/
def allows (level : Level) (command : Command) : Bool :=
  level.commands.contains command ||
    level.commands.any fun opener => opener.partners.contains command

/-- The commands that the player may use. -/
def allowed (level : Level) : List Command :=
  Word.all.filter level.allows

/-- The world that a run starts in: doors are closed and the robot is at the start. -/
def initialWorld (level : Level) : World :=
  ⟨level.size, level.tiles.atStart, Robot.fresh level.start level.facing⟩

/-- Whether the robot has what the level asks for. -/
def hasTreasure (level : Level) (robot : Robot) : Bool :=
  level.coinsRequired ≤ robot.coins && level.gemsRequired ≤ robot.gems

/-- Whether a world meets the level's goal. -/
def isMetBy (level : Level) (world : World) : Bool :=
  (!level.goal.needsTile || world.tiles.goal?.any (·.position == world.robot.position)) &&
    (!level.goal.needsTreasure || level.hasTreasure world.robot)

end Level

end RobotPuzzle
