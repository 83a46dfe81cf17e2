import RobotPuzzle.Level.Basic

/-!
# Executing one instruction

What one instruction does to the robot and the tiles. Nothing is changed in place: an execution
returns the robot afterwards and the tile changes that go with it, and whoever asked commits them.

A move or a jump lands on a cell. A coin or a gem there is picked up and becomes floor, a button
opens the first door that is left and makes it floor, a spike hurts. A jump looks only at the cell
that it lands on, and never lands on a spike. Interacting with a button that the robot faces toggles
the first door that is left. Markers do nothing.

* `Step.energy_execute`: no instruction costs energy.
* `Step.length_executeAll`: each of some blocks that are executed in turn has its step.
-/

namespace RobotPuzzle

/-- What an instruction does. -/
structure Effect where
  robot : Robot
  changes : List TileChange
  message : Text
  success : Bool
  deriving DecidableEq, Repr

namespace Effect

/-- The robot is as given, and nothing else happens. -/
def quiet (robot : Robot) : Effect := ⟨robot, [], "", true⟩

/-- The instruction fails with a message. -/
def failure (robot : Robot) (message : Text) : Effect := ⟨robot, [], message, false⟩

end Effect

/-- What the player is told. -/
structure Messages where
  spike : Text
  blockedForward : Text
  blockedBackward : Text
  blockedJump : Text
  coin : Text
  gem : Text
  doorForGood : Text
  doorOpened : Text
  doorClosed : Text

/-- The wording of the messages. -/
def messages : Messages where
  spike := "Ouch! Hit a spike!"
  blockedForward := "Cannot move forward - blocked!"
  blockedBackward := "Cannot move backward - blocked!"
  blockedJump := "Cannot jump there!"
  coin := "Picked up a coin!"
  gem := "Picked up a gem!"
  doorForGood := "A door opened!"
  doorOpened := "The door opened!"
  doorClosed := "The door closed!"

namespace Robot

/-- What happens where the robot, already on its new cell, has landed. -/
def land (robot : Robot) (tiles : Tiles) : Effect :=
  match tiles.at? robot.position with
  | none => .quiet robot
  | some tile =>
    match tile.kind with
    | .spike => .failure robot messages.spike
    | .coin =>
      ⟨{ robot with coins := robot.coins + 1 }, [.toFloor tile.id], messages.coin, true⟩
    | .gem => ⟨{ robot with gems := robot.gems + 1 }, [.toFloor tile.id], messages.gem, true⟩
    | .button =>
      match tiles.doorOf? (some tile) with
      | some door => ⟨robot, [⟨door.id, some .floor, some true⟩], messages.doorForGood, true⟩
      | none => .quiet robot
    | _ => .quiet robot

/-- A move by some cells ahead, one or minus one. -/
def walk (robot : Robot) (size : GridSize) (tiles : Tiles) (steps : Int) (blocked : Text) :
    Effect :=
  let target := robot.cellAhead steps
  if tiles.canEnter size target then
    { robot with position := target, moving := true }.land tiles
  else .failure robot blocked

/-- A jump over the next cell. -/
def jump (robot : Robot) (size : GridSize) (tiles : Tiles) : Effect :=
  let target := robot.cellAhead 2
  let onSpike := (tiles.at? target).any (·.kind == .spike)
  if tiles.canEnter size target && !onSpike then
    { robot with position := target, jumping := true }.land tiles
  else .failure robot messages.blockedJump

/-- Pressing the button that the robot faces. -/
def interact (robot : Robot) (tiles : Tiles) : Effect :=
  match tiles.at? (robot.cellAhead 1) with
  | none => .quiet robot
  | some faced =>
    if faced.kind = .button then
      match tiles.doorOf? (some faced) with
      | none => .quiet robot
      | some door =>
        let opens := !door.active.truthy
        ⟨robot, [⟨door.id, none, some opens⟩],
          if opens then messages.doorOpened else messages.doorClosed, true⟩
    else .quiet robot

/-- What a command does to a settled robot. -/
def obey (robot : Robot) (size : GridSize) (tiles : Tiles) : Command → Effect
  | .moveForward => robot.walk size tiles 1 messages.blockedForward
  | .moveBackward => robot.walk size tiles (-1) messages.blockedBackward
  | .turnLeft => .quiet { robot with direction := robot.direction.turnLeft }
  | .turnRight => .quiet { robot with direction := robot.direction.turnRight }
  | .jump => robot.jump size tiles
  | .interact => robot.interact tiles
  | .wait | .loopStart | .loopEnd | .ifStart | .ifElse | .ifEnd => .quiet robot

theorem energy_land (robot : Robot) (tiles : Tiles) :
    (robot.land tiles).robot.energy = robot.energy := by
  unfold land
  repeat' split
  all_goals rfl

theorem energy_obey (robot : Robot) (size : GridSize) (tiles : Tiles) (command : Command) :
    (robot.obey size tiles command).robot.energy = robot.energy := by
  cases command <;> simp only [obey, walk, jump, interact, Effect.quiet, Effect.failure]
  all_goals repeat' split
  all_goals first | rfl | exact energy_land _ _

end Robot

/-- One executed instruction: which block it was, and what it did. On a failure the robot is the one
that the player should see, unmoved or standing on the spike. -/
structure Step where
  blockId : Text
  command : Command
  robot : Robot
  changes : List TileChange
  message : Text
  success : Bool
  isLast : Bool
  deriving DecidableEq, Repr

namespace Step

/-- Executes a block for a robot among tiles. -/
def execute (block : Block) (robot : Robot) (tiles : Tiles) (size : GridSize) : Step :=
  let effect := robot.settled.obey size tiles block.command
  { blockId := block.id, command := block.command, robot := effect.robot, changes := effect.changes
    message := effect.message, success := effect.success, isLast := false }

/-- The world after a step. A failed step changes no tiles but leaves its robot to be seen. -/
def commit (step : Step) (world : World) : World :=
  { world with tiles := world.tiles.apply step.changes, robot := step.robot }

/-- Executes blocks one after the other, whether they fail or not, and returns the steps and the
world after them. -/
def executeAll (world : World) : List Block → List Step × World
  | [] => ([], world)
  | block :: rest =>
    let step := execute block world.robot world.tiles world.size
    let (more, last) := executeAll (step.commit world) rest
    (step :: more, last)

theorem length_executeAll (world : World) (blocks : List Block) :
    (executeAll world blocks).1.length = blocks.length := by
  induction blocks generalizing world with
  | nil => rfl
  | cons block rest ih => simp [executeAll, ih]

theorem energy_execute (block : Block) (robot : Robot) (tiles : Tiles) (size : GridSize) :
    (execute block robot tiles size).robot.energy = robot.energy :=
  Robot.energy_obey robot.settled size tiles block.command

end Step

end RobotPuzzle
