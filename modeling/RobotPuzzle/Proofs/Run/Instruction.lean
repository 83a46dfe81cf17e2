import RobotPuzzle.Run.Basic

/-!
# What an instruction can do

An instruction takes the robot to another cell, on which it lands, or leaves it where it is and says
why; it interacts with what the robot faces; or it does nothing to the tiles. What every instruction
keeps is proved by cases of these.

* `Robot.obeys`: the cases of an instruction.
* `Step.message_of_failure`: an instruction that fails says why.
-/

namespace RobotPuzzle

/-- Whether a command takes the robot to another cell. -/
def Command.lands : Command → Bool
  | .moveForward | .moveBackward | .jump => true
  | _ => false

/-- The cell that the robot landed on, if it did. -/
def Step.landing? (step : Step) : Option Position :=
  if step.success && step.command.lands then some step.robot.position else none

/-- What instructions that fail say. -/
def Messages.failures (m : Messages) : List Text :=
  [m.spike, m.blockedForward, m.blockedBackward, m.blockedJump]

namespace Robot

variable {robot : Robot} {tiles : Tiles}

/-- A robot that has the same coins and gems. -/
structure SameTreasure (robot robot' : Robot) : Prop where
  coins : robot'.coins = robot.coins
  gems : robot'.gems = robot.gems

/-- What a command can do to a robot among tiles. -/
inductive Obeys (robot : Robot) (tiles : Tiles) (command : Command) : Effect → Prop where
  | lands (robot' : Robot) (hcommand : command.lands = true) (hsame : robot.SameTreasure robot') :
      Obeys robot tiles command (robot'.land tiles)
  | blocked (message : Text) (hcommand : command.lands = true)
      (hmessage : message ∈ messages.failures) :
      Obeys robot tiles command (.failure robot message)
  | interacts (hcommand : command = .interact) :
      Obeys robot tiles command (robot.interact tiles)
  | rests (robot' : Robot) (hlands : command.lands = false) (hinteracts : command ≠ .interact)
      (hsame : robot.SameTreasure robot') : Obeys robot tiles command (.quiet robot')

theorem obeys_walk (robot : Robot) (size : GridSize) (tiles : Tiles) (steps : Int)
    {command : Command} (hcommand : command.lands = true) {blocked : Text}
    (hblocked : blocked ∈ messages.failures) :
    robot.Obeys tiles command (robot.walk size tiles steps blocked) := by
  unfold walk
  simp only
  split
  · exact .lands _ hcommand ⟨rfl, rfl⟩
  · exact .blocked blocked hcommand hblocked

theorem obeys_jump (robot : Robot) (size : GridSize) (tiles : Tiles) :
    robot.Obeys tiles .jump (robot.jump size tiles) := by
  unfold jump
  simp only
  split
  · exact .lands _ rfl ⟨rfl, rfl⟩
  · exact .blocked messages.blockedJump rfl (by simp [Messages.failures])

/-- The cases of an instruction. -/
theorem obeys (robot : Robot) (size : GridSize) (tiles : Tiles) (command : Command) :
    robot.Obeys tiles command (robot.obey size tiles command) := by
  cases command with
  | moveForward => exact obeys_walk robot size tiles 1 rfl (by simp [Messages.failures])
  | moveBackward => exact obeys_walk robot size tiles (-1) rfl (by simp [Messages.failures])
  | jump => exact obeys_jump robot size tiles
  | interact => exact .interacts rfl
  | turnLeft | turnRight | wait | loopStart | loopEnd | ifStart | ifElse | ifEnd =>
    exact .rests _ rfl (by decide) ⟨rfl, rfl⟩

/-! ## Failures -/

theorem message_land (h : (robot.land tiles).success = false) :
    (robot.land tiles).message = messages.spike := by
  unfold land at h ⊢
  split at h
  · cases h
  · split at h
    · rfl
    · cases h
    · cases h
    · split at h <;> cases h
    · cases h

theorem success_interact (robot : Robot) (tiles : Tiles) :
    (robot.interact tiles).success = true := by
  unfold interact
  repeat' split
  all_goals rfl

end Robot

/-- An instruction that fails says why. -/
theorem Step.message_of_failure {block : Block} {robot : Robot} {tiles : Tiles} {size : GridSize}
    (h : (execute block robot tiles size).success = false) :
    (execute block robot tiles size).message ∈ messages.failures := by
  have hobeys := robot.settled.obeys size tiles block.command
  simp only [execute] at h ⊢
  generalize robot.settled.obey size tiles block.command = e at hobeys h ⊢
  cases hobeys with
  | lands robot' =>
    rw [Robot.message_land h]
    exact List.mem_cons_self
  | blocked message _ hmessage => exact hmessage
  | interacts => cases (Robot.success_interact _ tiles).symm.trans h
  | rests => cases h

/-- No message of a failure is empty, or says as little as the reason for none. -/
theorem Messages.telling_of_mem_failures :
    ∀ m ∈ messages.failures, m ≠ [] ∧ m ≠ Run.unknownReason := by decide

end RobotPuzzle
