import RobotPuzzle.Catalog.Basic

/-!
# The built-in levels

Six levels in three chapters, written as level files.
-/

namespace RobotPuzzle

namespace BuiltIn

/-- First steps: the robot walks straight to the goal. -/
def firstSteps : Fields :=
  [("id", .int 1), ("name", .str "First Steps"), ("chapter", .int 1),
    ("chapter_name", .str "Sequences"),
    ("description", .str "Walk the robot straight to the goal."), ("difficulty", .str "beginner"),
    ("layout", Json.texts ["#####", "S...G", "#####"]), ("start_direction", .str "right"),
    ("available_commands", Json.texts ["move_forward"]), ("max_blocks", .int 6),
    ("optimal_blocks", .int 4), ("goal_type", .str "reach_goal"),
    ("hints", Json.texts
      ["The goal is straight ahead!", "Each Forward block moves one tile."])]

/-- A path with two corners. -/
def turnTheCorner : Fields :=
  [("id", .int 2), ("name", .str "Turn the Corner"), ("chapter", .int 1),
    ("chapter_name", .str "Sequences"), ("description", .str "The path bends. Turn to follow it."),
    ("difficulty", .str "beginner"), ("layout", Json.texts ["S..#", "##.#", "##.G"]),
    ("start_direction", .str "right"),
    ("available_commands", Json.texts ["move_forward", "turn_left", "turn_right"]),
    ("max_blocks", .int 9), ("optimal_blocks", .int 7), ("goal_type", .str "reach_goal"),
    ("hints", Json.texts
      ["Turning does not move the robot.", "Right turns clockwise, left turns anticlockwise."])]

/-- Coins along a hallway. -/
def coinCollector : Fields :=
  [("id", .int 3), ("name", .str "Coin Collector"), ("chapter", .int 1),
    ("chapter_name", .str "Sequences"),
    ("description", .str "Pick up every coin in the hallway."), ("difficulty", .str "easy"),
    ("layout", Json.texts ["######", "So.o.o", "######"]), ("start_direction", .str "right"),
    ("available_commands", Json.texts ["move_forward", "move_backward"]), ("max_blocks", .int 7),
    ("optimal_blocks", .int 5), ("goal_type", .str "collect_all"), ("coins_required", .int 3),
    ("hints", Json.texts ["Walk over a coin to collect it."])]

/-- A corridor that is too long without a loop. -/
def loopTheLoop : Fields :=
  [("id", .int 4), ("name", .str "Loop the Loop"), ("chapter", .int 2),
    ("chapter_name", .str "Loops"),
    ("description", .str "A very long corridor. Repeat yourself!"), ("difficulty", .str "easy"),
    ("layout", Json.texts ["########", "S......G", "########"]), ("start_direction", .str "right"),
    ("available_commands", Json.texts ["move_forward", "loop_start"]), ("max_blocks", .int 4),
    ("optimal_blocks", .int 3), ("goal_type", .str "reach_goal"),
    ("hints", Json.texts
      ["Put a Forward block inside a Repeat block.",
        "Set the repeat count to the number of steps."])]

/-- A button, a door and a coin on the way to the goal. -/
def openSesame : Fields :=
  [("id", .int 5), ("name", .str "Open Sesame"), ("chapter", .int 3),
    ("chapter_name", .str "Switches"),
    ("description", .str "Step on the button to open the door, grab the coin, reach the goal."),
    ("difficulty", .str "medium"), ("layout", Json.texts ["#####", "SbDoG", "#####"]),
    ("tiles", .arr [.obj [("id", .str "t-1-1"), ("linked_to", .str "t-1-2")]]),
    ("start_direction", .str "right"),
    ("available_commands", Json.texts ["move_forward", "interact", "loop_start"]),
    ("max_blocks", .int 6), ("optimal_blocks", .int 3), ("goal_type", .str "collect_and_reach"),
    ("coins_required", .int 1),
    ("hints", Json.texts
      ["Doors open when you step on a button.",
        "You can also face a button and Interact with it."])]

/-- A pit and a spike to jump over. -/
def mindTheGap : Fields :=
  [("id", .int 6), ("name", .str "Mind the Gap"), ("chapter", .int 3),
    ("chapter_name", .str "Switches"),
    ("description", .str "Jump over the pit and the spikes."), ("difficulty", .str "medium"),
    ("layout", Json.texts ["#######", "S.x.^.G", "#######"]), ("start_direction", .str "right"),
    ("available_commands", Json.texts ["move_forward", "jump", "wait"]), ("max_blocks", .int 6),
    ("optimal_blocks", .int 4), ("goal_type", .str "reach_goal"),
    ("hints", Json.texts
      ["Jump moves two tiles and clears whatever is in between.", "Never land on a spike!"])]

/-- The level files. -/
def files : List LevelFile :=
  [("level_01.json", firstSteps), ("level_02.json", turnTheCorner),
    ("level_03.json", coinCollector), ("level_04.json", loopTheLoop),
    ("level_05.json", openSesame), ("level_06.json", mindTheGap)].map
    fun (name, fields) => ⟨name, .value (.obj fields)⟩

/-- The catalog of the built-in levels, in a folder of some name. -/
def catalog (folder : String) : Catalog := .ofFiles folder (some files)

end BuiltIn

end RobotPuzzle
