import RobotPuzzle.Proofs.Run.Ground
import RobotPuzzle.Proofs.Run.Treasure

/-!
# What an instruction leaves alone

What any instruction may change, among any tiles: also where several share a cell or an id, or where
cells have none. A failure leaves everything as it is, with one exception: a move onto a spike fails
with the robot on it.

* `Robot.lands_land`: the cases of a landing.
* `Effect.framed_land`, `Effect.framed_blocked`, `Effect.framed_inPlace`: the frame of a command
  that takes the robot to another cell, that is refused there, and that keeps it on its cell.
* `Step.framed_execute`: the frame of an instruction.
-/

namespace RobotPuzzle

/-! ## Commands -/

namespace Command

/-- Whether a command takes the robot to the next cell. -/
def walks : Command → Bool
  | .moveForward | .moveBackward => true
  | _ => false

/-- How many cells ahead a command takes the robot. -/
def reach : Command → Int
  | .moveForward => 1
  | .moveBackward => -1
  | .jump => 2
  | _ => 0

/-- Where the robot faces after a command. -/
def turned (facing : Direction) : Command → Direction
  | .turnLeft => facing.turnLeft
  | .turnRight => facing.turnRight
  | _ => facing

variable {command : Command}

/-- The commands that take the robot elsewhere are the moves and the jump. -/
theorem lands_iff : command.lands = true ↔ command.walks = true ∨ command = .jump := by
  cases command <;> decide

theorem reach_ne_zero (h : command.lands = true) : command.reach ≠ 0 := by
  cases command <;> first | decide | cases h

theorem reach_eq_zero (h : command.lands = false) : command.reach = 0 := by
  cases command <;> first | rfl | cases h

theorem turned_of_lands (h : command.lands = true) (facing : Direction) :
    command.turned facing = facing := by
  cases command <;> first | rfl | cases h

end Command

/-- What a command says when it is blocked. -/
def Messages.blocked? (m : Messages) : Command → Option Text
  | .moveForward => some m.blockedForward
  | .moveBackward => some m.blockedBackward
  | .jump => some m.blockedJump
  | _ => none

/-! ## Landing -/

/-- The robot with one more of a treasure. -/
def Treasure.give : Treasure → Robot → Robot
  | .coin, robot => { robot with coins := robot.coins + 1 }
  | .gem, robot => { robot with gems := robot.gems + 1 }

theorem Treasure.kind_injective : Function.Injective Treasure.kind := by
  intro k other h
  cases k <;> cases other <;> first | rfl | cases h

theorem Treasure.held_give (k other : Treasure) (robot : Robot) :
    k.held (other.give robot) = k.held robot + if k = other then 1 else 0 := by
  cases k <;> cases other <;> simp [held, give]

namespace Robot

variable {robot : Robot} {tiles : Tiles}

/-- What happens to a robot that has landed among tiles. -/
inductive Lands (robot : Robot) (tiles : Tiles) : Effect → Prop where
  | rests (hspike : tiles.hasSpike robot.position = false)
      (hkind : ∀ t, tiles.at? robot.position = some t → ∀ k : Treasure, t.kind ≠ k.kind) :
      Lands robot tiles (.quiet robot)
  | hurts (hspike : tiles.hasSpike robot.position = true) :
      Lands robot tiles (.failure robot messages.spike)
  | picks (k : Treasure) (t : Tile) (hat : tiles.at? robot.position = some t)
      (hkind : t.kind = k.kind) (message : Text) :
      Lands robot tiles ⟨k.give robot, [.toFloor t.id], message, true⟩
  | opens (hspike : tiles.hasSpike robot.position = false)
      (hkind : ∀ t, tiles.at? robot.position = some t → ∀ k : Treasure, t.kind ≠ k.kind)
      (change : TileChange) (hdoor : ∃ t ∈ tiles, t.id = change.id) (message : Text) :
      Lands robot tiles ⟨robot, [change], message, true⟩

/-- The cases of a landing. -/
theorem lands_land (robot : Robot) (tiles : Tiles) : robot.Lands tiles (robot.land tiles) := by
  unfold land
  split
  · next hat => exact .rests (by simp [Tiles.hasSpike, hat]) fun t ht => by simp [hat] at ht
  · next tile hat =>
    have hat' : ∀ t, tiles.at? robot.position = some t → t = tile := fun t ht =>
      Option.some.inj (ht.symm.trans hat)
    have hspike : tiles.hasSpike robot.position = decide (tile.kind = .spike) := by
      simp [Tiles.hasSpike, hat]
    split
    · next hkind => exact .hurts (by simp [hspike, hkind])
    · next hkind => exact .picks .coin tile hat hkind messages.coin
    · next hkind => exact .picks .gem tile hat hkind messages.gem
    · next hkind =>
      have hnone : tiles.hasSpike robot.position = false := by simp [hspike, hkind]
      have hother : ∀ t, tiles.at? robot.position = some t → ∀ k : Treasure, t.kind ≠ k.kind := by
        intro t ht k
        rw [hat' t ht, hkind]
        cases k <;> decide
      split
      · next door hdoor =>
        exact .opens hnone hother _ ⟨door, List.mem_of_find?_eq_some hdoor, rfl⟩ _
      · exact .rests hnone hother
    · next hnotSpike hnotCoin hnotGem _ =>
      refine .rests (by simpa [hspike] using hnotSpike) fun t ht k => ?_
      rw [hat' t ht]
      cases k
      · exact hnotCoin
      · exact hnotGem

/-- A robot that stands and moves in the same way. -/
structure SamePose (robot robot' : Robot) : Prop where
  position : robot'.position = robot.position
  direction : robot'.direction = robot.direction
  moving : robot'.moving = robot.moving
  jumping : robot'.jumping = robot.jumping
  energy : robot'.energy = robot.energy

/-- Landing changes nothing of the robot but its treasure. -/
theorem Lands.samePose {e : Effect} (h : robot.Lands tiles e) : robot.SamePose e.robot := by
  cases h with
  | rests | hurts | opens => exact ⟨rfl, rfl, rfl, rfl, rfl⟩
  | picks k => cases k <;> exact ⟨rfl, rfl, rfl, rfl, rfl⟩

/-- Interacting leaves the robot as it is, and changes at most a door. -/
theorem interact_eq (robot : Robot) (tiles : Tiles) :
    ∃ changes message, robot.interact tiles = ⟨robot, changes, message, true⟩ ∧
      changes.length ≤ 1 ∧ ∀ c ∈ changes, ∃ t ∈ tiles, t.id = c.id := by
  unfold interact
  split
  · exact ⟨[], "", rfl, Nat.zero_le _, nofun⟩
  · split
    · split
      · exact ⟨[], "", rfl, Nat.zero_le _, nofun⟩
      · next door hdoor =>
        refine ⟨_, _, rfl, Nat.le_refl 1, fun c hc => ⟨door, List.mem_of_find?_eq_some hdoor, ?_⟩⟩
        rw [List.mem_singleton.mp hc]
    · exact ⟨[], "", rfl, Nat.zero_le _, nofun⟩

/-- The robot on the cell that a command takes it to, with the mark of its motion. -/
def advanced (robot : Robot) (command : Command) : Robot :=
  { robot with
    position := robot.cellAhead command.reach
    moving := command.walks
    jumping := command = .jump }

/-- A cell some steps ahead is another one. -/
theorem cellAhead_ne (robot : Robot) {steps : Int} (h : steps ≠ 0) :
    robot.position ≠ robot.cellAhead steps := by
  intro heq
  have hrow := congrArg Position.row heq
  have hcol := congrArg Position.col heq
  simp only [cellAhead, Position.offset] at hrow hcol
  cases hd : robot.direction <;> simp only [hd, Direction.delta] at hrow hcol <;> omega

end Robot

/-! ## The frame -/

namespace Effect

/-- A failure leaves the tiles, the treasure and the facing. The robot is where it was, and the
command says that it was blocked; or it has moved onto a spike. -/
structure Fails (command : Command) (robot : Robot) (tiles : Tiles) (e : Effect) : Prop where
  changes : e.changes = []
  treasure : robot.SameTreasure e.robot
  direction : e.robot.direction = robot.direction
  cell : (e.robot.position = robot.position ∧ messages.blocked? command = some e.message) ∨
    (command.walks = true ∧ e.robot.position = robot.cellAhead command.reach ∧
      tiles.hasSpike e.robot.position = true ∧ e.message = messages.spike)

/-- A success takes the robot as far as its command reaches. It changes one tile at most: where it
lands on a treasure, that is taken, and no other is. -/
structure Succeeds (command : Command) (robot : Robot) (tiles : Tiles) (e : Effect) : Prop where
  cell : e.robot.position = robot.cellAhead command.reach
  atMostOne : e.changes.length ≤ 1
  existing : ∀ c ∈ e.changes, ∃ t ∈ tiles, t.id = c.id
  taken : ∀ (k : Treasure) (t : Tile), command.lands = true →
    tiles.at? e.robot.position = some t → t.kind = k.kind →
      k.held e.robot = k.held robot + 1 ∧ e.changes = [.toFloor t.id]
  spared : ∀ k : Treasure, (command.lands = true →
    ∀ t, tiles.at? e.robot.position = some t → t.kind ≠ k.kind) → k.held e.robot = k.held robot

/-- What a command may do to a robot among the tiles of a grid. -/
structure Framed (command : Command) (robot : Robot) (size : GridSize) (tiles : Tiles)
    (e : Effect) : Prop where
  energy : e.robot.energy = robot.energy
  /-- Only the turns turn it. -/
  direction : e.robot.direction = command.turned robot.direction
  /-- The marks of motion tell which way it has come to another cell. -/
  moving : e.robot.moving = true ↔
    command.walks = true ∧ e.robot.position = robot.cellAhead command.reach
  jumping : e.robot.jumping = true ↔
    command = .jump ∧ e.robot.position = robot.cellAhead command.reach
  /-- It comes there if the cell lets it in, and a jump moreover if no spike lies there. -/
  entered : command.lands = true → (e.robot.position = robot.cellAhead command.reach ↔
    tiles.canEnter size (robot.cellAhead command.reach) = true ∧
      (command = .jump → tiles.hasSpike (robot.cellAhead command.reach) = false))
  failed : e.success = false → Fails command robot tiles e
  succeeded : e.success = true → Succeeds command robot tiles e

variable {command : Command} {robot : Robot} {size : GridSize} {tiles : Tiles} {e : Effect}

/-- A landing fails only where a move comes to a spike. -/
theorem fails_of_lands (hlands : command.lands = true)
    (hspike : command = .jump → tiles.hasSpike (robot.cellAhead command.reach) = false)
    (h : (robot.advanced command).Lands tiles e) (hfail : e.success = false) :
    Fails command robot tiles e := by
  cases h with
  | rests | picks | opens => cases hfail
  | hurts hhurt =>
    have hwalks : command.walks = true := (Command.lands_iff.mp hlands).resolve_right fun hjump =>
      Bool.false_ne_true ((hspike hjump).symm.trans hhurt)
    exact ⟨rfl, ⟨rfl, rfl⟩, rfl, .inr ⟨hwalks, rfl, hhurt, rfl⟩⟩

theorem held_advanced (k : Treasure) (robot : Robot) (command : Command) :
    k.held (robot.advanced command) = k.held robot := by
  cases k <;> rfl

/-- A landing that succeeds takes the treasure that lies there. -/
theorem succeeds_of_lands (hlands : command.lands = true)
    (h : (robot.advanced command).Lands tiles e) (hok : e.success = true) :
    Succeeds command robot tiles e := by
  have hcell : e.robot.position = robot.cellAhead command.reach := h.samePose.position
  cases h with
  | hurts => cases hok
  | rests hspike hkind =>
    exact ⟨hcell, Nat.zero_le _, nofun, fun k t _ hat htreasure => absurd htreasure (hkind t hat k),
      fun k _ => held_advanced k robot command⟩
  | opens hspike hkind change hdoor message =>
    refine ⟨hcell, Nat.le_refl 1, fun c hc => ?_, fun k t _ hat htreasure =>
      absurd htreasure (hkind t hat k), fun k _ => held_advanced k robot command⟩
    rwa [List.mem_singleton.mp hc]
  | picks k t hat hkind message =>
    have hgives := fun other => (Treasure.held_give other k (robot.advanced command)).trans
      (congrArg (· + _) (held_advanced other robot command))
    rw [show (robot.advanced command).position = robot.cellAhead command.reach from rfl] at hat
    refine ⟨hcell, Nat.le_refl 1, fun c hc => ?_, fun other u _ hu htreasure => ?_,
      fun other hother => ?_⟩
    · rw [List.mem_singleton.mp hc]
      exact ⟨t, (Tiles.at?_eq_some hat).1, rfl⟩
    · rw [hcell, hat, Option.some.injEq] at hu
      subst hu
      obtain rfl : k = other := Treasure.kind_injective (hkind.symm.trans htreasure)
      exact ⟨by simpa using hgives k, rfl⟩
    · have hne : other ≠ k := by
        rintro rfl
        exact hother hlands t (hcell ▸ hat) hkind
      simpa [hne] using hgives other

/-- A move or a jump that is let in. -/
theorem framed_land (hlands : command.lands = true)
    (henters : tiles.canEnter size (robot.cellAhead command.reach) = true)
    (hspike : command = .jump → tiles.hasSpike (robot.cellAhead command.reach) = false) :
    Framed command robot size tiles ((robot.advanced command).land tiles) := by
  have h := (robot.advanced command).lands_land tiles
  have hpose := h.samePose
  exact
    { energy := hpose.energy
      direction := hpose.direction.trans (Command.turned_of_lands hlands _).symm
      moving := ⟨fun hmoving => ⟨hpose.moving.symm.trans hmoving, hpose.position⟩,
        fun hmoving => hpose.moving.trans hmoving.1⟩
      jumping := ⟨fun hjumping =>
          ⟨of_decide_eq_true (hpose.jumping.symm.trans hjumping), hpose.position⟩,
        fun hjumping => hpose.jumping.trans (decide_eq_true hjumping.1)⟩
      entered := fun _ => iff_of_true hpose.position ⟨henters, hspike⟩
      failed := fails_of_lands hlands hspike h
      succeeded := succeeds_of_lands hlands h }

/-- A move or a jump that is not let in. -/
theorem framed_blocked (hlands : command.lands = true)
    (hrefused : ¬ (tiles.canEnter size (robot.cellAhead command.reach) = true ∧
      (command = .jump → tiles.hasSpike (robot.cellAhead command.reach) = false)))
    {message : Text} (hmessage : messages.blocked? command = some message) :
    Framed command robot size tiles (.failure robot.settled message) := by
  have hne := robot.cellAhead_ne (Command.reach_ne_zero hlands)
  exact
    { energy := rfl
      direction := (Command.turned_of_lands hlands _).symm
      moving := iff_of_false Bool.false_ne_true fun h => hne h.2
      jumping := iff_of_false Bool.false_ne_true fun h => hne h.2
      entered := fun _ => iff_of_false hne hrefused
      failed := fun _ => ⟨rfl, ⟨rfl, rfl⟩, rfl, .inl ⟨rfl, hmessage⟩⟩
      succeeded := nofun }

/-- A command that keeps the robot on its cell, and at most turns it there. -/
theorem framed_inPlace (hlands : command.lands = false) {changes : List TileChange}
    (hone : changes.length ≤ 1) (hexisting : ∀ c ∈ changes, ∃ t ∈ tiles, t.id = c.id)
    (message : Text) :
    Framed command robot size tiles
      ⟨{ robot.settled with direction := command.turned robot.direction }, changes, message,
        true⟩ := by
  have hnot : ¬ (command.walks = true ∨ command = .jump) := by
    rw [← Command.lands_iff, hlands]
    exact Bool.false_ne_true
  have hnever : command.lands ≠ true := by
    rw [hlands]
    exact Bool.false_ne_true
  exact
    { energy := rfl
      direction := rfl
      moving := iff_of_false Bool.false_ne_true fun h => hnot (.inl h.1)
      jumping := iff_of_false Bool.false_ne_true fun h => hnot (.inr h.1)
      entered := fun h => absurd h hnever
      failed := nofun
      succeeded := fun _ =>
        { cell := by rw [Command.reach_eq_zero hlands, Robot.cellAhead_zero]; rfl
          atMostOne := hone
          existing := hexisting
          taken := fun _ _ h => absurd h hnever
          spared := fun k _ => by cases k <;> rfl } }

theorem framed_walk (hwalks : command.walks = true) {message : Text}
    (hmessage : messages.blocked? command = some message) :
    Framed command robot size tiles (robot.settled.walk size tiles command.reach message) := by
  have hlands : command.lands = true := Command.lands_iff.mpr (.inl hwalks)
  have hjump : command ≠ .jump := by
    rintro rfl
    cases hwalks
  have hadvanced : robot.advanced command =
      { robot.settled with position := robot.cellAhead command.reach, moving := true } := by
    simp [Robot.advanced, Robot.settled, hwalks, hjump]
  have hwalk : robot.settled.walk size tiles command.reach message =
      if tiles.canEnter size (robot.cellAhead command.reach) then
        (robot.advanced command).land tiles
      else .failure robot.settled message := by
    rw [hadvanced]
    rfl
  rw [hwalk]
  split
  · next hcan => exact framed_land hlands hcan fun h => absurd h hjump
  · next hcan => exact framed_blocked hlands (fun h => hcan h.1) hmessage

theorem framed_jump (robot : Robot) (size : GridSize) (tiles : Tiles) :
    Framed .jump robot size tiles (robot.settled.jump size tiles) := by
  have hjump : robot.settled.jump size tiles =
      if tiles.canEnter size (robot.cellAhead Command.jump.reach) &&
          !tiles.hasSpike (robot.cellAhead Command.jump.reach) then
        (robot.advanced .jump).land tiles
      else .failure robot.settled messages.blockedJump := rfl
  rw [hjump]
  split
  · next hcan =>
    rw [Bool.and_eq_true_iff, Bool.not_eq_true'] at hcan
    exact framed_land rfl hcan.1 fun _ => hcan.2
  · next hcan =>
    rw [Bool.and_eq_true_iff, Bool.not_eq_true'] at hcan
    exact framed_blocked rfl (fun h => hcan ⟨h.1, h.2 rfl⟩) rfl

theorem framed_interact (robot : Robot) (size : GridSize) (tiles : Tiles) :
    Framed .interact robot size tiles (robot.settled.interact tiles) := by
  obtain ⟨changes, message, heq, hone, hexisting⟩ := robot.settled.interact_eq tiles
  rw [heq]
  exact framed_inPlace rfl hone hexisting message

theorem framed_quiet (hlands : command.lands = false) :
    Framed command robot size tiles
      (.quiet { robot.settled with direction := command.turned robot.direction }) :=
  framed_inPlace hlands (Nat.zero_le _) (fun _ hc => absurd hc List.not_mem_nil) ""

/-- The frame of every command. -/
theorem framed_obey (robot : Robot) (size : GridSize) (tiles : Tiles) (command : Command) :
    Framed command robot size tiles (robot.settled.obey size tiles command) := by
  cases command with
  | moveForward => exact framed_walk rfl rfl
  | moveBackward => exact framed_walk rfl rfl
  | jump => exact framed_jump robot size tiles
  | interact => exact framed_interact robot size tiles
  | turnLeft | turnRight | wait | loopStart | loopEnd | ifStart | ifElse | ifEnd =>
    exact framed_quiet rfl

end Effect

/-- What a step did. -/
def Step.effect (s : Step) : Effect := ⟨s.robot, s.changes, s.message, s.success⟩

/-- **The frame of an instruction**, whatever the robot, the tiles and the grid: it takes no energy,
turns the robot by turns alone, marks the ways in which it moved, and either fails and leaves all
but the robot's cell, or succeeds and changes no more than one tile and what the robot takes from
it. -/
theorem Step.framed_execute (block : Block) (robot : Robot) (tiles : Tiles) (size : GridSize) :
    let s := execute block robot tiles size
    s.blockId = block.id ∧ s.command = block.command ∧ s.isLast = false ∧
      Effect.Framed block.command robot size tiles s.effect :=
  ⟨rfl, rfl, rfl, Effect.framed_obey robot size tiles block.command⟩

end RobotPuzzle
