import RobotPuzzle.Proofs.Run.Fold
import RobotPuzzle.Proofs.Run.Order

/-!
# Symmetries of the grid

Nothing in a run depends on where the top of the grid is, or on which of its sides is the left one.
A level can be turned by a quarter, and the same program runs through the turned level as it ran
through the level itself, turned; in a mirror, a program with left and right turns swapped does.

What a symmetry has to keep is said once, in `Symmetry`: which cells the grid has, what lies ahead
of a robot, and what turns do. All that a run does comes from these.

* `Symmetry.rotation`, `Symmetry.mirror`: a quarter turn clockwise, and left and right swapped.
* `Symmetry.execute_block`: executing one instruction commutes with a symmetry.
* `Symmetry.step_run`: so does a step of a run, whatever it reports.
* `Symmetry.courses_commute`: whole runs of turned and mirrored levels.
-/

namespace RobotPuzzle

/-- The direction in a mirror that swaps left and right. -/
def Direction.mirrored : Direction → Direction
  | .up => .up
  | .right => .left
  | .down => .down
  | .left => .right

theorem Direction.delta_mirrored (d : Direction) : d.mirrored.delta = (d.delta.1, -d.delta.2) := by
  cases d <;> rfl

/-- The command in a mirror that swaps left and right. -/
def Command.mirrored : Command → Command
  | .turnLeft => .turnRight
  | .turnRight => .turnLeft
  | command => command

/-- A way to lay out a grid anew, cell by cell, that keeps which cells the grid has and which of
them lie ahead of each other. -/
structure Symmetry where
  /-- The extent of the grid when it is laid out anew. -/
  extent : GridSize → GridSize
  /-- Where a cell of a grid comes to lie. -/
  cell : GridSize → Position → Position
  /-- Where a robot faces then. -/
  face : Direction → Direction
  /-- Whether left turns become right turns. -/
  swaps : Bool
  cell_injective : ∀ size p q, cell size p = cell size q → p = q
  has_cell : ∀ size p, (extent size).has (cell size p) = size.has p
  cell_offset : ∀ size p d steps,
    cell size (p.offset (d.delta.1 * steps) (d.delta.2 * steps)) =
      (cell size p).offset ((face d).delta.1 * steps) ((face d).delta.2 * steps)
  face_turnLeft : ∀ d, face d.turnLeft = if swaps then (face d).turnRight else (face d).turnLeft
  face_turnRight : ∀ d, face d.turnRight = if swaps then (face d).turnLeft else (face d).turnRight

namespace Run

theorem execute_eq (r : Run) (b : Block) :
    r.execute b = ((r.execute b).1, { r with
      cursor := r.cursor + 1
      history := r.history ++ [(r.execute b).1]
      world := (r.execute b).1.commit r.world }) := rfl

theorem level_step (r : Run) (clock : Clock) : (r.step clock).run.level = r.level := by
  rcases r.run_step_cases clock with ⟨outcome, h⟩ | ⟨block, outcome, -, h⟩ <;> rw [h]
  rfl

theorem level_turn (r : Run) (clock : Clock) (n : Nat) : (r.turn clock n).run.level = r.level := by
  induction n with
  | zero => exact r.level_step clock
  | succ n ih => exact (level_step _ _).trans ih

end Run

namespace Symmetry

/-! ## The quarter turn and the mirror -/

theorem clockwise_injective {n : Int} {p q : Position}
    (h : (⟨p.col, n - 1 - p.row⟩ : Position) = ⟨q.col, n - 1 - q.row⟩) : p = q := by
  cases p
  cases q
  simp only [Position.mk.injEq] at h ⊢
  omega

theorem has_clockwise (size : GridSize) (p : Position) :
    (⟨size.cols, size.rows⟩ : GridSize).has ⟨p.col, size.rows - 1 - p.row⟩ = size.has p := by
  rw [Bool.eq_iff_iff]
  simp only [GridSize.has_iff]
  omega

theorem clockwise_offset (n : Int) (p : Position) (d : Direction) (steps : Int) :
    (⟨(p.offset (d.delta.1 * steps) (d.delta.2 * steps)).col,
        n - 1 - (p.offset (d.delta.1 * steps) (d.delta.2 * steps)).row⟩ : Position) =
      (⟨p.col, n - 1 - p.row⟩ : Position).offset (d.turnRight.delta.1 * steps)
        (d.turnRight.delta.2 * steps) := by
  simp only [Direction.delta_turnRight, Position.offset, Position.mk.injEq, Int.neg_mul, true_and]
  omega

theorem mirrored_injective {n : Int} {p q : Position}
    (h : (⟨p.row, n - 1 - p.col⟩ : Position) = ⟨q.row, n - 1 - q.col⟩) : p = q := by
  cases p
  cases q
  simp only [Position.mk.injEq] at h ⊢
  omega

theorem has_mirrored (size : GridSize) (p : Position) :
    size.has ⟨p.row, size.cols - 1 - p.col⟩ = size.has p := by
  rw [Bool.eq_iff_iff]
  simp only [GridSize.has_iff]
  omega

theorem mirrored_offset (n : Int) (p : Position) (d : Direction) (steps : Int) :
    (⟨(p.offset (d.delta.1 * steps) (d.delta.2 * steps)).row,
        n - 1 - (p.offset (d.delta.1 * steps) (d.delta.2 * steps)).col⟩ : Position) =
      (⟨p.row, n - 1 - p.col⟩ : Position).offset (d.mirrored.delta.1 * steps)
        (d.mirrored.delta.2 * steps) := by
  simp only [Direction.delta_mirrored, Position.offset, Position.mk.injEq, Int.neg_mul, true_and]
  omega

/-- A quarter turn clockwise: the top row becomes the right column. -/
def rotation : Symmetry where
  extent size := ⟨size.cols, size.rows⟩
  cell size p := ⟨p.col, size.rows - 1 - p.row⟩
  face := Direction.turnRight
  swaps := false
  cell_injective _ _ _ := clockwise_injective
  has_cell := has_clockwise
  cell_offset size := clockwise_offset size.rows
  face_turnLeft d := by cases d <;> rfl
  face_turnRight d := by cases d <;> rfl

/-- The top left cell of two rows becomes the top right one of two columns. -/
example : rotation.extent ⟨2, 3⟩ = ⟨3, 2⟩ ∧ rotation.cell ⟨2, 3⟩ ⟨0, 0⟩ = ⟨0, 1⟩ := ⟨rfl, rfl⟩

/-- Left and right are swapped: the left column becomes the right one. -/
def mirror : Symmetry where
  extent size := size
  cell size p := ⟨p.row, size.cols - 1 - p.col⟩
  face := Direction.mirrored
  swaps := true
  cell_injective _ _ _ := mirrored_injective
  has_cell := has_mirrored
  cell_offset size := mirrored_offset size.cols
  face_turnLeft d := by cases d <;> rfl
  face_turnRight d := by cases d <;> rfl

/-! ## What is laid out anew -/

variable (σ : Symmetry) (size : GridSize)

/-- A command, with turns swapped where the symmetry swaps them. -/
def word (c : Command) : Command := if σ.swaps then c.mirrored else c

def block (b : Block) : Block := { b with command := σ.word b.command }

def tile (t : Tile) : Tile := { t with position := σ.cell size t.position }

def tiles (ts : Tiles) : Tiles := ts.map (σ.tile size)

def robot (r : Robot) : Robot :=
  { r with position := σ.cell size r.position, direction := σ.face r.direction }

def world (w : World) : World :=
  { size := σ.extent w.size, tiles := σ.tiles size w.tiles, robot := σ.robot size w.robot }

def effect (e : Effect) : Effect := { e with robot := σ.robot size e.robot }

def step (s : Step) : Step :=
  { s with command := σ.word s.command, robot := σ.robot size s.robot }

def report (r : Report) : Report := { r with step := r.step.map (σ.step size) }

/-- A level: its tiles keep their ids and their order. -/
def level (l : Level) : Level :=
  { l with
    size := σ.extent l.size
    tiles := σ.tiles l.size l.tiles
    start := σ.cell l.size l.start
    facing := σ.face l.facing }

def run (r : Run) : Run :=
  { r with
    level := σ.level r.level
    world := σ.world r.level.size r.world
    stream := r.stream.map σ.block
    history := r.history.map (σ.step r.level.size) }

/-- A turn of a run on a grid of the given extent: it reports the same, but for where the robot is
and what turns are called, and the clock is the same. -/
def turn (t : Turn Report) : Turn Report :=
  ⟨t.value.map (σ.report size), σ.run t.run, t.clock⟩

/-! ## Searching tiles -/

variable {σ size}

theorem at?_tiles (ts : Tiles) (p : Position) :
    (σ.tiles size ts).at? (σ.cell size p) = (ts.at? p).map (σ.tile size) := by
  have hsits : ∀ q q' : Position, (q.row == q'.row && q.col == q'.col) = decide (q = q') := by
    rintro ⟨r, c⟩ ⟨r', c'⟩
    rw [Bool.eq_iff_iff]
    simp
  have hcell : ∀ q, decide (σ.cell size q = σ.cell size p) = decide (q = p) := fun q =>
    decide_eq_decide.mpr ⟨σ.cell_injective size q p, congrArg _⟩
  simp only [Tiles.at?, tiles, List.find?_map, hsits]
  congr 2
  funext t
  exact hcell t.position

theorem firstOf?_tiles (ts : Tiles) (kind : TileKind) :
    (σ.tiles size ts).firstOf? kind = (ts.firstOf? kind).map (σ.tile size) := by
  rw [Tiles.firstOf?, tiles, List.find?_map]
  rfl

theorem doorOf?_tiles (ts : Tiles) (button button' : Option Tile) :
    (σ.tiles size ts).doorOf? button = (ts.doorOf? button').map (σ.tile size) :=
  firstOf?_tiles ts .door

theorem canEnter_tiles (ts : Tiles) (p : Position) :
    (σ.tiles size ts).canEnter (σ.extent size) (σ.cell size p) = ts.canEnter size p := by
  rw [Tiles.canEnter, Tiles.canEnter, σ.has_cell, at?_tiles, Option.any_map]
  rfl

theorem apply_tiles (ts : Tiles) (changes : List TileChange) :
    (σ.tiles size ts).apply changes = σ.tiles size (ts.apply changes) := by
  have hon : ∀ (c : TileChange) (t : Tile), c.on (σ.tile size t) = σ.tile size (c.on t) := by
    intro c t
    by_cases h : c.id = t.id <;> simp [TileChange.on, tile, h]
  have hfoldl : ∀ t : Tile, changes.foldl (fun t c => c.on t) (σ.tile size t) =
      σ.tile size (changes.foldl (fun t c => c.on t) t) := by
    induction changes with
    | nil => exact fun _ => rfl
    | cons c rest ih => exact fun t => by rw [List.foldl_cons, List.foldl_cons, hon, ih]
  simp only [Tiles.apply, tiles, List.map_map]
  exact List.map_congr_left fun t _ => hfoldl t

theorem atStart_tiles (ts : Tiles) : (σ.tiles size ts).atStart = σ.tiles size ts.atStart := by
  simp only [Tiles.atStart, tiles, List.map_map]
  refine List.map_congr_left fun t _ => ?_
  by_cases h : t.kind = .door <;> simp [Tile.atStart, tile, h]

/-! ## Executing an instruction -/

theorem cellAhead_robot (r : Robot) (steps : Int) :
    (σ.robot size r).cellAhead steps = σ.cell size (r.cellAhead steps) :=
  (σ.cell_offset size r.position r.direction steps).symm

theorem land_robot (r : Robot) (ts : Tiles) :
    (σ.robot size r).land (σ.tiles size ts) = σ.effect size (r.land ts) := by
  have hat : (σ.tiles size ts).at? (σ.robot size r).position =
      (ts.at? r.position).map (σ.tile size) := at?_tiles ts r.position
  unfold Robot.land
  rw [hat]
  cases ts.at? r.position with
  | none => rfl
  | some t =>
    have hkind : (σ.tile size t).kind = t.kind := rfl
    simp only [Option.map_some, hkind, doorOf?_tiles ts (some (σ.tile size t)) (some t)]
    cases t.kind with
    | button => cases ts.doorOf? (some t) <;> rfl
    | _ => rfl

theorem walk_robot (r : Robot) (ts : Tiles) (steps : Int) (blocked : Text) :
    (σ.robot size r).walk (σ.extent size) (σ.tiles size ts) steps blocked =
      σ.effect size (r.walk size ts steps blocked) := by
  unfold Robot.walk
  simp only [cellAhead_robot, canEnter_tiles]
  split
  · exact land_robot { r with position := r.cellAhead steps, moving := true } ts
  · rfl

theorem jump_robot (r : Robot) (ts : Tiles) :
    (σ.robot size r).jump (σ.extent size) (σ.tiles size ts) = σ.effect size (r.jump size ts) := by
  have hspike : ((ts.at? (r.cellAhead 2)).map (σ.tile size)).any (·.kind == .spike) =
      (ts.at? (r.cellAhead 2)).any (·.kind == .spike) := by
    rw [Option.any_map]
    rfl
  unfold Robot.jump
  simp only [cellAhead_robot, canEnter_tiles, at?_tiles, hspike]
  split
  · exact land_robot { r with position := r.cellAhead 2, jumping := true } ts
  · rfl

theorem interact_robot (r : Robot) (ts : Tiles) :
    (σ.robot size r).interact (σ.tiles size ts) = σ.effect size (r.interact ts) := by
  unfold Robot.interact
  rw [cellAhead_robot, at?_tiles]
  cases ts.at? (r.cellAhead 1) with
  | none => rfl
  | some t =>
    have hkind : (σ.tile size t).kind = t.kind := rfl
    simp only [Option.map_some, hkind, doorOf?_tiles ts (some (σ.tile size t)) (some t)]
    split
    · cases ts.doorOf? (some t) <;> rfl
    · rfl

/-- A command does to a robot that is laid out anew what it does to the robot. -/
theorem obey_robot (r : Robot) (ts : Tiles) (c : Command) :
    (σ.robot size r).obey (σ.extent size) (σ.tiles size ts) (σ.word c) =
      σ.effect size (r.obey size ts c) := by
  have hleft := σ.face_turnLeft r.direction
  have hright := σ.face_turnRight r.direction
  unfold word
  cases hswaps : σ.swaps <;>
    simp only [hswaps, Bool.false_eq_true, ↓reduceIte] at hleft hright ⊢ <;>
    cases c with
    | moveForward => exact walk_robot r ts 1 messages.blockedForward
    | moveBackward => exact walk_robot r ts (-1) messages.blockedBackward
    | jump => exact jump_robot r ts
    | interact => exact interact_robot r ts
    | turnLeft => simp only [Command.mirrored, Robot.obey, effect, Effect.quiet, robot, hleft]
    | turnRight => simp only [Command.mirrored, Robot.obey, effect, Effect.quiet, robot, hright]
    | wait | loopStart | loopEnd | ifStart | ifElse | ifEnd => rfl

/-- **Executing an instruction commutes with a symmetry.** -/
theorem execute_block (b : Block) (r : Robot) (ts : Tiles) :
    Step.execute (σ.block b) (σ.robot size r) (σ.tiles size ts) (σ.extent size) =
      σ.step size (Step.execute b r ts size) := by
  have hobey : (σ.robot size r).settled.obey (σ.extent size) (σ.tiles size ts) (σ.word b.command) =
      σ.effect size (r.settled.obey size ts b.command) := obey_robot r.settled ts b.command
  simp only [Step.execute, block, hobey]
  rfl

theorem commit_step (s : Step) (w : World) :
    (σ.step size s).commit (σ.world size w) = σ.world size (s.commit w) := by
  simp only [Step.commit, world, step, apply_tiles]

/-! ## Steps of a run -/

theorem initialWorld_level (l : Level) :
    (σ.level l).initialWorld = σ.world l.size l.initialWorld := by
  simp only [Level.initialWorld, level, atStart_tiles]
  rfl

theorem run_fresh (l : Level) (limit : Option Int) :
    σ.run (.fresh l limit) = .fresh (σ.level l) limit := by
  simp only [Run.fresh, initialWorld_level]
  rfl

theorem isMetBy_level (l : Level) (w : World) :
    (σ.level l).isMetBy (σ.world l.size w) = l.isMetBy w := by
  have hgoal : (σ.tiles l.size w.tiles).goal? = w.tiles.goal?.map (σ.tile l.size) :=
    firstOf?_tiles w.tiles .goal
  have hcell : ∀ t : Tile, ((σ.tile l.size t).position == (σ.robot l.size w.robot).position) =
      (t.position == w.robot.position) := fun t => by
    rw [Bool.eq_iff_iff, beq_iff_eq, beq_iff_eq]
    exact ⟨σ.cell_injective l.size _ _, congrArg _⟩
  simp only [Level.isMetBy, world, hgoal, Option.any_map, hcell]
  rfl

theorem conclude_run (r : Run) (reason : Option Text) (clock : Clock) :
    (σ.run r).conclude reason clock = r.conclude reason clock := by
  have hlength : (σ.run r).history.length = r.history.length := List.length_map _
  simp only [Run.conclude, hlength]
  rfl

theorem finish_run (r : Run) (entry : Option Step) (reason : Option Text) (clock : Clock) :
    (σ.run r).finish (entry.map (σ.step r.level.size)) reason clock =
      σ.turn r.level.size (r.finish entry reason clock) := by
  simp only [Run.finish, conclude_run]
  cases r.conclude reason clock <;> rfl

theorem execute_run (r : Run) (b : Block) :
    (σ.run r).execute (σ.block b) =
      (σ.step r.level.size (r.execute b).1, σ.run (r.execute b).2) := by
  have hexecute : Step.execute (σ.block b) (σ.run r).world.robot (σ.run r).world.tiles
      (σ.run r).level.size =
        σ.step r.level.size (Step.execute b r.world.robot r.world.tiles r.level.size) :=
    execute_block b r.world.robot r.world.tiles
  have hlength : (σ.run r).stream.length = r.stream.length := List.length_map _
  have hentry : ((σ.run r).execute (σ.block b)).1 = σ.step r.level.size (r.execute b).1 := by
    simp only [Run.execute, hexecute, hlength]
    rfl
  have hcommit : (σ.step r.level.size (r.execute b).1).commit (σ.run r).world =
      σ.world r.level.size (r.execute b).2.world := commit_step _ r.world
  have hhistory : (σ.run r).history ++ [σ.step r.level.size (r.execute b).1] =
      (r.execute b).2.history.map (σ.step r.level.size) := by
    simp [Run.execute, run]
  rw [Run.execute_eq, hentry, hcommit, hhistory]
  rfl

/-- **A step of a run commutes with a symmetry**, whether it executes an instruction, judges the
goal, repeats an outcome or faults. -/
theorem step_run (r : Run) (clock : Clock) :
    (σ.run r).step clock = σ.turn r.level.size (r.step clock) := by
  have hcurrent : (σ.run r).current? = r.current?.map σ.block := List.getElem?_map
  have houtcome : (σ.run r).outcome = r.outcome := rfl
  unfold Run.step
  rw [houtcome, hcurrent]
  cases r.outcome with
  | some outcome => rfl
  | none =>
    cases r.current? with
    | none =>
      have hjudged : Run.judgement (σ.run r).level (σ.run r).world =
          Run.judgement r.level r.world := by
        simp only [Run.judgement, show (σ.run r).level = σ.level r.level from rfl,
          show (σ.run r).world = σ.world r.level.size r.world from rfl, isMetBy_level]
      simp only [Option.map_none, hjudged]
      exact finish_run r none _ clock
    | some b =>
      have hsuccess : (σ.step r.level.size (r.execute b).1).success = (r.execute b).1.success := rfl
      simp only [Option.map_some, execute_run, hsuccess]
      split
      · rfl
      · exact finish_run (r.execute b).2 (some (r.execute b).1) _ clock

theorem turn_run (r : Run) (clock : Clock) (n : Nat) :
    (σ.run r).turn clock n = σ.turn r.level.size (r.turn clock n) := by
  induction n with
  | zero => exact step_run r clock
  | succ n ih =>
    rw [Run.turn, Run.turn, ih, ← r.level_turn clock n]
    exact step_run (r.turn clock n).run (r.turn clock n).clock

/-! ## Starting a run -/

/-- Markers stay what they are. -/
theorem command_block_iff {b : Block} {marker : Command} (h : marker.isMarker = true) :
    (σ.block b).command = marker ↔ b.command = marker := by
  show σ.word b.command = marker ↔ b.command = marker
  unfold word
  split
  · cases b.command <;> cases marker <;> simp_all [Command.mirrored, Command.isMarker]
  · rfl

theorem splitLoop_map (depth : Nat) (blocks : List Block) :
    Unrolled.splitLoop depth (blocks.map σ.block) =
      ((Unrolled.splitLoop depth blocks).1.map σ.block,
        (Unrolled.splitLoop depth blocks).2.map σ.block) := by
  have hstart : ∀ b, (σ.block b).command = .loopStart ↔ b.command = .loopStart := fun _ =>
    command_block_iff rfl
  have hend : ∀ b, (σ.block b).command = .loopEnd ↔ b.command = .loopEnd := fun _ =>
    command_block_iff rfl
  induction blocks generalizing depth with
  | nil => rfl
  | cons b rest ih =>
    simp only [List.map_cons, Unrolled.splitLoop, hstart, hend]
    split
    · cases depth with
      | zero => rfl
      | succ depth => simp only [ih, List.map_cons]
    · simp only [ih, List.map_cons]

theorem times_map (n : Nat) (blocks : List Block) :
    Unrolled.times n (blocks.map σ.block) = (Unrolled.times n blocks).map σ.block := by
  simp [Unrolled.times, List.map_flatten]

theorem unrollFrom_map (limit : Int) (used : Nat) (blocks : List Block) :
    Unrolled.unrollFrom limit used (blocks.map σ.block) =
      (Unrolled.unrollFrom limit used blocks).map (List.map σ.block) := by
  have hstart : ∀ b, (σ.block b).command = .loopStart ↔ b.command = .loopStart := fun _ =>
    command_block_iff rfl
  have hend : ∀ b, (σ.block b).command = .loopEnd ↔ b.command = .loopEnd := fun _ =>
    command_block_iff rfl
  have hrepeats : ∀ b, (σ.block b).repeats = b.repeats := fun _ => rfl
  fun_induction Unrolled.unrollFrom limit used blocks with
  | case1 => rw [List.map_nil, Unrolled.unrollFrom_nil]; rfl
  | case2 used b rest hs parts hbody ih =>
    rw [List.map_cons, Unrolled.unrollFrom]
    simp only [hstart, hs, ↓reduceIte, splitLoop_map]
    rw [ih, hbody]
    rfl
  | case3 used b rest hs parts body hbody loop hlong ih =>
    rw [List.map_cons, Unrolled.unrollFrom]
    simp only [hstart, hs, ↓reduceIte, splitLoop_map]
    rw [ih, hbody]
    simp only [Option.map_some, hrepeats, times_map, List.length_map]
    rw [if_pos hlong]
    rfl
  | case4 used b rest hs parts body hbody loop hfits ih ih' =>
    rw [List.map_cons, Unrolled.unrollFrom]
    simp only [hstart, hs, ↓reduceIte, splitLoop_map]
    rw [ih, hbody]
    simp only [Option.map_some, hrepeats, times_map, List.length_map]
    rw [if_neg hfits, ih']
    simp only [Option.map_map]
    congr 1
    funext more
    simp [loop]
  | case5 used b rest hs he ih =>
    rw [List.map_cons, Unrolled.unrollFrom]
    simp only [hstart, hend, he, ↓reduceIte]
    exact ih
  | case6 used b rest hs he hlong =>
    rw [List.map_cons, Unrolled.unrollFrom]
    simp only [hstart, hend, hs, he, hlong, ↓reduceIte]
    rfl
  | case7 used b rest hs he hfits ih =>
    rw [List.map_cons, Unrolled.unrollFrom]
    simp only [hstart, hend, hs, he, hfits, ↓reduceIte, ih, Option.map_map]
    congr 1

/-- A run starts on the grid that is laid out anew as it starts on the grid. -/
theorem start_run (r : Run) (blocks : List Block) (clock : Clock) :
    (σ.run r).start (blocks.map σ.block) clock =
      ⟨(r.start blocks clock).value, σ.run (r.start blocks clock).run,
        (r.start blocks clock).clock⟩ := by
  have hunroll : Unrolled.unroll (σ.run r).cap (blocks.map σ.block) =
      (Unrolled.unroll r.cap blocks).map (List.map σ.block) := unrollFrom_map r.cap 0 blocks
  have hreset : σ.run r.reset = (σ.run r).reset := run_fresh r.level r.limit
  unfold Run.start
  rw [hunroll]
  cases Unrolled.unroll r.cap blocks with
  | none => rw [Option.map_none, ← hreset]; rfl
  | some stream =>
    simp only [Option.map_some, List.length_map, ← hreset]
    rfl

/-- A run that was started, on a grid that is laid out anew, follows one on the grid itself. -/
structure Follows (σ : Symmetry) (size : GridSize) (plain image : Turn Unit) : Prop where
  /-- It has started, or been refused, as the other one. -/
  value : image.value = plain.value
  clock : image.clock = plain.clock
  /-- Each call of `step` reports what it reports there and leaves the run as it leaves it there,
  laid out anew. -/
  turn : ∀ n, image.run.turn image.clock n = σ.turn size (plain.run.turn plain.clock n)
  /-- Instructions succeed or fail alike, with the same messages, tile changes and treasure. -/
  effects : ∀ n, ((image.run.turn image.clock n).run.history.map fun s =>
      (s.blockId, s.success, s.message, s.changes, s.robot.coins, s.robot.gems)) =
    (plain.run.turn plain.clock n).run.history.map fun s =>
      (s.blockId, s.success, s.message, s.changes, s.robot.coins, s.robot.gems)
  /-- The robot is where its cell has come to lie, and faces where it has come to face. -/
  poses : ∀ n, ((image.run.turn image.clock n).run.history.map fun s =>
      (s.robot.position, s.robot.direction)) =
    (plain.run.turn plain.clock n).run.history.map fun s =>
      (σ.cell size s.robot.position, σ.face s.robot.direction)
  outcome : ∀ n, (image.run.turn image.clock n).run.outcome =
    (plain.run.turn plain.clock n).run.outcome

theorem follows_start (r : Run) (blocks : List Block) (clock : Clock) :
    σ.Follows r.level.size (r.start blocks clock)
      ((σ.run r).start (blocks.map σ.block) clock) := by
  rw [start_run]
  have hlevel : (r.start blocks clock).run.level = r.level := by
    unfold Run.start
    split <;> rfl
  have hturn : ∀ n, (σ.run (r.start blocks clock).run).turn (r.start blocks clock).clock n =
      σ.turn r.level.size ((r.start blocks clock).run.turn (r.start blocks clock).clock n) :=
    fun n => hlevel ▸ turn_run (r.start blocks clock).run (r.start blocks clock).clock n
  have hsize : ∀ n, ((r.start blocks clock).run.turn (r.start blocks clock).clock n).run.level =
      r.level := fun n => (Run.level_turn _ _ n).trans hlevel
  refine
    { value := rfl
      clock := rfl
      turn := hturn
      effects := fun n => ?_
      poses := fun n => ?_
      outcome := fun n => by rw [hturn n]; rfl }
  · rw [hturn n]
    simp only [turn, run, List.map_map]
    rfl
  · rw [hturn n]
    simp only [turn, run, List.map_map, hsize n]
    rfl

/-- A quarter turn does not change what a program says. -/
theorem map_block_rotation (blocks : List Block) : blocks.map rotation.block = blocks :=
  List.map_id blocks

/-- **Runs commute with the symmetries of the grid.** The same program runs through a level that has
been turned clockwise by a quarter as through the level itself, turned; and with left and right
turns swapped, it runs through the mirrored level as through the level itself, mirrored. -/
theorem courses_commute (l : Level) (limit : Option Int) (blocks : List Block) (clock : Clock) :
    rotation.Follows l.size ((Run.fresh l limit).start blocks clock)
        ((Run.fresh (rotation.level l) limit).start blocks clock) ∧
      mirror.Follows l.size ((Run.fresh l limit).start blocks clock)
        ((Run.fresh (mirror.level l) limit).start (blocks.map mirror.block) clock) := by
  constructor
  · have h := follows_start (σ := rotation) (Run.fresh l limit) blocks clock
    rwa [run_fresh, map_block_rotation] at h
  · have h := follows_start (σ := mirror) (Run.fresh l limit) blocks clock
    rwa [run_fresh] at h

end Symmetry

end RobotPuzzle
