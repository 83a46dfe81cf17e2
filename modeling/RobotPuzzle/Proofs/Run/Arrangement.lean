import RobotPuzzle.Proofs.Run.Ground

/-!
# The order of tiles

Tiles are searched in the order in which they are listed. That order does not matter to a run, but
for the doors: a button works the first one that is left. No two tiles share a cell, and where a
level asks for a goal tile there is one only, so that each of these searches finds the same tile in
any order; and instructions keep it so.

* `Tiles.Rearranged`: the same tiles with the doors in the same order.
* `Robot.obey_of_rearranged`: an instruction does the same among tiles in another order.
* `Tiles.Rearranged.apply`: and leaves them so.
* `Run.alike_step`: a step of a run whose tiles are in another order.
* `Run.sameButOrder_of_rearranged`: all runs of a level that has been read.
-/

namespace RobotPuzzle

/-- A change that keeps the kind of a tile, or makes it floor, makes no door. -/
theorem TileChange.kind_of_kind_on {c : TileChange} (hc : c.kind = none ∨ c.kind = some .floor)
    {t : Tile} (h : (c.on t).kind = .door) : t.kind = .door := by
  unfold on at h
  split at h
  · rcases hc with hkind | hkind
    · simpa [hkind] using h
    · simp [hkind] at h
  · exact h

namespace Tiles

variable {tiles now : Tiles}

/-- The same tiles, with the doors in the same order. -/
structure Rearranged (tiles now : Tiles) : Prop where
  perm : now.Perm tiles
  doors : now.doors = tiles.doors

/-! ## Searches -/

theorem Rearranged.distinct (h : tiles.Rearranged now) (hd : tiles.Distinct) : now.Distinct where
  ids := (h.perm.map Tile.id).nodup_iff.mpr hd.ids
  cells := (h.perm.map Tile.position).nodup_iff.mpr hd.cells

/-- A cell has the same tile in any order. -/
theorem Rearranged.at?_eq (h : tiles.Rearranged now) (hd : tiles.Distinct) (p : Position) :
    now.at? p = tiles.at? p := by
  cases hat : tiles.at? p with
  | some t =>
    obtain ⟨hmem, rfl⟩ := at?_eq_some hat
    exact (h.distinct hd).at?_of_mem (h.perm.mem_iff.mpr hmem)
  | none =>
    refine Option.eq_none_iff_forall_ne_some.mpr fun t ht => ?_
    obtain ⟨hmem, rfl⟩ := at?_eq_some ht
    rw [hd.at?_of_mem (h.perm.mem_iff.mp hmem)] at hat
    cases hat

theorem firstOf?_eq_head? (tiles : Tiles) (kind : TileKind) :
    tiles.firstOf? kind = (tiles.filter (·.kind = kind)).head? := by
  rw [List.head?_filter]
  rfl

theorem Rearranged.firstOf?_door (h : tiles.Rearranged now) :
    now.firstOf? .door = tiles.firstOf? .door := by
  rw [firstOf?_eq_head?, firstOf?_eq_head?]
  exact congrArg List.head? h.doors

/-- The only tile of a kind is the first one in any order. -/
theorem Rearranged.firstOf?_of_only (h : tiles.Rearranged now) {kind : TileKind} {t : Tile}
    (honly : tiles.filter (·.kind = kind) = [t]) : now.firstOf? kind = tiles.firstOf? kind := by
  have hperm := h.perm.filter (·.kind = kind)
  rw [honly] at hperm
  rw [firstOf?_eq_head?, firstOf?_eq_head?, honly, List.perm_singleton.mp hperm]

/-! ## Changes -/

/-- What makes no other tile a door can be done to the doors alone. -/
theorem doors_map {f : Tile → Tile} (hf : ∀ t ∈ tiles, (f t).kind = .door → t.kind = .door) :
    doors (tiles.map f) = doors (tiles.doors.map f) := by
  rw [doors, doors, doors, List.filter_map, List.filter_map, List.filter_filter]
  congr 1
  refine List.filter_congr fun t ht => ?_
  by_cases hdoor : (f t).kind = .door
  · simp [hdoor, hf t ht hdoor]
  · simp [hdoor]

theorem Rearranged.map (h : tiles.Rearranged now) {f : Tile → Tile}
    (hf : ∀ t ∈ tiles, (f t).kind = .door → t.kind = .door) :
    Rearranged (tiles.map f) (now.map f) where
  perm := h.perm.map f
  doors := by
    rw [doors_map hf, doors_map fun t ht => hf t (h.perm.mem_iff.mp ht), h.doors]

theorem Rearranged.atStart (h : tiles.Rearranged now) : tiles.atStart.Rearranged now.atStart :=
  h.map fun t _ hdoor => by
    unfold Tile.atStart at hdoor
    split at hdoor
    · assumption
    · exact hdoor

/-- Changes that keep the kind of a tile, or make it floor, leave tiles rearranged. -/
theorem Rearranged.apply (h : tiles.Rearranged now) {changes : List TileChange}
    (hchanges : ∀ c ∈ changes, c.kind = none ∨ c.kind = some .floor) :
    (tiles.apply changes).Rearranged (now.apply changes) := by
  have hkind : ∀ t : Tile,
      (changes.foldl (fun t c => c.on t) t).kind = .door → t.kind = .door := by
    induction changes with
    | nil => exact fun _ => id
    | cons c rest ih =>
      obtain ⟨hc, hrest⟩ := List.forall_mem_cons.mp hchanges
      exact fun t hdoor => TileChange.kind_of_kind_on hc (ih hrest (c.on t) hdoor)
  exact h.map fun t _ => hkind t

end Tiles

/-- What an instruction changes keeps its kind or becomes floor. -/
theorem Step.kind_of_mem_changes {block : Block} {robot : Robot} {tiles : Tiles} {size : GridSize}
    {c : TileChange} (h : c ∈ (execute block robot tiles size).changes) :
    c.kind = none ∨ c.kind = some .floor := by
  obtain ⟨opens, presses, halters⟩ : ∃ opens presses,
      Alters tiles opens presses (execute block robot tiles size).changes :=
    ⟨_, _, alters_execute block robot tiles size⟩
  generalize (execute block robot tiles size).changes = changes at halters h
  cases halters with
  | rests => cases h
  | takes t => exact .inr (List.mem_singleton.mp h ▸ rfl)
  | opens =>
    obtain ⟨door, -, rfl⟩ := List.mem_map.mp h
    exact .inr rfl
  | toggles =>
    obtain ⟨door, -, rfl⟩ := List.mem_map.mp h
    exact .inl rfl

/-! ## One instruction -/

variable {tiles now : Tiles}

/-- A command does the same among tiles in another order. -/
theorem Robot.obey_of_rearranged (h : tiles.Rearranged now) (hd : tiles.Distinct) (robot : Robot)
    (size : GridSize) (command : Command) :
    robot.obey size now command = robot.obey size tiles command := by
  have hat : now.at? = tiles.at? := funext (h.at?_eq hd)
  have hdoor : now.doorOf? = tiles.doorOf? := funext fun _ => h.firstOf?_door
  have henter : now.canEnter size = tiles.canEnter size := by
    funext p
    simp only [Tiles.canEnter, hat]
  have hland : ∀ robot : Robot, robot.land now = robot.land tiles := fun robot => by
    simp only [land, hat, hdoor]
  cases command with
  | moveForward | moveBackward => simp only [obey, walk, henter, hland]
  | jump => simp only [obey, jump, henter, hat, hland]
  | interact => simp only [obey, interact, hat, hdoor]
  | turnLeft | turnRight | wait | loopStart | loopEnd | ifStart | ifElse | ifEnd => rfl

theorem Step.execute_of_rearranged (h : tiles.Rearranged now) (hd : tiles.Distinct) (block : Block)
    (robot : Robot) (size : GridSize) :
    execute block robot now size = execute block robot tiles size := by
  simp only [execute, robot.settled.obey_of_rearranged h hd]

/-! ## Runs -/

variable {r : Run} {first : Tiles}

namespace Run

/-- The run with other tiles, in its level and now. -/
def withTiles (r : Run) (first now : Tiles) : Run :=
  { r with level := { r.level with tiles := first }, world := { r.world with tiles := now } }

/-- The tiles of a run at this moment can be told apart by their cells, and the goal tile is the only
one where the level asks for one. -/
structure Unambiguous (r : Run) : Prop where
  distinct : r.world.tiles.Distinct
  goal : r.level.goal.needsTile = true → ∃ t, r.world.tiles.filter (·.kind = .goal) = [t]

theorem unambiguous_of_reached {source : Text} {j : Json} {level : Level}
    (h : Level.read source j = .ok level) (hr : Reached level r) : r.Unambiguous := by
  have hd := Level.distinct_of_read h
  have hevolved := evolved_of_reached hd hr
  refine ⟨hevolved.distinct hd, fun hneeds => ?_⟩
  rw [level_of_reached hr] at hneeds
  obtain ⟨t, ht⟩ := Level.exists_goal_of_read h hneeds
  obtain ⟨f, hf, hlasts, -⟩ := hevolved
  refine ⟨f t, ?_⟩
  have hsame : level.tiles.filter ((fun t => decide (t.kind = .goal)) ∘ f) =
      level.tiles.filter (·.kind = .goal) := by
    refine List.filter_congr fun t ht => ?_
    exact decide_eq_decide.mpr
      ((hlasts t ht).kind_eq_iff (by decide) (by decide) (by decide) (by decide))
  rw [hf, List.filter_map, hsame, ht]
  rfl

end Run

/-- A turn of a run and of one with other tiles: both give the same, and leave the clock and the runs
the same but for the order of the tiles. -/
structure Turn.Alike {α : Type} (first : Tiles) (turn other : Turn α) : Prop where
  value : other.value = turn.value
  clock : other.clock = turn.clock
  run : ∃ now, turn.run.world.tiles.Rearranged now ∧ other.run = turn.run.withTiles first now

/-- Two turns give the same step, outcome or fault, and leave the clock and the runs the same but for
the order of the tiles. -/
structure Turn.SameButOrder (turn other : Turn Report) : Prop where
  value : other.value = turn.value
  clock : other.clock = turn.clock
  history : other.run.history = turn.run.history
  robot : other.run.world.robot = turn.run.world.robot
  outcome : other.run.outcome = turn.run.outcome
  tiles : other.run.world.tiles.Perm turn.run.world.tiles

theorem Turn.Alike.sameButOrder {turn other : Turn Report} (h : Turn.Alike first turn other) :
    turn.SameButOrder other := by
  obtain ⟨hvalue, hclock, now, hnow, hrun⟩ := h
  refine ⟨hvalue, hclock, ?_, ?_, ?_, ?_⟩ <;> rw [hrun]
  · rfl
  · rfl
  · rfl
  · exact hnow.perm

namespace Run

theorem judgement_withTiles (hu : r.Unambiguous) (h : r.world.tiles.Rearranged now) :
    judgement (r.withTiles first now).level (r.withTiles first now).world =
      judgement r.level r.world := by
  have hat : (!r.level.goal.needsTile || now.goal?.any (·.position == r.world.robot.position)) =
      (!r.level.goal.needsTile || r.world.tiles.goal?.any (·.position == r.world.robot.position)) := by
    cases hneeds : r.level.goal.needsTile with
    | false => rfl
    | true =>
      obtain ⟨t, ht⟩ := hu.goal hneeds
      have hgoal : now.goal? = r.world.tiles.goal? := h.firstOf?_of_only ht
      rw [hgoal]
  have hmet : (r.withTiles first now).level.isMetBy (r.withTiles first now).world =
      r.level.isMetBy r.world :=
    congrArg (· && (!r.level.goal.needsTreasure || r.level.hasTreasure r.world.robot)) hat
  simp only [judgement, hmet]

theorem alike_finish (h : r.world.tiles.Rearranged now) (step : Option Step) (reason : Option Text)
    (clock : Clock) :
    Turn.Alike first (r.finish step reason clock)
      ((r.withTiles first now).finish step reason clock) := by
  have hconclude : (r.withTiles first now).conclude reason clock = r.conclude reason clock := rfl
  simp only [finish, hconclude]
  cases r.conclude reason clock with
  | ok outcome => exact ⟨rfl, rfl, now, h, rfl⟩
  | error fault => exact ⟨rfl, rfl, now, h, rfl⟩

theorem execute_withTiles (hu : r.Unambiguous) (h : r.world.tiles.Rearranged now) (block : Block) :
    (r.withTiles first now).execute block = ((r.execute block).1,
      (r.execute block).2.withTiles first (now.apply (r.execute block).1.changes)) := by
  have hstep : Step.execute block r.world.robot now r.level.size =
      Step.execute block r.world.robot r.world.tiles r.level.size :=
    Step.execute_of_rearranged h hu.distinct block _ _
  simp only [execute, withTiles, hstep]
  rfl

/-- **A step does the same among tiles in another order**, and leaves them so. -/
theorem alike_step (hu : r.Unambiguous) (h : r.world.tiles.Rearranged now) (clock : Clock) :
    Turn.Alike first (r.step clock) ((r.withTiles first now).step clock) := by
  have houtcome : (r.withTiles first now).outcome = r.outcome := rfl
  have hcurrent : (r.withTiles first now).current? = r.current? := rfl
  unfold step
  rw [houtcome, hcurrent]
  cases r.outcome with
  | some outcome => exact ⟨rfl, rfl, now, h, rfl⟩
  | none =>
    cases r.current? with
    | none =>
      simp only [judgement_withTiles hu h]
      exact alike_finish h none _ clock
    | some block =>
      have hleft : (r.execute block).2.world.tiles.Rearranged
          (now.apply (r.execute block).1.changes) :=
        h.apply fun c hc => Step.kind_of_mem_changes hc
      simp only [execute_withTiles hu h]
      split
      · exact ⟨rfl, rfl, _, hleft, rfl⟩
      · exact alike_finish hleft _ _ clock

theorem alike_start (h : r.level.tiles.Rearranged first) (blocks : List Block) (clock : Clock) :
    Turn.Alike first (r.start blocks clock) ((r.withTiles first now).start blocks clock) := by
  have hcap : (r.withTiles first now).cap = r.cap := rfl
  simp only [start, hcap]
  cases Unrolled.unroll r.cap blocks with
  | none => exact ⟨rfl, rfl, first.atStart, h.atStart, rfl⟩
  | some stream => exact ⟨rfl, rfl, first.atStart, h.atStart, rfl⟩

/-- All turns do the same among tiles in another order. -/
theorem alike_turn {source : Text} {j : Json} {level : Level} (h : Level.read source j = .ok level)
    (hr : Reached level r) (hnow : r.world.tiles.Rearranged now) (clock : Clock) (n : Nat) :
    Turn.Alike first (r.turn clock n) ((r.withTiles first now).turn clock n) := by
  induction n with
  | zero => exact alike_step (unambiguous_of_reached h hr) hnow clock
  | succ n ih =>
    obtain ⟨-, hclock, now, hnow, hrun⟩ := ih
    rw [turn, turn, hclock, hrun]
    exact alike_step (unambiguous_of_reached h (reached_turn hr clock n)) hnow _

/-- **The order of tiles does not matter**, but for that of the doors: a program is started and runs
alike in a level that has been read and in the level with its tiles in another order. -/
theorem sameButOrder_of_rearranged {source : Text} {j : Json} {level : Level}
    (h : Level.read source j = .ok level) {tiles : Tiles} (htiles : level.tiles.Rearranged tiles)
    (limit : Option Int) (blocks : List Block) (clock : Clock) :
    let started := (fresh level limit).start blocks clock
    let other := (fresh { level with tiles } limit).start blocks clock
    other.value = started.value ∧ ∀ n, Turn.SameButOrder (started.run.turn started.clock n)
      (other.run.turn other.clock n) := by
  intro started other
  have hstart : Turn.Alike tiles started
      (((fresh level limit).withTiles tiles tiles.atStart).start blocks clock) :=
    alike_start htiles blocks clock
  obtain ⟨hvalue, hclock, now, hnow, hrun⟩ : Turn.Alike tiles started other := hstart
  refine ⟨hvalue, fun n => ?_⟩
  rw [hclock, hrun]
  exact (alike_turn h (.start (.fresh limit) blocks clock) hnow started.clock n).sameButOrder

end Run

/-! ## A sample -/

/-- The tiles of the hallway with the doors in front, and the others from right to left. -/
def hallwayShuffled : Tiles :=
  hallway.tiles.doors ++ (hallway.tiles.filter fun t => !decide (t.kind = .door)).reverse

theorem rearranged_hallway : hallway.tiles.Rearranged hallwayShuffled where
  perm := ((List.reverse_perm _).append_left _).trans (List.filter_append_perm _ hallway.tiles)
  doors := by simp [hallwayShuffled, Tiles.doors, List.filter_append, List.filter_filter]

open Run in
/-- The robot goes into the hallway, whichever way its tiles are listed. -/
theorem sameButOrder_hallway :
    let started := (fresh hallway none).start intoHallway .still
    let other := (fresh { hallway with tiles := hallwayShuffled } none).start intoHallway .still
    (started.run.turn started.clock 3).run.history.map Step.success = [true, true, true, true] ∧
      (other.run.turn other.clock 3).run.history = (started.run.turn started.clock 3).run.history ∧
      (other.run.turn other.clock 3).run.world.tiles.Perm
        (started.run.turn started.clock 3).run.world.tiles := by
  intro started other
  have hread : Level.read "hallway.json" hallwayFile = .ok hallway := by with_unfolding_all rfl
  obtain ⟨-, hturns⟩ :=
    sameButOrder_of_rearranged hread rearranged_hallway none intoHallway .still
  exact ⟨by decide +kernel, (hturns 3).history, (hturns 3).tiles⟩

/-- With the doors in another order the first button opens the other door. -/
example :
    let started := (Run.fresh { hallway with tiles := hallway.tiles.reverse } none).start
      intoHallway .still
    (started.run.turn started.clock 1).run.history.map Step.success = [true, false] := by
  decide +kernel

end RobotPuzzle
