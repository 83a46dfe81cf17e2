import RobotPuzzle.Proofs.Run.Doors

/-!
# Where the robot stands

A move or a jump is refused unless the grid has the cell that it leads to and the tile there lets
the robot in, so from its first change of cell on the robot stands on tiles that are neither walls
nor pits. A spike lets it in and fails the instruction, which ends the run; jumps are refused there.

Only the start is not asked for: its cell may have any tile or none, and a robot that has never left
it may stand on a spike.

* `Robot.obey_cases`: an instruction keeps the robot on its cell, or takes it onto a tile.
* `Step.grounded_execute`: what one instruction keeps.
* `Run.failed_last`: an instruction that fails is the last one, if the clock can tell the time.
* `Run.onGround_of_reached`: where the robot stands at any moment of any run.
-/

namespace RobotPuzzle

/-- Whether a spike lies on a cell. -/
def Tiles.hasSpike (tiles : Tiles) (p : Position) : Bool := (tiles.at? p).any (·.kind = .spike)

namespace Robot

/-! ## One instruction -/

/-- An instruction has left the robot on its cell, and not because of a spike. -/
structure Keeps (robot : Robot) (e : Effect) : Prop where
  cell : e.robot.position = robot.position
  message : e.success = false → e.message ≠ messages.spike

/-- An instruction has taken the robot onto a tile that let it in, and failed if it is a spike. -/
structure Enters (size : GridSize) (tiles : Tiles) (e : Effect) (t : Tile) : Prop where
  inside : size.has e.robot.position = true
  tile : tiles.at? e.robot.position = some t
  admits : t.admits = true
  success : e.success = false ↔ t.kind = .spike
  message : e.success = false → e.message = messages.spike

variable {robot : Robot} {size : GridSize} {tiles : Tiles}

theorem position_land (robot : Robot) (tiles : Tiles) :
    (robot.land tiles).robot.position = robot.position := by
  unfold land
  repeat' split
  all_goals rfl

theorem success_land {t : Tile} (h : tiles.at? robot.position = some t) :
    (robot.land tiles).success = false ↔ t.kind = .spike := by
  simp only [land, h]
  split
  · next hkind => simp [hkind, Effect.failure]
  · next hkind => simp [hkind]
  · next hkind => simp [hkind]
  · next hkind => split <;> simp [hkind, Effect.quiet]
  · next hspike _ _ _ => simp [Effect.quiet, show t.kind ≠ .spike from hspike]

theorem enters_land (robot : Robot) (h : tiles.canEnter size robot.position = true) :
    ∃ t, Enters size tiles (robot.land tiles) t := by
  obtain ⟨hin, hany⟩ := Bool.and_eq_true_iff.mp h
  obtain ⟨t, ht, hadmits⟩ := (Option.any_eq_true _ _).mp hany
  have hp := position_land robot tiles
  exact ⟨t, hp ▸ hin, hp ▸ ht, hadmits, success_land ht, message_land⟩

theorem walk_cases (robot : Robot) (size : GridSize) (tiles : Tiles) (steps : Int) {blocked : Text}
    (hblocked : blocked ≠ messages.spike) :
    robot.Keeps (robot.walk size tiles steps blocked) ∨
      ∃ t, Enters size tiles (robot.walk size tiles steps blocked) t := by
  unfold walk
  simp only
  split
  · next hcan => exact .inr (enters_land _ hcan)
  · exact .inl ⟨rfl, fun _ => hblocked⟩

theorem jump_cases (robot : Robot) (size : GridSize) (tiles : Tiles) :
    (robot.Keeps (robot.jump size tiles) ∧ (robot.jump size tiles).success = false) ∨
      ∃ t, Enters size tiles (robot.jump size tiles) t ∧ t.kind ≠ .spike := by
  unfold jump
  simp only
  split
  · next hcan =>
    obtain ⟨hcan, hspike⟩ := Bool.and_eq_true_iff.mp hcan
    obtain ⟨t, ht⟩ := enters_land { robot with position := robot.cellAhead 2, jumping := true } hcan
    have hat : tiles.at? (robot.cellAhead 2) = some t := by
      have := ht.tile
      rwa [position_land] at this
    exact .inr ⟨t, ht, by simpa [hat] using hspike⟩
  · exact .inl ⟨⟨rfl, fun _ => show messages.blockedJump ≠ messages.spike by decide⟩, rfl⟩

theorem keeps_interact (robot : Robot) (tiles : Tiles) : robot.Keeps (robot.interact tiles) := by
  refine ⟨?_, fun h => ?_⟩
  · unfold interact
    repeat' split
    all_goals rfl
  · cases (success_interact robot tiles).symm.trans h

/-- An instruction keeps the robot on its cell, or takes it onto a tile. A jump that keeps it there
fails, and a jump onto a tile is none onto a spike. -/
theorem obey_cases (robot : Robot) (size : GridSize) (tiles : Tiles) (command : Command) :
    let e := robot.obey size tiles command
    (robot.Keeps e ∧ (command = .jump → e.success = false)) ∨
      ∃ t, Enters size tiles e t ∧ (command = .jump → t.kind ≠ .spike) := by
  cases command with
  | moveForward =>
    exact (walk_cases robot size tiles 1 (by decide)).imp (fun h => ⟨h, nofun⟩)
      fun ⟨t, ht⟩ => ⟨t, ht, nofun⟩
  | moveBackward =>
    exact (walk_cases robot size tiles (-1) (by decide)).imp (fun h => ⟨h, nofun⟩)
      fun ⟨t, ht⟩ => ⟨t, ht, nofun⟩
  | jump =>
    exact (jump_cases robot size tiles).imp (fun ⟨h, hfail⟩ => ⟨h, fun _ => hfail⟩)
      fun ⟨t, ht, hspike⟩ => ⟨t, ht, fun _ => hspike⟩
  | interact => exact .inl ⟨keeps_interact robot tiles, nofun⟩
  | turnLeft | turnRight | wait | loopStart | loopEnd | ifStart | ifElse | ifEnd =>
    exact .inl ⟨⟨rfl, nofun⟩, nofun⟩

end Robot

/-! ## Tiles that do not change -/

/-- Walls, pits and spikes stay what they are, and no other tile becomes one. -/
theorem Tile.Lasts.kind_eq_iff {t t' : Tile} (h : t.Lasts t') {kind : TileKind}
    (hcoin : kind ≠ .coin) (hgem : kind ≠ .gem) (hdoor : kind ≠ .door) (hfloor : kind ≠ .floor) :
    t'.kind = kind ↔ t.kind = kind := by
  constructor
  · rintro rfl
    rcases h.kind with hkind | hkind
    · exact hkind.symm
    · exact absurd hkind hfloor
  · rintro rfl
    rw [h.same hcoin hgem hdoor]

theorem Tile.kind_ne_of_admits {t : Tile} (h : t.admits = true) :
    t.kind ≠ .wall ∧ t.kind ≠ .pit := by
  constructor
  all_goals
    intro hkind
    simp [admits, isWalkable, hkind, TileKind.isOpenGround] at h

theorem Tiles.Evolved.at?_eq_some {tiles now : Tiles} {history : List Step}
    (h : tiles.Evolved history now) {p : Position} {t' : Tile} (hat : now.at? p = some t') :
    ∃ t, tiles.at? p = some t ∧ t.Lasts t' := by
  obtain ⟨f, rfl, hf, -⟩ := h
  rw [at?_map fun t ht => (hf t ht).cell] at hat
  obtain ⟨t, ht, rfl⟩ := Option.map_eq_some_iff.mp hat
  exact ⟨t, ht, hf t (Tiles.at?_eq_some ht).1⟩

/-- A tile of the level has become one on the same cell. -/
theorem Tiles.Evolved.exists_at? {tiles now : Tiles} {history : List Step}
    (h : tiles.Evolved history now) {p : Position} {t : Tile} (hat : tiles.at? p = some t) :
    ∃ t', now.at? p = some t' ∧ t.Lasts t' := by
  obtain ⟨f, rfl, hf, -⟩ := h
  refine ⟨f t, ?_, hf t (Tiles.at?_eq_some hat).1⟩
  rw [at?_map fun t ht => (hf t ht).cell, hat, Option.map_some]

theorem Tiles.Evolved.hasSpike {tiles now : Tiles} {history : List Step}
    (h : tiles.Evolved history now) (p : Position) : now.hasSpike p = tiles.hasSpike p := by
  cases hat : tiles.at? p with
  | none =>
    have hnow : now.at? p = none := by
      cases hnow : now.at? p with
      | none => rfl
      | some t' =>
        obtain ⟨t, ht, -⟩ := h.at?_eq_some hnow
        rw [hat] at ht
        cases ht
    simp [Tiles.hasSpike, hat, hnow]
  | some t =>
    obtain ⟨t', hnow, hlasts⟩ := h.exists_at? hat
    have hkind : t'.kind = .spike ↔ t.kind = .spike :=
      hlasts.kind_eq_iff (by decide) (by decide) (by decide) (by decide)
    simp [Tiles.hasSpike, hat, hnow, hkind]

namespace Step

/-! ## Histories -/

/-- No step has taken the robot away from a cell. -/
def AllAt (cell : Position) (history : List Step) : Prop := ∀ s ∈ history, s.robot.position = cell

/-- A step that failed on a spike. -/
structure Hurts (s : Step) : Prop where
  failed : s.success = false
  message : s.message = messages.spike

/-- The cell that steps have left the robot on. -/
def cellAfter (start : Position) (history : List Step) : Position :=
  (history.getLast?.map fun s => s.robot.position).getD start

theorem cellAfter_concat (start : Position) (history : List Step) (s : Step) :
    cellAfter start (history ++ [s]) = s.robot.position := by
  simp [cellAfter]

theorem allAt_nil (cell : Position) : AllAt cell [] :=
  fun _ hs => absurd hs List.not_mem_nil

theorem AllAt.cellAfter {start : Position} {history : List Step} (h : AllAt start history) :
    cellAfter start history = start := by
  unfold Step.cellAfter
  cases hlast : history.getLast? with
  | none => rfl
  | some s => exact h s (List.mem_of_getLast? hlast)

theorem AllAt.concat {cell : Position} {history : List Step} (h : AllAt cell history) {s : Step}
    (hs : s.robot.position = cell) : AllAt cell (history ++ [s]) := by
  intro u hu
  rcases List.mem_append.mp hu with hu | hu
  · exact h u hu
  · rwa [List.mem_singleton.mp hu]

/-- Where the robot of a level stands after the steps of a history, and how it got there. -/
structure Grounded (level : Level) (history : List Step) (cell : Position) : Prop where
  stands : cell = cellAfter level.start history
  inside : level.size.has cell = true
  /-- A robot that has left its start is on a tile that lets it in. -/
  ground : AllAt level.start history ∨
    ∃ t, level.tiles.at? cell = some t ∧ t.kind ≠ .wall ∧ t.kind ≠ .pit
  /-- A step that ends on a spike has got there by failing, unless it started there. -/
  spikes : ∀ before s, before ++ [s] <+: history → level.tiles.hasSpike s.robot.position = true →
    AllAt level.start (before ++ [s]) ∨ ∃ u ∈ before ++ [s], u.Hurts
  /-- Jumps land on no spikes, and do not fail on them. -/
  jumps : ∀ s ∈ history, s.command = .jump →
    ¬ s.Hurts ∧ (s.success = true → level.tiles.hasSpike s.robot.position = false)

variable {level : Level} {history : List Step} {cell : Position}

theorem grounded_nil (h : level.size.has level.start = true) : Grounded level [] level.start where
  stands := rfl
  inside := h
  ground := .inl (allAt_nil level.start)
  spikes before s hpre := by simp at hpre
  jumps s hs := absurd hs List.not_mem_nil

/-- Where the robot stands on a spike, it started there or has failed there. -/
theorem Grounded.spike (h : Grounded level history cell)
    (hspike : level.tiles.hasSpike cell = true) :
    AllAt level.start history ∨ ∃ u ∈ history, u.Hurts := by
  rcases List.eq_nil_or_concat history with rfl | ⟨before, s, rfl⟩
  · exact .inl (allAt_nil level.start)
  · rw [List.concat_eq_append] at h ⊢
    refine h.spikes before s (List.prefix_refl _) ?_
    rwa [h.stands, cellAfter_concat] at hspike

/-- A further step leaves the robot grounded if it does so on its own cell. -/
theorem Grounded.concat (h : Grounded level history cell) {s : Step}
    (hinside : level.size.has s.robot.position = true)
    (hground : AllAt level.start (history ++ [s]) ∨
      ∃ t, level.tiles.at? s.robot.position = some t ∧ t.kind ≠ .wall ∧ t.kind ≠ .pit)
    (hspike : level.tiles.hasSpike s.robot.position = true →
      AllAt level.start (history ++ [s]) ∨ ∃ u ∈ history ++ [s], u.Hurts)
    (hjump : s.command = .jump →
      ¬ s.Hurts ∧ (s.success = true → level.tiles.hasSpike s.robot.position = false)) :
    Grounded level (history ++ [s]) s.robot.position where
  stands := (cellAfter_concat level.start history s).symm
  inside := hinside
  ground := hground
  spikes before u hpre hu := by
    rcases List.prefix_concat_iff.mp hpre with heq | hpre
    · obtain ⟨rfl, hus⟩ := List.append_inj' heq rfl
      obtain rfl : u = s := by simpa using hus
      exact hspike hu
    · exact h.spikes before u hpre hu
  jumps u hu hcommand := by
    rcases List.mem_append.mp hu with hu | hu
    · exact h.jumps u hu hcommand
    · obtain rfl := List.mem_singleton.mp hu
      exact hjump hcommand

/-- **One instruction keeps the robot grounded.** -/
theorem grounded_execute {world : World} (hevolved : level.tiles.Evolved history world.tiles)
    (h : Grounded level history world.robot.position) (block : Block) (isLast : Bool) :
    let step := { execute block world.robot world.tiles level.size with isLast }
    Grounded level (history ++ [step]) step.robot.position := by
  have hcases := world.robot.settled.obey_cases level.size world.tiles block.command
  intro step
  have hstep : step.robot = (world.robot.settled.obey level.size world.tiles block.command).robot ∧
      step.success = (world.robot.settled.obey level.size world.tiles block.command).success ∧
      step.message = (world.robot.settled.obey level.size world.tiles block.command).message ∧
      step.command = block.command := ⟨rfl, rfl, rfl, rfl⟩
  generalize world.robot.settled.obey level.size world.tiles block.command = e at hcases hstep
  obtain ⟨hrobot, hsuccess, hmessage, hcommand⟩ := hstep
  rcases hcases with ⟨hkeeps, hjump⟩ | ⟨t', henters, hjump⟩
  · have hcell : step.robot.position = world.robot.position := hrobot ▸ hkeeps.cell
    have hall : AllAt level.start history → AllAt level.start (history ++ [step]) := fun hall =>
      hall.concat (hcell.trans (h.stands.trans hall.cellAfter))
    refine h.concat (hcell ▸ h.inside) (h.ground.imp hall (hcell ▸ ·)) (fun hspike => ?_)
      fun hc => ⟨fun hhurts => ?_, fun hs => ?_⟩
    · exact (h.spike (hcell ▸ hspike)).imp hall fun ⟨u, hu, hhurts⟩ =>
        ⟨u, List.mem_append_left _ hu, hhurts⟩
    · exact hkeeps.message (hsuccess ▸ hhurts.failed) (hmessage ▸ hhurts.message)
    · rw [hsuccess, hjump (hcommand ▸ hc)] at hs
      cases hs
  · obtain ⟨t, ht, hlasts⟩ := hevolved.at?_eq_some henters.tile
    rw [← hrobot] at ht
    have hfixed : ∀ {kind : TileKind}, kind ≠ .coin → kind ≠ .gem → kind ≠ .door → kind ≠ .floor →
        (t'.kind = kind ↔ t.kind = kind) := hlasts.kind_eq_iff
    obtain ⟨hwall, hpit⟩ := Tile.kind_ne_of_admits henters.admits
    rw [Ne, hfixed (by decide) (by decide) (by decide) (by decide)] at hwall hpit
    have hspike : level.tiles.hasSpike step.robot.position = true ↔ step.success = false := by
      rw [hsuccess, henters.success, hfixed (by decide) (by decide) (by decide) (by decide)]
      simp [Tiles.hasSpike, ht]
    have hhurts : step.success = false → step.Hurts := fun hfail =>
      ⟨hfail, hmessage.trans (henters.message (hsuccess.symm.trans hfail))⟩
    have hlanded : step.command = .jump → step.success ≠ false := fun hc hfail =>
      hjump (hcommand.symm.trans hc) (henters.success.mp (hsuccess.symm.trans hfail))
    refine h.concat (hrobot ▸ henters.inside) (.inr ⟨t, ht, hwall, hpit⟩) (fun hs => ?_)
      fun hc => ⟨fun hh => hlanded hc hh.failed, fun hs => ?_⟩
    · exact .inr ⟨step, List.mem_append_right _ List.mem_cons_self, hhurts (hspike.mp hs)⟩
    · simpa [hs] using hspike

end Step

namespace Run

variable {level : Level} {r : Run}

/-- At every moment of every run the robot is grounded. -/
theorem grounded_of_reached (hd : level.tiles.Distinct)
    (hstart : level.size.has level.start = true) (hr : Reached level r) :
    Step.Grounded level r.history r.world.robot.position := by
  have hinitial : level.initialWorld.robot.position = level.start := rfl
  refine (holds_of_reached (P := fun history world =>
      level.tiles.Evolved history world.tiles ∧ Step.Grounded level history world.robot.position)
    ⟨Tiles.evolved_initial level, hinitial ▸ Step.grounded_nil hstart⟩
    (fun history world block isLast ⟨hevolved, hgrounded⟩ => ?_) hr).2.2
  exact ⟨Tiles.evolved_apply hd hevolved
    (Step.alters_execute block world.robot world.tiles level.size),
    Step.grounded_execute hevolved hgrounded block isLast⟩

/-! ## Runs that end in time -/

/-- The moments of the runs of a level whose clocks are a finite time past the start with each call
of `step`. -/
inductive ReachedInTime (level : Level) : Run → Prop where
  | fresh (limit : Option Int) : ReachedInTime level (.fresh level limit)
  | start {r : Run} (h : ReachedInTime level r) (blocks : List Block) (clock : Clock) :
      ReachedInTime level (r.start blocks clock).run
  | reset {r : Run} (h : ReachedInTime level r) : ReachedInTime level r.reset
  | step {r : Run} (h : ReachedInTime level r) (clock : Clock)
      (htime : ∃ ms, r.elapsed clock = .ok ms) : ReachedInTime level (r.step clock).run

theorem ReachedInTime.reached (h : ReachedInTime level r) : Reached level r := by
  induction h with
  | fresh limit => exact .fresh limit
  | start h blocks clock ih => exact .start ih blocks clock
  | reset h ih => exact .reset ih
  | step h clock htime ih => exact .step ih clock

/-- An instruction that failed is the last one, and has ended the run. -/
structure FailedLast (r : Run) : Prop where
  before : ∀ s ∈ r.history.dropLast, s.success = true
  ended : (∃ s ∈ r.history, s.success = false) → r.outcome.isSome = true

theorem FailedLast.getLast? (h : r.FailedLast) {s : Step} (hs : s ∈ r.history)
    (hfail : s.success = false) : r.history.getLast? = some s := by
  have hbefore := h.before
  rcases List.eq_nil_or_concat r.history with hnil | ⟨before, last, hhistory⟩
  · rw [hnil] at hs
    cases hs
  · rw [List.concat_eq_append] at hhistory
    rw [hhistory, List.dropLast_concat] at hbefore
    rw [hhistory] at hs ⊢
    rcases List.mem_append.mp hs with hs | hs
    · cases (hbefore s hs).symm.trans hfail
    · rw [List.mem_singleton.mp hs, List.getLast?_concat]

theorem failedLast_of_forall (h : ∀ s ∈ r.history, s.success = true) : r.FailedLast := by
  refine ⟨fun s hs => h s (List.dropLast_subset _ hs), fun ⟨s, hs, hfail⟩ => ?_⟩
  cases (h s hs).symm.trans hfail

theorem failedLast_of_nil (h : r.history = []) : r.FailedLast := by
  refine failedLast_of_forall fun s hs => ?_
  rw [h] at hs
  cases hs

/-- Where nothing has failed, a call of `step` that can tell the time ends the run if its
instruction fails. -/
theorem failedLast_execute (hopt : 0 ≤ r.level.optimal) (hall : ∀ s ∈ r.history, s.success = true)
    {clock : Clock} (htime : ∃ ms, r.elapsed clock = .ok ms) (block : Block) :
    let step := (r.execute block).1
    let after := (r.execute block).2
    (step.success = true → after.FailedLast) ∧
      (after.finish (some step) (some (reasonOf step)) clock).run.FailedLast := by
  have hhistory : (r.execute block).2.history = r.history ++ [(r.execute block).1] := rfl
  refine ⟨fun hsuccess => failedLast_of_forall fun s hs => ?_, ?_⟩
  · rcases List.mem_append.mp (hhistory ▸ hs) with hs | hs
    · exact hall s hs
    · exact List.mem_singleton.mp hs ▸ hsuccess
  · obtain ⟨o, ho⟩ : ∃ o, (r.execute block).2.conclude
        (some (reasonOf (r.execute block).1)) clock = .ok o :=
      exists_conclude htime hopt nofun
    rw [finish_of_conclude ho]
    refine ⟨fun s hs => ?_, fun _ => rfl⟩
    rw [hhistory, List.dropLast_concat] at hs
    exact hall s hs

/-- Calls of `step` that can tell the time let no instruction follow one that failed. -/
theorem failedLast_step (hopt : 0 ≤ r.level.optimal) (h : r.FailedLast) {clock : Clock}
    (htime : ∃ ms, r.elapsed clock = .ok ms) : (r.step clock).run.FailedLast := by
  cases hout : r.outcome with
  | some o =>
    rw [step_of_outcome hout]
    exact h
  | none =>
    have hall : ∀ s ∈ r.history, s.success = true := by
      intro s hs
      by_contra hfail
      have := h.ended ⟨s, hs, by simpa using hfail⟩
      simp [hout] at this
    simp only [step, hout]
    split
    · obtain ⟨outcome, hrun⟩ := r.run_finish_eq none (judgement r.level r.world) clock
      exact failedLast_of_forall (by rw [hrun]; exact hall)
    · next block hblock =>
      obtain ⟨hgoes, hends⟩ := failedLast_execute hopt hall htime block
      cases hsuccess : (r.execute block).1.success with
      | true => exact hgoes hsuccess
      | false => exact hends

theorem level_of_reached (hr : Reached level r) : r.level = level :=
  (holds_of_reached (P := fun _ _ => True) trivial (fun _ _ _ _ _ => trivial) hr).1

/-- **An instruction that fails is the last one**, where the clock can tell the time. -/
theorem failed_last (hopt : 0 ≤ level.optimal) (h : ReachedInTime level r) : r.FailedLast := by
  induction h with
  | fresh limit => exact failedLast_of_nil rfl
  | @start r h blocks clock ih =>
    refine failedLast_of_nil ?_
    unfold start
    split <;> rfl
  | reset h ih => exact failedLast_of_nil rfl
  | @step r h clock htime ih =>
    exact failedLast_step (level_of_reached h.reached ▸ hopt) ih htime

/-- A run that is over does not go on. -/
theorem eq_of_onward {r' : Run} (hout : r.outcome.isSome = true) (h : r.Onward r') : r' = r := by
  obtain ⟨o, ho⟩ := Option.isSome_iff_exists.mp hout
  induction h with
  | here => rfl
  | step h clock ih => rw [ih, step_of_outcome ho]

/-! ## The robot of a run -/

/-- Where the robot stands at a moment of a run. -/
structure OnGround (r : Run) (level : Level) : Prop where
  inside : level.size.has r.world.robot.position = true
  /-- No step has changed the robot's cell, or it stands on a tile that is neither wall nor pit. -/
  ground : (∀ s ∈ r.history, s.robot.position = level.start) ∨
    ∃ t, r.world.tiles.at? r.world.robot.position = some t ∧ t.kind ≠ .wall ∧ t.kind ≠ .pit
  /-- No jump takes the robot onto a spike. -/
  jumps : ∀ s ∈ r.history, s.command = .jump → s.success = true →
    r.world.tiles.hasSpike s.robot.position = false

/-- What spikes do to a run. -/
structure EndsOnSpikes (r : Run) (level : Level) : Prop where
  /-- A robot that has changed its cell stands on a spike only where the last step failed on it. -/
  spike : r.world.tiles.hasSpike r.world.robot.position = true →
    (∀ s ∈ r.history, s.robot.position = level.start) ∨
      ∃ s, r.history.getLast? = some s ∧ s.success = false ∧ s.message = messages.spike
  /-- A run that has failed on a spike executes nothing more. -/
  ended : (∃ s ∈ r.history, s.success = false ∧ s.message = messages.spike) →
    ∀ r', r.Onward r' → r' = r
  /-- A jump ends on a spike only if it was refused to a robot that no step has taken from there. -/
  jumps : ∀ before s, before ++ [s] <+: r.history → s.command = .jump →
    r.world.tiles.hasSpike s.robot.position = true →
    s.success = false ∧ ∀ u ∈ before ++ [s], u.robot.position = level.start

theorem onGround_of_grounded (hevolved : level.tiles.Evolved r.history r.world.tiles)
    (h : Step.Grounded level r.history r.world.robot.position) : r.OnGround level where
  inside := h.inside
  ground := by
    refine h.ground.imp_right fun ⟨t, ht, hwall, hpit⟩ => ?_
    obtain ⟨t', ht', hlasts⟩ := hevolved.exists_at? ht
    refine ⟨t', ht', ?_, ?_⟩
    all_goals rwa [Ne, hlasts.kind_eq_iff (by decide) (by decide) (by decide) (by decide)]
  jumps s hs hjump hsuccess := by
    rw [hevolved.hasSpike]
    exact (h.jumps s hs hjump).2 hsuccess

theorem endsOnSpikes_of_grounded (hevolved : level.tiles.Evolved r.history r.world.tiles)
    (h : Step.Grounded level r.history r.world.robot.position) (hlast : r.FailedLast) :
    r.EndsOnSpikes level where
  spike hspike := by
    rw [hevolved.hasSpike] at hspike
    refine (h.spike hspike).imp_right fun ⟨u, hu, hhurts⟩ => ?_
    exact ⟨u, hlast.getLast? hu hhurts.failed, hhurts.failed, hhurts.message⟩
  ended := fun ⟨s, hs, hfail, _⟩ r' hon => eq_of_onward (hlast.ended ⟨s, hs, hfail⟩) hon
  jumps before s hpre hjump hspike := by
    rw [hevolved.hasSpike] at hspike
    have hs : s ∈ r.history := hpre.subset (List.mem_append_right _ List.mem_cons_self)
    obtain ⟨hunhurt, hlands⟩ := h.jumps s hs hjump
    -- What comes before the jump has succeeded, and the jump itself fails on no spike.
    have hnever : ∀ u ∈ before ++ [s], ¬ u.Hurts := by
      intro u hu hhurts
      rcases List.mem_append.mp hu with hu | hu
      · have hlength := hpre.length_le
        rw [List.length_append, List.length_singleton] at hlength
        have hpart : before <+: r.history.dropLast :=
          List.prefix_of_prefix_length_le ((List.prefix_append before [s]).trans hpre)
            (List.dropLast_prefix _) (by rw [List.length_dropLast]; omega)
        cases (hlast.before u (hpart.subset hu)).symm.trans hhurts.failed
      · exact hunhurt (List.mem_singleton.mp hu ▸ hhurts)
    refine ⟨?_, (h.spikes before s hpre hspike).resolve_right fun ⟨u, hu, hhurts⟩ =>
      hnever u hu hhurts⟩
    by_contra hsuccess
    rw [hlands (by simpa using hsuccess)] at hspike
    cases hspike

/-- **The robot stays on legal ground.** At every moment of every run of a level that has been read,
the robot is inside the grid and, once a step has changed its cell, on a tile that is neither wall
nor pit; no jump takes it onto a spike. Where the clock can tell the time, a spike ends the run with
the step that failed on it, and a jump ends on one only where the level starts on it. -/
theorem onGround_of_reached {source : Text} {j : Json} {level : Level}
    (h : Level.read source j = .ok level) :
    (∀ r, Reached level r → r.OnGround level) ∧
      ∀ r, ReachedInTime level r → r.EndsOnSpikes level := by
  have hwell := Level.wellFormed_of_read h
  have hd := Level.distinct_of_read h
  have hgrounded : ∀ {r}, Reached level r → Step.Grounded level r.history r.world.robot.position :=
    fun hr => grounded_of_reached hd hwell.start_inside hr
  refine ⟨fun r hr => onGround_of_grounded (evolved_of_reached hd hr) (hgrounded hr),
    fun r hr => ?_⟩
  exact endsOnSpikes_of_grounded (evolved_of_reached hd hr.reached) (hgrounded hr.reached)
    (failed_last (Int.le_of_lt hwell.one_le_optimal) hr)

end Run

/-! ## A sample -/

/-- Two spikes and a floor. The robot starts on the first spike. -/
def spikesFile : Json :=
  .obj [("id", .int 1), ("name", .str "Spikes"), ("available_commands", .arr []),
    ("max_blocks", .int 4), ("goal_type", .str "collect_all"), ("layout", .arr [.str "^^."]),
    ("start_position", .arr [.int 0, .int 0])]

/-- The level that is drawn. -/
def spikes : Level :=
  { id := 1, name := "Spikes", chapter := 1, chapterName := "", description := ""
    difficulty := .beginner, size := ⟨1, 3⟩
    tiles := [.plain "t-0-0" .spike ⟨0, 0⟩, .plain "t-0-1" .spike ⟨0, 1⟩,
      .plain "t-0-2" .floor ⟨0, 2⟩]
    start := ⟨0, 0⟩, facing := .right, commands := [], maxBlocks := 4
    optimalBlocks := none, goal := .collectAll, coinsRequired := 0, gemsRequired := 0
    hints := [] }

theorem read_spikes : Level.read "spikes.json" spikesFile = .ok spikes := by with_unfolding_all rfl

/-- Onto the second spike, and on to the floor. -/
def overSpikes : List Block :=
  [⟨.moveForward, "1", 0, none⟩, ⟨.moveForward, "2", 0, none⟩]

/-- A turn to face the edge of the grid, and a jump. -/
def jumpOffGrid : List Block :=
  [⟨.turnLeft, "1", 0, none⟩, ⟨.jump, "2", 0, none⟩]

open Run in
/-- The move onto the second spike fails and ends the run. The jump off the grid is refused, and
ends on the spike that the level starts on. -/
theorem onGround_spikes :
    let hurt := (((fresh spikes none).start overSpikes .still).run.step .still).run
    let turned := ((fresh spikes none).start jumpOffGrid .still).run.step .still
    let jumped := (turned.run.step .still).run
    (hurt.world.tiles.hasSpike hurt.world.robot.position = true ∧ hurt.OnGround spikes ∧
      hurt.EndsOnSpikes spikes) ∧
    jumped.world.tiles.hasSpike jumped.world.robot.position = true ∧ jumped.OnGround spikes ∧
      jumped.EndsOnSpikes spikes := by
  intro hurt turned jumped
  have hhurt : ReachedInTime spikes hurt :=
    .step (.start (.fresh none) overSpikes .still) .still ⟨0, by with_unfolding_all rfl⟩
  have hjumped : ReachedInTime spikes jumped :=
    .step (.step (.start (.fresh none) jumpOffGrid .still) .still ⟨0, by with_unfolding_all rfl⟩)
      .still ⟨0, by with_unfolding_all rfl⟩
  obtain ⟨hground, hends⟩ := onGround_of_reached read_spikes
  exact ⟨⟨by decide +kernel, hground _ hhurt.reached, hends _ hhurt⟩,
    by decide +kernel, hground _ hjumped.reached, hends _ hjumped⟩

/-- A clock whose second reading is too great for a double, and so no finite time past the first. -/
def Clock.overflowing : Clock := ⟨.real 0.0, [.whole (10 ^ 400)]⟩

open Run in
/-- A spike need not end the run, and a jump may end on one. The step that fails on the second spike
leaves the run without an outcome where the clock cannot tell the time, and a further call of `step`
executes the next instruction. The jump off the grid leaves the robot where the level starts it. -/
theorem spikes_go_on :
    let started := (fresh spikes none).start overSpikes .overflowing
    let hurt := started.run.step started.clock
    let gone := hurt.run.step hurt.clock
    let turned := ((fresh spikes none).start jumpOffGrid .still).run.step .still
    let jumped := (turned.run.step .still).run
    Level.read "spikes.json" spikesFile = .ok spikes ∧
      (Reached spikes gone.run ∧
        hurt.run.history.map (fun s => (s.success, s.message)) = [(false, messages.spike)] ∧
        hurt.run.Onward gone.run ∧ gone.run.history.length = 2) ∧
      Reached spikes jumped ∧ ∃ s ∈ jumped.history, s.command = .jump ∧
        jumped.world.tiles.hasSpike s.robot.position = true := by
  intro started hurt gone turned jumped
  have hreached : Reached spikes gone.run :=
    .step (.step (.start (.fresh none) overSpikes .overflowing) _) _
  have hjumped : Reached spikes jumped :=
    .step (.step (.start (.fresh none) jumpOffGrid .still) .still) .still
  refine ⟨read_spikes, ⟨hreached, by decide +kernel, .step .here _, by decide +kernel⟩,
    hjumped, ?_⟩
  have hlast : (jumped.history[1]?.map fun s =>
      (s.command, jumped.world.tiles.hasSpike s.robot.position)) = some (.jump, true) := by
    decide +kernel
  obtain ⟨s, hs, heq⟩ := Option.map_eq_some_iff.mp hlast
  exact ⟨s, List.mem_of_getElem? hs, (Prod.mk.inj heq).1, (Prod.mk.inj heq).2⟩

end RobotPuzzle
