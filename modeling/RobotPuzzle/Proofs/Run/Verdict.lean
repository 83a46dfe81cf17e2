import RobotPuzzle.Proofs.Run.Doors

/-!
# The verdict on a run

The outcome of a run that is over says whether it was won, and if it was not, why. A run is won if
all of its instructions succeed and the robot ends as the level's goal asks. The goal tile that a
run ends on is the level's own: no instruction moves, removes or makes one.

* `Level.WonBy`: what the goal asks of the robot.
* `Level.isMetBy_iff`: the tiles at the end of a run tell the same.
* `Run.start_judged`: the verdict on any run of a level that has been read.
-/

namespace RobotPuzzle

/-! ## The goal -/

namespace Level

/-- Whether the level has one goal tile, and it is on a cell. -/
def GoalAt (level : Level) (p : Position) : Prop :=
  ∃ t, level.tiles.filter (·.kind = .goal) = [t] ∧ t.position = p

/-- Whether the robot has what the level's goal asks for, and is where it asks it to be. -/
def WonBy (level : Level) (robot : Robot) : Prop :=
  match level.goal with
  | .reachGoal => level.GoalAt robot.position
  | .collectAll => level.coinsRequired ≤ robot.coins ∧ level.gemsRequired ≤ robot.gems
  | .collectAndReach =>
    level.GoalAt robot.position ∧
      level.coinsRequired ≤ robot.coins ∧ level.gemsRequired ≤ robot.gems

end Level

/-- A level's only goal tile stays the first one. -/
theorem Tiles.goal?_of_evolved {tiles now : Tiles} {history : List Step}
    (h : tiles.Evolved history now) {t : Tile} (ht : tiles.filter (·.kind = .goal) = [t]) :
    now.goal? = some t := by
  obtain ⟨f, rfl, hf, -⟩ := h
  have hmem : t ∈ tiles.filter (·.kind = .goal) := ht ▸ List.mem_singleton_self t
  obtain ⟨hmem, hkind⟩ := List.mem_filter.mp hmem
  have hkind : t.kind = .goal := of_decide_eq_true hkind
  have hsame : f t = t :=
    (hf t hmem).same (by simp [hkind]) (by simp [hkind]) (by simp [hkind])
  rw [goal?, firstOf?_map hf (by decide), ht]
  simp [hsame, hkind]

namespace Level

variable {level : Level} {world : World} {history : List Step}

theorem hasTreasure_iff {robot : Robot} : level.hasTreasure robot = true ↔
    level.coinsRequired ≤ robot.coins ∧ level.gemsRequired ≤ robot.gems := by
  simp [hasTreasure]

/-- The goal is judged by the tiles as they are at the end, which tell the level's own goal. -/
theorem isMetBy_iff
    (hgoal : level.goal.needsTile = true → ∃ t, level.tiles.filter (·.kind = .goal) = [t])
    (h : level.tiles.Evolved history world.tiles) :
    level.isMetBy world = true ↔ level.WonBy world.robot := by
  have hreach : level.goal.needsTile = true →
      ((world.tiles.goal?.any (·.position == world.robot.position)) = true ↔
        level.GoalAt world.robot.position) := by
    intro hneeds
    obtain ⟨t, ht⟩ := hgoal hneeds
    simp [GoalAt, Tiles.goal?_of_evolved h ht, ht]
  unfold isMetBy WonBy
  cases hg : level.goal with
  | reachGoal => simpa [Goal.needsTile, Goal.needsTreasure] using hreach (by rw [hg]; rfl)
  | collectAll => simp [Goal.needsTile, Goal.needsTreasure, hasTreasure_iff]
  | collectAndReach =>
    simp [Goal.needsTile, Goal.needsTreasure, hasTreasure_iff, hreach (by rw [hg]; rfl)]

theorem hasTreasure_of_wonBy {robot : Robot} (h : level.WonBy robot)
    (hneeds : level.goal.needsTreasure = true) : level.hasTreasure robot = true := by
  unfold WonBy at h
  cases hg : level.goal with
  | reachGoal => simp [hg, Goal.needsTreasure] at hneeds
  | collectAll => rw [hg] at h; exact hasTreasure_iff.mpr h
  | collectAndReach => rw [hg] at h; exact hasTreasure_iff.mpr h.2

end Level

/-! ## Outcomes -/

namespace Outcome

variable {level : Level} {robot : Robot} {counts : Counts} {o : Outcome}

/-- What the outcome of a run that met its goal says. -/
structure Won (o : Outcome) (level : Level) (robot : Robot) : Prop where
  completed : o.completed = true
  one_le_stars : 1 ≤ o.stars
  stars_le_three : o.stars ≤ 3
  perfect : o.perfect = true ↔ o.stars = 3 ∧ level.hasTreasure robot = true
  reason : o.reason = none

/-- What the outcome of a failed run says. -/
structure Lost (o : Outcome) (reason : Text) : Prop where
  completed : o.completed = false
  stars : o.stars = 0
  score : o.score = 0
  xp : o.xp = 0
  sparks : o.sparks = 0
  perfect : o.perfect = false
  reason : o.reason = some reason

theorem won_of_success (h : success level robot counts = .ok o) : o.Won level robot := by
  obtain ⟨score, -, h⟩ := bind_eq_ok.mp h
  obtain ⟨rfl, -⟩ := checked_eq_ok.mp h
  exact ⟨rfl, Scoring.one_le_starRating _ _, Scoring.starRating_le_three _ _, by simp, rfl⟩

theorem lost_of_failure {reason : Text} (h : failure level robot counts (some reason) = .ok o) :
    o.Lost reason := by
  obtain ⟨rfl, -⟩ := checked_eq_ok.mp h
  exact ⟨rfl, rfl, rfl, rfl, rfl, rfl, rfl⟩

end Outcome

namespace Run

variable {r : Run} {clock : Clock} {o : Outcome}

theorem won_of_conclude (h : r.conclude none clock = .ok o) : o.Won r.level r.world.robot := by
  obtain ⟨time, -, h⟩ := bind_eq_ok.mp h
  exact Outcome.won_of_success h

theorem lost_of_conclude {reason : Text} (h : r.conclude (some reason) clock = .ok o) :
    o.Lost reason := by
  obtain ⟨time, -, h⟩ := bind_eq_ok.mp h
  exact Outcome.lost_of_failure h

/-! ## The verdict -/

/-- Whether a run has executed all of its instructions, and all have succeeded. -/
def Succeeds (r : Run) : Prop :=
  r.history.map (fun s => (s.blockId, s.command)) = r.stream.map (fun b => (b.id, b.command)) ∧
    ∀ step ∈ r.history, step.success = true

/-- What the outcome of a run of a level says of the run as it is when it is over. -/
structure Judged (r : Run) (level : Level) (o : Outcome) : Prop where
  completed : o.completed = true ↔ r.Succeeds ∧ level.WonBy r.world.robot
  won : o.completed = true → (1 ≤ o.stars ∧ o.stars ≤ 3) ∧ o.reason = none ∧
    (level.goal.needsTreasure = true → (o.perfect = true ↔ o.stars = 3))
  lost : o.completed = false →
    o.stars = 0 ∧ o.score = 0 ∧ o.xp = 0 ∧ o.sparks = 0 ∧ o.perfect = false
  /-- The reason is what the instruction that failed says, and it says something. -/
  failed : ∀ step ∈ r.history, step.success = false →
    o.reason = some step.message ∧ step.message ≠ [] ∧ o.reason ≠ some unknownReason
  missed : o.completed = false → (∀ step ∈ r.history, step.success = true) →
    o.reason = some goalNotReached

/-- The verdict on a run whose instructions have all succeeded. -/
theorem judged_of_success (hall : r.Succeeds)
    (hmet : r.level.isMetBy r.world = true ↔ r.level.WonBy r.world.robot)
    (ho : r.conclude (judgement r.level r.world) clock = .ok o) : r.Judged r.level o := by
  have hfailed : ∀ step ∈ r.history, step.success = false →
      o.reason = some step.message ∧ step.message ≠ [] ∧ o.reason ≠ some unknownReason :=
    fun step hstep hfail => absurd ((hall.2 step hstep).symm.trans hfail) (by decide)
  unfold judgement at ho
  split at ho
  · next h =>
    have hwon := won_of_conclude ho
    have hgoal := hmet.mp h
    refine ⟨iff_of_true hwon.completed ⟨hall, hgoal⟩, fun _ => ?_, fun h => ?_, hfailed,
      fun h => ?_⟩
    · refine ⟨⟨hwon.one_le_stars, hwon.stars_le_three⟩, hwon.reason, fun hneeds => ?_⟩
      rw [hwon.perfect, and_iff_left (Level.hasTreasure_of_wonBy hgoal hneeds)]
    · exact absurd (hwon.completed.symm.trans h) (by decide)
    · exact absurd (hwon.completed.symm.trans h) (by decide)
  · next h =>
    have hlost := lost_of_conclude ho
    refine ⟨iff_of_false ?_ fun hw => h (hmet.mpr hw.2), fun h => ?_, fun _ => ?_, hfailed,
      fun _ _ => hlost.reason⟩
    · rw [hlost.completed]
      decide
    · exact absurd (hlost.completed.symm.trans h) (by decide)
    · exact ⟨hlost.stars, hlost.score, hlost.xp, hlost.sparks, hlost.perfect⟩

/-- The verdict on a run whose last instruction has failed. -/
theorem judged_of_failure {level : Level} {earlier : List Step} {step : Step}
    (hhistory : r.history = earlier ++ [step]) (hok : ∀ s ∈ earlier, s.success = true)
    (hfail : step.success = false) (htells : step.message ∈ messages.failures)
    (ho : r.conclude (some (reasonOf step)) clock = .ok o) : r.Judged level o := by
  have hlost := lost_of_conclude ho
  obtain ⟨hnonempty, htelling⟩ := Messages.telling_of_mem_failures _ htells
  have hreason : o.reason = some step.message := by
    rw [hlost.reason, reasonOf, if_neg (by simpa using hnonempty)]
  have hlast : step ∈ r.history := by simp [hhistory]
  have hnot : ¬ ∀ s ∈ r.history, s.success = true := fun h =>
    absurd ((h step hlast).symm.trans hfail) (by decide)
  refine ⟨iff_of_false ?_ fun hw => hnot hw.1.2, fun h => ?_, fun _ => ?_, fun s hs hsfail => ?_,
    fun _ h => absurd h hnot⟩
  · rw [hlost.completed]
    decide
  · exact absurd (hlost.completed.symm.trans h) (by decide)
  · exact ⟨hlost.stars, hlost.score, hlost.xp, hlost.sparks, hlost.perfect⟩
  · rw [hhistory, List.mem_append, List.mem_singleton] at hs
    rcases hs with hs | rfl
    · exact absurd ((hok s hs).symm.trans hsfail) (by decide)
    · exact ⟨hreason, hnonempty, by simpa [hreason] using htelling⟩

/-! ## Runs that were started -/

/-- The run as it is when it is over, if its last call of `step` makes the outcome. -/
theorem over_of_ends (hr : r.Started) {earlier k : Nat} {entry : Option Step}
    {reason : Option Text} (h : r.Ends clock earlier k o)
    (hturn : r.turn clock earlier = (r.advanced k).finish entry reason clock) :
    (r.advanced k).conclude reason clock = .ok o ∧
      (r.turn clock earlier).run = { r.advanced k with outcome := some o } := by
  have hout := h.outcome
  rw [hturn] at hout ⊢
  rcases (r.advanced k).finish_cases entry reason clock with
    ⟨o', ho, -, hrun⟩ | ⟨fault, -, hrun⟩
  · rw [hrun, Option.some.injEq] at hout
    exact ⟨hout ▸ ho, hout ▸ hrun⟩
  · rw [hrun, show (r.advanced k).outcome = none from hr.outcome] at hout
    cases hout

/-- The first steps are those of the first instructions. -/
theorem take_plainSteps (r : Run) (k : Nat) : r.plainSteps.take k =
    (Step.executeAll r.level.initialWorld (r.stream.take k)).1 := by
  apply List.ext_getElem?
  intro i
  rw [List.getElem?_take, plainSteps, Step.getElem?_executeAll, Step.getElem?_executeAll,
    List.getElem?_take]
  by_cases h : i < k
  · rw [if_pos h, if_pos h, List.take_take, Nat.min_eq_left (Nat.le_of_lt h)]
  · rw [if_neg h, if_neg h]
    rfl

/-- The history of a run that has been advanced succeeds if the plain steps do. -/
theorem success_of_mem_history (hr : r.Started) {k : Nat}
    (hok : ∀ step ∈ r.plainSteps.take k, step.success = true) :
    ∀ step ∈ (r.advanced k).history, step.success = true := by
  have hsame : (r.advanced k).history.map Step.success =
      (r.plainSteps.take k).map Step.success := by
    rw [take_plainSteps, ← hr.world]
    exact Step.map_history (fun _ _ => rfl) _ _
  intro step hstep
  have hmem : step.success ∈ (r.plainSteps.take k).map Step.success :=
    hsame ▸ List.mem_map_of_mem hstep
  obtain ⟨plain, hplain, he⟩ := List.mem_map.mp hmem
  rw [← he]
  exact hok plain hplain

theorem message_of_plainSteps {i : Nat} {step : Step} (hs : r.plainSteps[i]? = some step)
    (hfail : step.success = false) : step.message ∈ messages.failures := by
  rw [plainSteps, Step.getElem?_executeAll] at hs
  obtain ⟨block, -, rfl⟩ := Option.map_eq_some_iff.mp hs
  exact Step.message_of_failure hfail

/-- The verdict where no instruction fails. -/
theorem judged_of_ends_of_success (hr : r.Started) {n : Nat} (hn : n = r.stream.length)
    (h : r.Ends clock n n o) (hok : ∀ step ∈ r.plainSteps, step.success = true)
    (hmet : let now := (r.turn clock n).run
      r.level.isMetBy now.world = true ↔ r.level.WonBy now.world.robot) :
    (r.turn clock n).run.Judged r.level o := by
  subst hn
  have htake : ∀ step ∈ r.plainSteps.take r.stream.length, step.success = true :=
    fun step h => hok step (List.mem_of_mem_take h)
  obtain ⟨hconclude, hnow⟩ := over_of_ends hr h
    ((turn_eq_step_advanced hr clock (Nat.le_refl _) htake).trans (step_advanced_length hr clock))
  have hblocks := h.blocks
  rw [List.take_length] at hblocks
  rw [hnow] at hblocks hmet ⊢
  exact judged_of_success ⟨hblocks, success_of_mem_history hr htake⟩ hmet hconclude

/-- The verdict where an instruction fails. -/
theorem judged_of_ends_of_failure (hr : r.Started) {i : Nat} {step : Step}
    (hs : r.plainSteps[i]? = some step) (hfail : step.success = false)
    (hok : ∀ before ∈ r.plainSteps.take i, before.success = true)
    (h : r.Ends clock i (i + 1) o) : (r.turn clock i).run.Judged r.level o := by
  have hi : i ≤ r.stream.length := by
    rw [← length_plainSteps]
    exact Nat.le_of_lt (List.getElem?_eq_some_iff.mp hs).1
  obtain ⟨hconclude, hnow⟩ := over_of_ends hr h
    ((turn_eq_step_advanced hr clock hi hok).trans (step_advanced_of_failure hr hs hfail clock))
  have htells : step.message ∈ messages.failures := message_of_plainSteps hs hfail
  rw [hnow]
  exact judged_of_failure (history_advanced_succ hr hs) (success_of_mem_history hr hok) hfail
    htells hconclude

/-- Where not all steps succeed, there is a first one that does not. -/
theorem exists_first_failure {steps : List Step} (h : ¬ ∀ step ∈ steps, step.success = true) :
    ∃ i step, steps[i]? = some step ∧ step.success = false ∧
      ∀ before ∈ steps.take i, before.success = true := by
  obtain ⟨step, hfind⟩ : ∃ step, steps.find? (!·.success) = some step := by
    refine Option.isSome_iff_exists.mp (List.find?_isSome.mpr ?_)
    simpa using h
  obtain ⟨hfail, before, after, rfl, hbefore⟩ := List.find?_eq_some_iff_append.mp hfind
  refine ⟨before.length, step, by simp, by simpa using hfail, fun s hs => ?_⟩
  rw [List.take_left] at hs
  simpa using hbefore s hs

/-- A started run ends, and its outcome is the verdict on it. -/
theorem exists_judged (hr : r.Started) (htime : ∃ ms, r.elapsed clock = .ok ms)
    (hopt : 0 ≤ r.level.optimal)
    (hscore : r.level.isMetBy r.plainWorld = true →
      (Scoring.score? r.level r.plainWorld.robot r.blocksUsed).isSome = true)
    (hmet : ∀ n, let now := (r.turn clock n).run
      r.level.isMetBy now.world = true ↔ r.level.WonBy now.world.robot) :
    ∃ earlier k o, r.Ends clock earlier k o ∧ (r.turn clock earlier).run.Judged r.level o := by
  by_cases hok : ∀ step ∈ r.plainSteps, step.success = true
  · obtain ⟨o, hends⟩ := exists_ends_of_success hr htime hopt hscore hok
    exact ⟨_, _, o, hends, judged_of_ends_of_success hr rfl hends hok (hmet _)⟩
  · obtain ⟨i, step, hstep, hfail, hbefore⟩ := exists_first_failure hok
    obtain ⟨o, hends⟩ := exists_ends_of_failure hr htime hopt hstep hfail hbefore
    exact ⟨_, _, o, hends, judged_of_ends_of_failure hr hstep hfail hbefore hends⟩

/-- **The verdict on a run.** A run of a level that has been read, started on a program that unrolls
within the cap, comes to an end, and its outcome says that it was won exactly if all instructions
have succeeded and the robot ends as the level's goal asks. The outcome can be made because the
clock's next two readings are a finite time apart and the score of a met goal fits a double. -/
theorem start_judged {source : Text} {j : Json} (r : Run)
    (hread : Level.read source j = .ok r.level) (blocks : List Block) (clock : Clock)
    (hstart : (r.start blocks clock).value = .ok ())
    (htime : ∃ ms, clock.next.millisBetween clock.tick.next = .ok ms)
    (hscore : r.level.isMetBy (r.start blocks clock).run.plainWorld = true →
      (Scoring.score? r.level (r.start blocks clock).run.plainWorld.robot
        blocks.length).isSome = true) :
    let started := r.start blocks clock
    Unrolled.unroll r.cap blocks = some started.run.stream ∧
      ∃ earlier k o, started.run.Ends started.clock earlier k o ∧
        (started.run.turn started.clock earlier).run.Judged r.level o := by
  have hr := started_start hstart
  have hopt : 0 ≤ r.level.optimal := Int.le_of_lt (Level.one_le_optimal_of_read hread)
  have hreached : Reached r.level (r.start blocks clock).run := .start (.fresh r.limit) blocks clock
  have hmet : ∀ n, let now := ((r.start blocks clock).run.turn (r.start blocks clock).clock n).run
      r.level.isMetBy now.world = true ↔ r.level.WonBy now.world.robot :=
    fun n => Level.isMetBy_iff (Level.exists_goal_of_read hread)
      (evolved_of_reached (Level.distinct_of_read hread) (reached_turn hreached _ n))
  obtain ⟨stream, hs, heq⟩ := start_eq hstart
  rw [heq] at hr hscore hmet ⊢
  exact ⟨hs, exists_judged hr htime hopt hscore hmet⟩

end Run

/-! ## A sample -/

/-- The corridor as it is written down. -/
def corridorFile : Json :=
  .obj [("id", .int 1), ("name", .str "Corridor"), ("difficulty", .str "easy"),
    ("grid_size", .obj [("rows", .int 1), ("cols", .int 4)]),
    ("tiles", .arr [
      .obj [("id", .str "a"), ("type", .str "start"), ("row", .int 0), ("col", .int 0)],
      .obj [("id", .str "b"), ("type", .str "coin"), ("row", .int 0), ("col", .int 1)],
      .obj [("id", .str "c"), ("type", .str "spike"), ("row", .int 0), ("col", .int 2)],
      .obj [("id", .str "d"), ("type", .str "goal"), ("row", .int 0), ("col", .int 3)]]),
    ("available_commands", .arr [.str "move_forward", .str "jump", .str "loop_start"]),
    ("max_blocks", .int 5), ("goal_type", .str "collect_and_reach"), ("coins_required", .int 1)]

open Run in
/-- The move and the jump win the corridor, and the looped move loses it on the spike. -/
theorem judged_corridor :
    let jumping := (fresh corridor none).start moveAndJump .still
    let looped := (fresh corridor none).start loopedMove .still
    (∃ earlier k o, jumping.run.Ends jumping.clock earlier k o ∧
      (jumping.run.turn jumping.clock earlier).run.Judged corridor o) ∧
    ∃ earlier k o, looped.run.Ends looped.clock earlier k o ∧
      (looped.run.turn looped.clock earlier).run.Judged corridor o := by
  intro jumping looped
  have hread : Level.read "corridor.json" corridorFile = .ok corridor := by with_unfolding_all rfl
  have htime : ∃ ms, Clock.still.next.millisBetween Clock.still.tick.next = .ok ms := ⟨0, rfl⟩
  have hjump : Unrolled.unroll (fresh corridor none).cap moveAndJump = some moveAndJump := by
    decide +kernel
  have hloop : Unrolled.unroll (fresh corridor none).cap loopedMove =
      some [loopedMove[1], loopedMove[1]] := by decide +kernel
  exact ⟨(start_judged _ hread moveAndJump .still (value_start hjump _) htime
      (by decide +kernel)).2,
    (start_judged _ hread loopedMove .still (value_start hloop _) htime (by decide +kernel)).2⟩

end RobotPuzzle
