import RobotPuzzle.Fault
import RobotPuzzle.Numeral.Rounding
import RobotPuzzle.Record.Field

/-!
# Outcomes and scoring

How a finished run is rated. A run that met its goal gets stars by how many blocks it used against
the optimal number: three for at most as many, two for at most one and a half times as many, one
otherwise. It scores a base that grows with the difficulty, and bonuses for coins, gems and saved
blocks. A failed run gets nothing.

The score is a sum of doubles: every product and every partial sum is rounded to one.

* `Scoring.one_le_starRating`, `Scoring.starRating_le_three`: a successful run has one to three
  stars.
-/

namespace RobotPuzzle

open Numeral

/-- How a run of a level ended. -/
structure Outcome where
  levelId : Int
  completed : Bool
  stars : Int
  blocksUsed : Int
  optimalBlocks : Int
  coins : Int
  gems : Int
  steps : Int
  /-- Milliseconds from the start of the run to its end. -/
  time : Int
  score : Int
  xp : Int
  sparks : Int
  perfect : Bool
  reason : Option Text
  deriving DecidableEq, Repr

/-- The counts of a run that an outcome reports. -/
structure Counts where
  blocksUsed : Int
  steps : Int
  time : Int
  deriving DecidableEq, Repr

namespace Scoring

/-- The points for completing a level. -/
def basePoints : Difficulty → Int
  | .beginner => 100
  | .easy => 125
  | .medium => 150
  | .hard => 200
  | .expert => 250

/-- The points for each coin. -/
def coinPoints : Int := 10

/-- The points for each gem. -/
def gemPoints : Int := 25

/-- The points for each block fewer than the optimal number. -/
def savedBlockPoints : Int := 15

/-- The stars of a successful run. -/
def starRating (used optimal : Int) : Int :=
  if used ≤ optimal then 3 else if 2 * used ≤ 3 * optimal then 2 else 1

/-- The score before any rounding. -/
def exactScore (level : Level) (robot : Robot) (used : Int) : Int :=
  basePoints level.difficulty + coinPoints * robot.coins + gemPoints * robot.gems +
    savedBlockPoints * max 0 (level.optimal - used)

/-- The score, summed in doubles; none when a summand or a sum is beyond their range. -/
def score? (level : Level) (robot : Robot) (used : Int) : Option Int := do
  let coins ← toDouble? (coinPoints * robot.coins)
  let sum ← addDoubles? (basePoints level.difficulty) coins
  let gems ← toDouble? (gemPoints * robot.gems)
  let sum ← addDoubles? sum gems
  let saved ← toDouble? (savedBlockPoints * max 0 (level.optimal - used))
  addDoubles? sum saved

/-- The score as a result. -/
def score (level : Level) (robot : Robot) (used : Int) : Except Fault Int :=
  match score? level robot used with
  | some n => .ok n
  | none => .error .tooLarge

theorem one_le_starRating (used optimal : Int) : 1 ≤ starRating used optimal := by
  unfold starRating; repeat' split
  all_goals decide

theorem starRating_le_three (used optimal : Int) : starRating used optimal ≤ 3 := by
  unfold starRating; repeat' split
  all_goals decide

end Scoring

namespace Outcome

/-- Checks that a count is not negative. -/
def countIssues (name : String) (n : Int) : List Issue :=
  if n < 0 then [⟨[name], .tooSmall⟩] else []

/-- An outcome, unless one of its counts is negative. -/
def checked (o : Outcome) : Except Fault Outcome :=
  let issues := countIssues "blocks_used" o.blocksUsed ++
    countIssues "optimal_blocks" o.optimalBlocks ++ countIssues "steps" o.steps ++
    countIssues "time_spent" o.time
  if issues.isEmpty then .ok o else .error (.invalid issues)

/-- The outcome of a run that met its goal. -/
def success (level : Level) (robot : Robot) (counts : Counts) : Except Fault Outcome := do
  let stars := Scoring.starRating counts.blocksUsed level.optimal
  let score ← Scoring.score level robot counts.blocksUsed
  checked
    { levelId := level.id, completed := true, stars, blocksUsed := counts.blocksUsed
      optimalBlocks := level.optimal, coins := robot.coins, gems := robot.gems
      steps := counts.steps, time := counts.time, score, xp := score.fdiv 10
      sparks := stars * 5 + robot.coins + robot.gems * 5
      perfect := stars == 3 && level.hasTreasure robot, reason := none }

/-- The outcome of a failed run. -/
def failure (level : Level) (robot : Robot) (counts : Counts) (reason : Option Text) :
    Except Fault Outcome :=
  checked
    { levelId := level.id, completed := false, stars := 0, blocksUsed := counts.blocksUsed
      optimalBlocks := level.optimal, coins := robot.coins, gems := robot.gems
      steps := counts.steps, time := counts.time, score := 0, xp := 0, sparks := 0
      perfect := false, reason }

end Outcome

end RobotPuzzle
