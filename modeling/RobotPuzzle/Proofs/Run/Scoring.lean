import Mathlib.Data.Rat.Floor
import Mathlib.Tactic.Linarith
import RobotPuzzle.Proofs.Run.Fold

/-!
# The score of a success

The score of a run that met its goal is summed in doubles. As long as the exact sum is below
`2 ^ 53`, no summand and no partial sum is rounded, and the score is that sum. Everything that a
success is rated by grows when fewer blocks are used.

* `Scoring.score?_eq_exactScore`: the sum of doubles is the exact one.
* `Scoring.exactScore_anti`, `Scoring.starRating_anti`: fewer blocks are never worse.
* `Scoring.starRating_eq_two_iff`: two stars, against one and a half times the optimal number.
* `Outcome.success_eq_exactSuccess`: what a success is rated.
* `Outcome.noWorse_exactSuccess`: two successes with the same robot, by their blocks.
* `Outcome.success_exact_and_monotone`: the exact ratings of a success, and two of them compared.
-/

namespace RobotPuzzle

namespace Numeral

theorem toDouble?_of_nonneg {n : Int} (h : 0 ≤ n) (hn : n < 2 ^ 53) : toDouble? n = some n := by
  refine toDouble?_of_lt ?_
  have hpow : Nat.pow 2 53 = 2 ^ 53 := rfl
  omega

end Numeral

open Numeral

namespace Scoring

variable {level : Level} {robot : Robot} {used used' optimal : Int}

theorem basePoints_pos (difficulty : Difficulty) : 0 < basePoints difficulty := by
  cases difficulty <;> decide

theorem exactScore_eq (level : Level) (robot : Robot) (used : Int) :
    exactScore level robot used = basePoints level.difficulty + 10 * robot.coins +
      25 * robot.gems + 15 * max 0 (level.optimal - used) := rfl

/-- **Nothing is rounded** on the way to a score below `2 ^ 53`. -/
theorem score?_eq_exactScore (hcoins : 0 ≤ robot.coins) (hgems : 0 ≤ robot.gems)
    (hfits : exactScore level robot used < 2 ^ 53) :
    score? level robot used = some (exactScore level robot used) := by
  have hbase := basePoints_pos level.difficulty
  rw [exactScore_eq] at hfits ⊢
  have hcoin : toDouble? (coinPoints * robot.coins) = some (10 * robot.coins) :=
    toDouble?_of_nonneg (by rw [coinPoints]; omega) (by rw [coinPoints]; omega)
  have hgem : toDouble? (gemPoints * robot.gems) = some (25 * robot.gems) :=
    toDouble?_of_nonneg (by rw [gemPoints]; omega) (by rw [gemPoints]; omega)
  have hsaved : toDouble? (savedBlockPoints * max 0 (level.optimal - used)) =
      some (15 * max 0 (level.optimal - used)) :=
    toDouble?_of_nonneg (by rw [savedBlockPoints]; omega) (by rw [savedBlockPoints]; omega)
  rw [score?, hcoin, hgem, hsaved]
  simp only [addDoubles?, Option.bind_eq_bind, Option.bind_some]
  rw [toDouble?_of_nonneg (by omega) (by omega), Option.bind_some,
    toDouble?_of_nonneg (by omega) (by omega), Option.bind_some,
    toDouble?_of_nonneg (by omega) (by omega)]

theorem score_eq_exactScore (hcoins : 0 ≤ robot.coins) (hgems : 0 ≤ robot.gems)
    (hfits : exactScore level robot used < 2 ^ 53) :
    score level robot used = .ok (exactScore level robot used) := by
  rw [score, score?_eq_exactScore hcoins hgems hfits]

theorem exactScore_anti (h : used ≤ used') :
    exactScore level robot used' ≤ exactScore level robot used := by
  rw [exactScore_eq, exactScore_eq]
  omega

theorem starRating_anti (h : used ≤ used') : starRating used' optimal ≤ starRating used optimal := by
  unfold starRating
  repeat' split
  all_goals omega

/-- Two stars are for more blocks than the optimal number, but no more than one and a half times as
many. -/
theorem starRating_eq_two_iff :
    starRating used optimal = 2 ↔ optimal < used ∧ (used : ℚ) ≤ 3 / 2 * optimal := by
  have hhalves : (used : ℚ) ≤ 3 / 2 * optimal ↔ 2 * used ≤ 3 * optimal := by
    rw [← Int.cast_le (R := ℚ)]
    push_cast
    constructor <;> intro h <;> linarith
  rw [hhalves]
  unfold starRating
  repeat' split
  all_goals omega

end Scoring

namespace Outcome

open Scoring

/-- Counts of a success whose score, without any rounding, is below `2 ^ 53`. -/
structure Scorable (level : Level) (robot : Robot) (counts : Counts) : Prop where
  coins : 0 ≤ robot.coins
  gems : 0 ≤ robot.gems
  blocksUsed : 0 ≤ counts.blocksUsed
  steps : 0 ≤ counts.steps
  time : 0 ≤ counts.time
  fits : basePoints level.difficulty + 10 * robot.coins + 25 * robot.gems +
    15 * max 0 (level.optimal - counts.blocksUsed) < 2 ^ 53

/-- An outcome has the exact ratings of a success with some counts. -/
structure Scored (o : Outcome) (level : Level) (robot : Robot) (counts : Counts) : Prop where
  score : o.score = basePoints level.difficulty + 10 * robot.coins + 25 * robot.gems +
    15 * max 0 (level.optimal - counts.blocksUsed)
  xp : o.xp = ⌊(o.score : ℚ) / 10⌋
  sparks : o.sparks = 5 * o.stars + robot.coins + 5 * robot.gems
  twoStars : o.stars = 2 ↔
    level.optimal < counts.blocksUsed ∧ (counts.blocksUsed : ℚ) ≤ 3 / 2 * level.optimal

/-- An outcome is rated no worse than another one. -/
structure NoWorse (o o' : Outcome) : Prop where
  stars : o'.stars ≤ o.stars
  score : o'.score ≤ o.score
  xp : o'.xp ≤ o.xp
  sparks : o'.sparks ≤ o.sparks
  perfect : o'.perfect = true → o.perfect = true

variable {level : Level} {robot : Robot} {counts counts' : Counts}

/-- The outcome of a success, with its exact ratings. -/
def exactSuccess (level : Level) (robot : Robot) (counts : Counts) : Outcome :=
  let stars := starRating counts.blocksUsed level.optimal
  let score := exactScore level robot counts.blocksUsed
  { levelId := level.id, completed := true, stars, blocksUsed := counts.blocksUsed
    optimalBlocks := level.optimal, coins := robot.coins, gems := robot.gems
    steps := counts.steps, time := counts.time, score, xp := score / 10
    sparks := stars * 5 + robot.coins + robot.gems * 5
    perfect := stars == 3 && level.hasTreasure robot, reason := none }

/-- **A success gets its exact ratings** where its score is below `2 ^ 53`. -/
theorem success_eq_exactSuccess (hopt : 0 ≤ level.optimal) (h : Scorable level robot counts) :
    success level robot counts = .ok (exactSuccess level robot counts) := by
  have hscore := score_eq_exactScore h.coins h.gems h.fits
  have htenth : (exactScore level robot counts.blocksUsed).fdiv 10 =
      exactScore level robot counts.blocksUsed / 10 :=
    Int.fdiv_eq_ediv_of_nonneg _ (by decide)
  simp only [success, hscore, bind, Except.bind, htenth]
  exact checked_eq_ok.mpr ⟨rfl, h.blocksUsed, hopt, h.steps, h.time⟩

theorem scored_exactSuccess (level : Level) (robot : Robot) (counts : Counts) :
    (exactSuccess level robot counts).Scored level robot counts where
  score := rfl
  xp := (Rat.floor_intCast_div_natCast _ 10).symm
  sparks := by
    simp only [exactSuccess]
    omega
  twoStars := starRating_eq_two_iff

/-- **Fewer blocks are never worse.** -/
theorem noWorse_exactSuccess (level : Level) (robot : Robot)
    (h : counts.blocksUsed ≤ counts'.blocksUsed) :
    (exactSuccess level robot counts).NoWorse (exactSuccess level robot counts') := by
  have hstars : starRating counts'.blocksUsed level.optimal ≤
      starRating counts.blocksUsed level.optimal := starRating_anti h
  have hscore : exactScore level robot counts'.blocksUsed ≤
      exactScore level robot counts.blocksUsed := exactScore_anti h
  refine ⟨hstars, hscore, Int.ediv_le_ediv (by decide) hscore, ?_, ?_⟩
  · simp only [exactSuccess]
    omega
  · -- The robot has the same treasure, and three stars are the most there are.
    intro hperfect
    have hthree := starRating_le_three counts.blocksUsed level.optimal
    simp only [exactSuccess, Bool.and_eq_true, beq_iff_eq] at hperfect ⊢
    exact ⟨by omega, hperfect.2⟩

/-- **Scoring is exact, and fewer blocks are never worse.** In a level whose optimal number of blocks
is not negative, a success has an outcome where its exact score is below `2 ^ 53`. Its score is that
sum, its experience the tenth of it rounded down, and its sparks are five for each star and each gem
and one for each coin; and two such successes with the same robot are rated in the order of their
blocks. -/
theorem success_exact_and_monotone (level : Level) (hopt : 0 ≤ level.optimal) (robot : Robot) :
    ∀ counts, Scorable level robot counts →
      ∃ o, success level robot counts = .ok o ∧ o.Scored level robot counts ∧
        ∀ counts' o', Scorable level robot counts' → success level robot counts' = .ok o' →
          counts.blocksUsed ≤ counts'.blocksUsed → o.NoWorse o' := by
  intro counts h
  refine ⟨exactSuccess level robot counts, success_eq_exactSuccess hopt h,
    scored_exactSuccess level robot counts, ?_⟩
  intro counts' o' h' ho' hused
  rw [success_eq_exactSuccess hopt h'] at ho'
  cases ho'
  exact noWorse_exactSuccess level robot hused

/-- With an optimal number of five blocks, seven are worth two stars and eight are worth one. -/
theorem success_seven_and_eight :
    let level : Level := { corridor with optimalBlocks := some 5 }
    let robot : Robot := { Robot.fresh ⟨0, 3⟩ .right with coins := 3, gems := 1 }
    Scorable level robot ⟨7, 4, 900⟩ ∧ Scorable level robot ⟨8, 4, 600⟩ ∧
      ∃ o o', success level robot ⟨7, 4, 900⟩ = .ok o ∧ success level robot ⟨8, 4, 600⟩ = .ok o' ∧
        o.NoWorse o' ∧ o.stars = 2 ∧ o'.stars ≠ 2 ∧ o.score = 180 ∧ o.xp = 18 ∧ o.sparks = 18 := by
  intro level robot
  have hseven : Scorable level robot ⟨7, 4, 900⟩ := by constructor <;> decide
  have height : Scorable level robot ⟨8, 4, 600⟩ := by constructor <;> decide
  have hopt : 0 ≤ level.optimal := by decide
  have hfive : level.optimal = 5 := rfl
  obtain ⟨o, ho, hscored, hworse⟩ := success_exact_and_monotone level hopt robot _ hseven
  obtain ⟨o', ho', hscored', -⟩ := success_exact_and_monotone level hopt robot _ height
  have hscore : o.score = 180 := hscored.score
  have hstars : o.stars = 2 := hscored.twoStars.mpr (by rw [hfive]; norm_num)
  have hstars' : o'.stars ≠ 2 := fun h => by
    have hle := (hscored'.twoStars.mp h).2
    rw [hfive] at hle
    norm_num at hle
  refine ⟨hseven, height, o, o', ho, ho', hworse _ o' height ho' (by decide), hstars, hstars',
    hscore, ?_, ?_⟩
  · rw [hscored.xp, hscore]
    norm_num
  · rw [hscored.sparks, hstars]
    rfl

end Outcome

end RobotPuzzle
