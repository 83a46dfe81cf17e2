import RobotPuzzle.Run.Basic

/-!
# Rating a run

When the outcome of a run can be made, and what it says of the run.

* `Outcome.checked_eq_ok`: the checks of an outcome are about four counts.
* `Run.exists_conclude`: with a finite time, an optimal number of blocks that is not negative and a
  score that fits a double, a run gets its outcome.
* `Run.conclude_eq_ok`: an outcome reports the run that it was made from.
* `Run.stepped_step`: what a step does to a run that is not over.
-/

namespace RobotPuzzle

namespace Instant

/-- The time that has passed is never negative. -/
theorem nonneg_of_millisBetween {start now : Instant} {ms : Int}
    (h : start.millisBetween now = .ok ms) : 0 ≤ ms := by
  unfold millisBetween at h
  split at h
  · cases h
    exact Int.le_max_left _ _
  · simp only [bind, Except.bind] at h
    repeat' split at h
    all_goals cases h
    exact Int.le_max_left _ _

end Instant

namespace Outcome

/-- The counts of an outcome that are checked. -/
structure Counted (o : Outcome) : Prop where
  blocksUsed : 0 ≤ o.blocksUsed
  optimalBlocks : 0 ≤ o.optimalBlocks
  steps : 0 ≤ o.steps
  time : 0 ≤ o.time

theorem countIssues_eq_nil {name : String} {n : Int} : countIssues name n = [] ↔ 0 ≤ n := by
  unfold countIssues
  split
  · next h => simp; exact h
  · next h => simp; omega

theorem checked_eq_ok {o o' : Outcome} : o.checked = .ok o' ↔ o' = o ∧ o.Counted := by
  have hissues : ((countIssues "blocks_used" o.blocksUsed ++
      countIssues "optimal_blocks" o.optimalBlocks ++ countIssues "steps" o.steps ++
      countIssues "time_spent" o.time).isEmpty = true) ↔ o.Counted := by
    simp only [List.isEmpty_iff, List.append_eq_nil_iff, countIssues_eq_nil]
    exact ⟨fun ⟨⟨⟨b, p⟩, s⟩, t⟩ => ⟨b, p, s, t⟩, fun ⟨b, p, s, t⟩ => ⟨⟨⟨b, p⟩, s⟩, t⟩⟩
  simp only [checked]
  split
  · next h => simp [hissues.mp h, eq_comm]
  · next h => simp [mt hissues.mpr h]

/-- An outcome has no stars to three stars. -/
structure Rated (o : Outcome) : Prop where
  zero_le_stars : 0 ≤ o.stars
  stars_le_three : o.stars ≤ 3

/-- An outcome reports a run of a level in which so many blocks were used and steps taken. -/
structure Reports (o : Outcome) (level : Level) (used steps : Int) : Prop extends Rated o where
  levelId : o.levelId = level.id
  blocksUsed : o.blocksUsed = used
  steps : o.steps = steps

theorem success_eq_ok {level : Level} {robot : Robot} {counts : Counts} {o : Outcome}
    (h : success level robot counts = .ok o) :
    o.completed = true ∧ o.Reports level counts.blocksUsed counts.steps := by
  unfold success at h
  simp only [bind, Except.bind] at h
  split at h
  · cases h
  · obtain ⟨rfl, -⟩ := checked_eq_ok.mp h
    have hone := Scoring.one_le_starRating counts.blocksUsed level.optimal
    have hthree := Scoring.starRating_le_three counts.blocksUsed level.optimal
    exact ⟨rfl, ⟨Int.le_trans (by decide) hone, hthree⟩, rfl, rfl, rfl⟩

theorem failure_eq_ok {level : Level} {robot : Robot} {counts : Counts} {reason : Option Text}
    {o : Outcome} (h : failure level robot counts reason = .ok o) :
    o.completed = false ∧ o.Reports level counts.blocksUsed counts.steps := by
  obtain ⟨rfl, -⟩ := checked_eq_ok.mp h
  exact ⟨rfl, ⟨Int.le_refl 0, show (0 : Int) ≤ 3 by decide⟩, rfl, rfl, rfl⟩

theorem exists_success {level : Level} {robot : Robot} {counts : Counts}
    (hscore : (Scoring.score? level robot counts.blocksUsed).isSome = true)
    (hopt : 0 ≤ level.optimal) (hused : 0 ≤ counts.blocksUsed) (hsteps : 0 ≤ counts.steps)
    (htime : 0 ≤ counts.time) : ∃ o, success level robot counts = .ok o := by
  obtain ⟨score, hs⟩ := Option.isSome_iff_exists.mp hscore
  unfold success
  simp only [Scoring.score, hs, bind, Except.bind]
  exact ⟨_, checked_eq_ok.mpr ⟨rfl, hused, hopt, hsteps, htime⟩⟩

theorem exists_failure {level : Level} {robot : Robot} {counts : Counts} (reason : Option Text)
    (hopt : 0 ≤ level.optimal) (hused : 0 ≤ counts.blocksUsed) (hsteps : 0 ≤ counts.steps)
    (htime : 0 ≤ counts.time) : ∃ o, failure level robot counts reason = .ok o :=
  ⟨_, checked_eq_ok.mpr ⟨rfl, hused, hopt, hsteps, htime⟩⟩

end Outcome

namespace Run

theorem nonneg_of_elapsed {r : Run} {clock : Clock} {ms : Int} (h : r.elapsed clock = .ok ms) :
    0 ≤ ms := by
  unfold elapsed at h
  split at h
  · cases h; decide
  · exact Instant.nonneg_of_millisBetween h

/-- An outcome reports the run that it was made from, as completed if no reason for a failure was
given. -/
theorem conclude_eq_ok {r : Run} {reason : Option Text} {clock : Clock} {o : Outcome}
    (h : r.conclude reason clock = .ok o) :
    o.completed = reason.isNone ∧ o.Reports r.level r.blocksUsed r.history.length := by
  simp only [conclude, bind, Except.bind] at h
  split at h
  · cases h
  · cases reason with
    | none => exact Outcome.success_eq_ok h
    | some text => exact Outcome.failure_eq_ok h

/-- An outcome can be made in a finite time, where the optimal number of blocks is not negative and
the score of a success fits a double. -/
theorem exists_conclude {r : Run} {reason : Option Text} {clock : Clock}
    (htime : ∃ ms, r.elapsed clock = .ok ms) (hopt : 0 ≤ r.level.optimal)
    (hscore : reason = none →
      (Scoring.score? r.level r.world.robot r.blocksUsed).isSome = true) :
    ∃ o, r.conclude reason clock = .ok o := by
  obtain ⟨ms, hms⟩ := htime
  have hnonneg := nonneg_of_elapsed hms
  simp only [conclude, hms, bind, Except.bind]
  cases reason with
  | none =>
    exact Outcome.exists_success (hscore rfl) hopt (Int.natCast_nonneg _) (Int.natCast_nonneg _)
      hnonneg
  | some text =>
    exact Outcome.exists_failure _ hopt (Int.natCast_nonneg _) (Int.natCast_nonneg _) hnonneg

/-- Ending a run with an outcome that can be made. -/
theorem finish_of_conclude {r : Run} {step : Option Step} {reason : Option Text} {clock : Clock}
    {o : Outcome} (h : r.conclude reason clock = .ok o) :
    r.finish step reason clock =
      ⟨.ok ⟨step, some o⟩, { r with outcome := some o },
        if r.startedAt.isSome then clock.tick else clock⟩ := by
  simp only [finish, h]

/-! ## Steps of a run -/

/-- A later state of a run: the level, the program and the start are the same. -/
structure Goes (r r' : Run) : Prop where
  level : r'.level = r.level
  limit : r'.limit = r.limit
  stream : r'.stream = r.stream
  blocksUsed : r'.blocksUsed = r.blocksUsed
  startedAt : r'.startedAt = r.startedAt

theorem Goes.refl (r : Run) : r.Goes r := ⟨rfl, rfl, rfl, rfl, rfl⟩

theorem Goes.trans {r r' r'' : Run} (h : r.Goes r') (h' : r'.Goes r'') : r.Goes r'' where
  level := h'.level.trans h.level
  limit := h'.limit.trans h.limit
  stream := h'.stream.trans h.stream
  blocksUsed := h'.blocksUsed.trans h.blocksUsed
  startedAt := h'.startedAt.trans h.startedAt

/-- Ending a run either makes its outcome or leaves it as it is. -/
theorem finish_cases (r : Run) (step : Option Step) (reason : Option Text) (clock : Clock) :
    (∃ o, r.conclude reason clock = .ok o ∧
      (r.finish step reason clock).value = .ok ⟨step, some o⟩ ∧
      (r.finish step reason clock).run = { r with outcome := some o }) ∨
    ∃ fault, (r.finish step reason clock).value = .error fault ∧
      (r.finish step reason clock).run = r := by
  unfold finish
  cases h : r.conclude reason clock with
  | ok o => exact .inl ⟨o, rfl, rfl, rfl⟩
  | error fault => exact .inr ⟨fault, rfl, rfl⟩

/-- What a step of a run that is not over does: it brings an outcome, which reports the run, or it
leaves the run without one. -/
structure Stepped (r : Run) (turn : Turn Report) : Prop where
  goes : r.Goes turn.run
  running : (∀ report, turn.value = .ok report → report.outcome = none) → turn.run.outcome = none
  ended : ∀ report o, turn.value = .ok report → report.outcome = some o →
    turn.run.outcome = some o ∧ o.Reports r.level r.blocksUsed turn.run.history.length

theorem stepped_finish {r r' : Run} (h : r.Goes r') (hout : r'.outcome = none)
    (step : Option Step) (reason : Option Text) (clock : Clock) :
    r.Stepped (r'.finish step reason clock) := by
  rcases r'.finish_cases step reason clock with ⟨o, ho, hv, hr⟩ | ⟨fault, hv, hr⟩
  · refine ⟨?_, fun hrun => ?_, fun report o' hv' ho' => ?_⟩
    · rw [hr]
      exact ⟨h.level, h.limit, h.stream, h.blocksUsed, h.startedAt⟩
    · cases hrun _ hv
    · cases hv.symm.trans hv'
      cases ho'
      rw [hr, ← h.level, ← h.blocksUsed]
      exact ⟨rfl, (conclude_eq_ok ho).2⟩
  · refine ⟨by rw [hr]; exact h, fun _ => by rw [hr]; exact hout, fun report o hv' _ => ?_⟩
    cases hv.symm.trans hv'

theorem stepped_step {r : Run} (h : r.outcome = none) (clock : Clock) :
    r.Stepped (r.step clock) := by
  unfold step
  rw [h]
  simp only
  split
  · exact stepped_finish (.refl r) h _ _ _
  · next block _ =>
    have hgoes : r.Goes (r.execute block).2 := ⟨rfl, rfl, rfl, rfl, rfl⟩
    have hout : (r.execute block).2.outcome = none := h
    split
    · refine ⟨hgoes, fun _ => hout, fun report o hv ho => ?_⟩
      cases hv
      cases ho
    · exact stepped_finish hgoes hout _ _ _

/-- A step of a run, over or not, leaves it the same run. -/
theorem goes_step (r : Run) (clock : Clock) : r.Goes (r.step clock).run := by
  cases hout : r.outcome with
  | none => exact (stepped_step hout clock).goes
  | some o =>
    rw [step_of_outcome hout]
    exact .refl r

end Run

end RobotPuzzle
