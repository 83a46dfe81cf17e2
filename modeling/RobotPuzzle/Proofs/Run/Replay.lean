import RobotPuzzle.Proofs.Run.Verdict

/-!
# Replays of a run

What a run does depends on the level, the cap and the blocks it is started on. The clock tells only
when it starts and how long it takes: without these times (`Run.untimed`), two runs of one program
go the same way, whatever was done with either before.

* `Run.step_untimed`: a step commutes with forgetting times.
* `Run.Abreast.past`: runs that are the same but for times stay so, step by step.
* `Run.untimed_start`: where they are started on the same blocks, they are.
* `Run.exists_ends_of_start`: a run that is started comes to an end.
-/

namespace RobotPuzzle

/-- The outcome without the time that the run took. -/
def Outcome.untimed (o : Outcome) : Outcome := { o with time := 0 }

/-- The report without the time that the run took. -/
def Report.untimed (r : Report) : Report := { r with outcome := r.outcome.map Outcome.untimed }

/-- The run without the time at which it started and the time that it took. -/
def Run.untimed (r : Run) : Run :=
  { r with startedAt := none, outcome := r.outcome.map Outcome.untimed }

namespace Outcome

/-- An outcome passes or fails its checks whatever its time is. -/
theorem checked_untimed {o : Outcome} (h : 0 ≤ o.time) :
    o.untimed.checked = o.checked.map untimed := by
  have hzero : countIssues "time_spent" 0 = [] := countIssues_eq_nil.mpr (Int.le_refl 0)
  have htime : countIssues "time_spent" o.time = [] := countIssues_eq_nil.mpr h
  simp only [checked, untimed, hzero, htime, List.append_nil]
  split <;> rfl

theorem success_untimed (level : Level) (robot : Robot) (counts : Counts) (h : 0 ≤ counts.time) :
    success level robot { counts with time := 0 } =
      (success level robot counts).map untimed := by
  unfold success
  cases Scoring.score level robot counts.blocksUsed with
  | error fault => rfl
  | ok score => exact checked_untimed (o := { time := counts.time, .. }) h

theorem failure_untimed (level : Level) (robot : Robot) (counts : Counts) (reason : Option Text)
    (h : 0 ≤ counts.time) :
    failure level robot { counts with time := 0 } reason =
      (failure level robot counts reason).map untimed :=
  checked_untimed (o := { time := counts.time, .. }) h

end Outcome

namespace Run

/-- It can be told how long the run has taken. -/
def Timed (r : Run) (clock : Clock) : Prop := ∃ ms, r.elapsed clock = .ok ms

variable {r r' : Run} {c c' : Clock}

/-! ## Steps without times -/

theorem conclude_untimed (h : r.Timed c) (reason : Option Text) (clock : Clock) :
    r.untimed.conclude reason clock = (r.conclude reason c).map Outcome.untimed := by
  obtain ⟨ms, hms⟩ := h
  have hnonneg := nonneg_of_elapsed hms
  have hzero : r.untimed.elapsed clock = .ok 0 := rfl
  simp only [conclude, hms, hzero, bind, Except.bind]
  cases reason with
  | none =>
    exact Outcome.success_untimed r.level r.world.robot ⟨r.blocksUsed, r.history.length, ms⟩ hnonneg
  | some text =>
    exact Outcome.failure_untimed r.level r.world.robot ⟨r.blocksUsed, r.history.length, ms⟩
      (some text) hnonneg

/-- A turn, and what it is without times. -/
structure Untimes (turn : Turn Report) (turn' : Turn Report) : Prop where
  value : turn'.value = turn.value.map Report.untimed
  run : turn'.run = turn.run.untimed

theorem finish_untimed (h : r.Timed c) (entry : Option Step) (reason : Option Text)
    (clock : Clock) :
    Untimes (r.finish entry reason c) (r.untimed.finish entry reason clock) := by
  have hconclude := conclude_untimed h reason clock
  unfold finish
  cases ho : r.conclude reason c with
  | ok o =>
    rw [ho] at hconclude
    rw [hconclude]
    exact ⟨rfl, rfl⟩
  | error fault =>
    rw [ho] at hconclude
    rw [hconclude]
    exact ⟨rfl, rfl⟩

/-- **A step commutes with forgetting times**, and the clock does not matter to it otherwise. -/
theorem step_untimed (h : r.Timed c) (clock : Clock) :
    Untimes (r.step c) (r.untimed.step clock) := by
  have hcurrent : r.untimed.current? = r.current? := rfl
  have houtcome : r.untimed.outcome = r.outcome.map Outcome.untimed := rfl
  unfold step
  rw [houtcome, hcurrent]
  cases hout : r.outcome with
  | some o => exact ⟨rfl, rfl⟩
  | none =>
    cases r.current? with
    | none => exact finish_untimed h none (judgement r.level r.world) clock
    | some block =>
      have hexecute : r.untimed.execute block =
          ((r.execute block).1, (r.execute block).2.untimed) := rfl
      have htimed : (r.execute block).2.Timed c := h
      simp only [Option.map_none, hexecute]
      split
      · exact ⟨rfl, rfl⟩
      · exact finish_untimed htimed _ _ clock

/-- A step that brings no outcome does not read the clock. -/
theorem timed_step (h : r.Timed c) {step : Option Step}
    (hvalue : (r.step c).value = .ok ⟨step, none⟩) : (r.step c).run.Timed (r.step c).clock := by
  cases hout : r.outcome with
  | some o =>
    rw [step_of_outcome hout] at hvalue
    cases hvalue
  | none =>
    have hnot : ∀ (r' : Run) entry reason,
        (r'.finish entry reason c).value ≠ .ok ⟨step, none⟩ := by
      intro r' entry reason hfinish
      rcases r'.finish_cases entry reason c with ⟨o, -, hv, -⟩ | ⟨fault, hv, -⟩
      · cases hv.symm.trans hfinish
      · cases hv.symm.trans hfinish
    unfold Run.step at hvalue ⊢
    rw [hout] at hvalue ⊢
    cases hcurrent : r.current? with
    | none =>
      rw [hcurrent] at hvalue
      exact absurd hvalue (hnot _ _ _)
    | some block =>
      rw [hcurrent] at hvalue
      simp only at hvalue ⊢
      split at hvalue
      · next hsuccess =>
        rw [if_pos hsuccess]
        exact h
      · exact absurd hvalue (hnot _ _ _)

/-! ## Runs that go the same way -/

/-- Two runs that are the same but for times, with clocks that tell how long they have taken. -/
structure Abreast (r r' : Run) (c c' : Clock) : Prop where
  untimed : r.untimed = r'.untimed
  timed : r.Timed c
  timed' : r'.Timed c'

namespace Abreast

/-- Where one of the runs reports, so does the other. -/
theorem exists_value (h : Abreast r r' c c') {report' : Report}
    (hvalue : (r'.step c').value = .ok report') :
    ∃ report, (r.step c).value = .ok report ∧ report.untimed = report'.untimed := by
  have hsame : (r.step c).value.map Report.untimed = (r'.step c').value.map Report.untimed := by
    rw [← (step_untimed h.timed c).value, ← (step_untimed h.timed' c).value, h.untimed]
  rw [hvalue] at hsame
  rcases hv : (r.step c).value with fault | report
  · rw [hv] at hsame
    cases hsame
  · rw [hv] at hsame
    exact ⟨report, rfl, Except.ok.inj hsame⟩

theorem run (h : Abreast r r' c c') : (r.step c).run.untimed = (r'.step c').run.untimed := by
  rw [← (step_untimed h.timed c).run, ← (step_untimed h.timed' c).run, h.untimed]

/-- Where one of the runs goes on, so does the other. -/
theorem value_of_running (h : Abreast r r' c c') {step : Option Step}
    (hvalue : (r'.step c').value = .ok ⟨step, none⟩) :
    (r.step c).value = .ok ⟨step, none⟩ := by
  obtain ⟨⟨step', _ | o⟩, hv, hsame⟩ := h.exists_value hvalue
  · cases hsame
    exact hv
  · cases hsame

/-- Where one of the runs ends, so does the other. -/
theorem value_of_ending (h : Abreast r r' c c') {step : Option Step} {o : Outcome}
    (hvalue : (r'.step c').value = .ok ⟨step, some o⟩) :
    ∃ o', (r.step c).value = .ok ⟨step, some o'⟩ ∧ o'.untimed = o.untimed := by
  obtain ⟨⟨step', outcome⟩, hv, hsame⟩ := h.exists_value hvalue
  obtain ⟨rfl, houtcome⟩ := Report.mk.inj hsame
  obtain ⟨o', rfl, huntimed⟩ := Option.map_eq_some_iff.mp houtcome
  exact ⟨o', hv, huntimed⟩

theorem step (h : Abreast r r' c c') {step : Option Step}
    (hvalue : (r'.step c').value = .ok ⟨step, none⟩) :
    Abreast (r.step c).run (r'.step c').run (r.step c).clock (r'.step c').clock :=
  ⟨h.run, timed_step h.timed (h.value_of_running hvalue), timed_step h.timed' hvalue⟩

end Abreast

/-- The run and the clock after some calls of `step`. -/
def past (r : Run) (clock : Clock) : Nat → Run × Clock
  | 0 => (r, clock)
  | n + 1 => ((r.turn clock n).run, (r.turn clock n).clock)

theorem turn_eq_step_past (r : Run) (clock : Clock) (n : Nat) :
    r.turn clock n = (r.past clock n).1.step (r.past clock n).2 := by
  cases n <;> rfl

/-- Runs that go on stay the same but for times. -/
theorem Abreast.past (h : Abreast r r' c c') {n : Nat}
    (hrunning : ∀ i < n, ∃ step, (r'.turn c' i).value = .ok ⟨some step, none⟩) :
    Abreast (r.past c n).1 (r'.past c' n).1 (r.past c n).2 (r'.past c' n).2 := by
  induction n with
  | zero => exact h
  | succ n ih =>
    have hbefore := ih fun i hi => hrunning i (Nat.lt_succ_of_lt hi)
    obtain ⟨step, hstep⟩ := hrunning n (Nat.lt_succ_self n)
    rw [turn_eq_step_past] at hstep
    have hafter := hbefore.step hstep
    rwa [← turn_eq_step_past, ← turn_eq_step_past] at hafter

/-! ## Runs that are started -/

/-- Runs of one level with the same cap start alike on the same blocks. -/
theorem untimed_start (hlevel : r.level = r'.level) (hlimit : r.limit = r'.limit)
    (blocks : List Block) (c c' : Clock) :
    (r.start blocks c).value = (r'.start blocks c').value ∧
      (r.start blocks c).run.untimed = (r'.start blocks c').run.untimed := by
  have hreset : r.reset = r'.reset := by rw [reset, reset, hlevel, hlimit]
  have hcap : r.cap = r'.cap := by rw [cap, cap, hlimit]
  unfold start
  rw [hreset, hcap]
  cases Unrolled.unroll r'.cap blocks <;> exact ⟨rfl, rfl⟩

theorem timed_start {blocks : List Block} (hstart : (r.start blocks c).value = .ok ())
    (htime : ∃ ms, c.next.millisBetween c.tick.next = .ok ms) :
    (r.start blocks c).run.Timed (r.start blocks c).clock := by
  obtain ⟨stream, -, heq⟩ := start_eq hstart
  rw [heq]
  exact htime

/-- A run that is started comes to an end. -/
theorem exists_ends_of_start {blocks : List Block} (hstart : (r.start blocks c).value = .ok ())
    (htime : ∃ ms, c.next.millisBetween c.tick.next = .ok ms) (hopt : 0 ≤ r.level.optimal)
    (hscore : r.level.isMetBy (r.start blocks c).run.plainWorld = true →
      (Scoring.score? r.level (r.start blocks c).run.plainWorld.robot
        blocks.length).isSome = true) :
    ∃ earlier k o, (r.start blocks c).run.Ends (r.start blocks c).clock earlier k o := by
  obtain ⟨-, hall, hfirst⟩ := start_ends r blocks c hstart htime hopt hscore
  by_cases hok : ∀ step ∈ (r.start blocks c).run.plainSteps, step.success = true
  · obtain ⟨o, hends⟩ := hall hok
    exact ⟨_, _, o, hends⟩
  · obtain ⟨i, step, hstep, hfail, hbefore⟩ := exists_first_failure hok
    obtain ⟨o, hends⟩ := hfirst i step hstep hfail hbefore
    exact ⟨_, _, o, hends⟩

end Run

end RobotPuzzle
