import RobotPuzzle.Proofs.Catalog.Order
import RobotPuzzle.Proofs.Session.Loop
import RobotPuzzle.Proofs.Session.Recording
import RobotPuzzle.Proofs.Session.Replay

/-!
# Playing

A run that is on can be ticked by hand, or played. Both bring it to its end: at every moment a run
is over after a tick for each instruction that is left, and one for the judgement, at the latest.
Where nobody interferes, playing sleeps once before each of these ticks, and comes to the same.

* `Run.exists_endsWith`: from any of its moments, a run comes to its end.
* `Session.exists_tickedOut`: so does a session that is ticked by hand.
* `Session.awake_tick`: a tick does not sleep, and does not change the pace.
* `Session.course_of_tickedOut`: what a loop does that nobody interferes with.
* `Session.playsOut_at_every_moment`: playing and ticking come to the same.
-/

namespace RobotPuzzle

namespace Run

variable {r : Run} {c : Clock}

/-! ## The rest of a run -/

/-- The world when all instructions that are left have been executed. -/
def outlook (r : Run) : World :=
  ((r.stream.drop r.cursor).foldl (fun r block => (r.execute block).2) r).world

/-- If the run can still meet its goal, the score for that fits a double. -/
def Scores (r : Run) : Prop :=
  r.level.isMetBy r.outlook = true →
    (Scoring.score? r.level r.outlook.robot r.blocksUsed).isSome = true

/-- A run executes an instruction with each of `earlier` calls of `step`, and ends with the next
one, which brings an outcome of its level. -/
structure EndsWith (r : Run) (clock : Clock) (earlier : Nat) (o : Outcome) : Prop where
  running : ∀ i < earlier, ∃ step, (r.turn clock i).value = .ok ⟨some step, none⟩
  last : ∃ step, (r.turn clock earlier).value = .ok ⟨step, some o⟩
  levelId : o.levelId = r.level.id
  rated : o.Rated

/-- The turns behind a first one are those of the run that it leaves. -/
theorem turn_succ (r : Run) (clock : Clock) (n : Nat) :
    r.turn clock (n + 1) = (r.step clock).run.turn (r.step clock).clock n := by
  induction n with
  | zero => rfl
  | succ n ih => rw [turn, ih, turn]

theorem endsWith_of_finish {r' : Run} {entry : Option Step} {reason : Option Text} {o : Outcome}
    (hstep : r.step c = r'.finish entry reason c) (hlevel : r'.level = r.level)
    (ho : r'.conclude reason c = .ok o) : r.EndsWith c 0 o := by
  have hreports := (conclude_eq_ok ho).2
  refine ⟨fun i hi => absurd hi (Nat.not_lt_zero i), ⟨entry, ?_⟩, ?_, hreports.toRated⟩
  · rw [turn, hstep, finish_of_conclude ho]
  · rw [← hlevel, hreports.levelId]

theorem EndsWith.after_step {step : Step} {earlier : Nat} {o : Outcome}
    (hvalue : (r.step c).value = .ok ⟨some step, none⟩) (hlevel : (r.step c).run.level = r.level)
    (h : (r.step c).run.EndsWith (r.step c).clock earlier o) : r.EndsWith c (earlier + 1) o := by
  refine ⟨fun i hi => ?_, ?_, h.levelId.trans (congrArg Level.id hlevel), h.rated⟩
  · cases i with
    | zero => exact ⟨step, hvalue⟩
    | succ i =>
      rw [turn_succ]
      exact h.running i (Nat.lt_of_succ_lt_succ hi)
  · rw [turn_succ]
    exact h.last

/-- Where no instruction is left, a step judges the goal. -/
theorem step_of_exhausted (hout : r.outcome = none) (hcurrent : r.current? = none) :
    r.step c = r.finish none (judgement r.level r.world) c := by
  simp only [step, hout, hcurrent]

theorem step_of_success {block : Block} (hout : r.outcome = none)
    (hcurrent : r.current? = some block) (hok : (r.execute block).1.success = true) :
    r.step c = ⟨.ok ⟨some (r.execute block).1, none⟩, (r.execute block).2, c⟩ := by
  simp only [step, hout, hcurrent, hok, ↓reduceIte]

theorem step_of_failure {block : Block} (hout : r.outcome = none)
    (hcurrent : r.current? = some block) (hfail : (r.execute block).1.success = false) :
    r.step c = (r.execute block).2.finish (some (r.execute block).1)
      (some (reasonOf (r.execute block).1)) c := by
  simp only [step, hout, hcurrent, hfail, Bool.false_eq_true, ↓reduceIte]

theorem outlook_of_exhausted (hcurrent : r.current? = none) : r.outlook = r.world := by
  rw [outlook, List.drop_eq_nil_of_le (List.getElem?_eq_none_iff.mp hcurrent)]
  rfl

/-- Executing the next instruction does not change what is ahead. -/
theorem outlook_execute {block : Block} (hcurrent : r.current? = some block) :
    (r.execute block).2.outlook = r.outlook := by
  obtain ⟨hlt, rfl⟩ := List.getElem?_eq_some_iff.mp hcurrent
  rw [outlook, outlook, List.drop_eq_getElem_cons hlt]
  rfl

/-- **From any of its moments, a run comes to its end**, with a step for each instruction that is
left and one for the judgement at the latest. -/
theorem exists_endsWith (hout : r.outcome = none) (htime : r.Timed c) (hopt : 0 ≤ r.level.optimal)
    (hscores : r.Scores) : ∃ earlier o, earlier ≤ r.remaining ∧ r.EndsWith c earlier o := by
  -- An instruction that succeeds leaves one less, and the same clock, score and world ahead.
  induction hleft : r.remaining generalizing r with
  | zero =>
    have hcurrent : r.current? = none :=
      List.getElem?_eq_none_iff.mpr (Nat.sub_eq_zero_iff_le.mp hleft)
    obtain ⟨o, ho⟩ : ∃ o, r.conclude (judgement r.level r.world) c = .ok o := by
      refine exists_conclude htime hopt fun hnone => ?_
      rw [← outlook_of_exhausted hcurrent] at hnone ⊢
      exact hscores (judgement_eq_none hnone)
    exact ⟨0, o, Nat.le_refl 0, endsWith_of_finish (step_of_exhausted hout hcurrent) rfl ho⟩
  | succ n ih =>
    rw [remaining] at hleft
    have hlt : r.cursor < r.stream.length := by omega
    have hcurrent : r.current? = some r.stream[r.cursor] := List.getElem?_eq_getElem hlt
    cases hsuccess : (r.execute r.stream[r.cursor]).1.success with
    | true =>
      have hstep := step_of_success (c := c) hout hcurrent hsuccess
      have hahead : (r.execute r.stream[r.cursor]).2.Scores := by
        rw [Scores, outlook_execute hcurrent]
        exact hscores
      have hfewer : (r.execute r.stream[r.cursor]).2.remaining = n := by
        show r.stream.length - (r.cursor + 1) = n
        omega
      obtain ⟨earlier, o, hle, hends⟩ :=
        ih (r := (r.execute r.stream[r.cursor]).2) hout htime hopt hahead hfewer
      refine ⟨earlier + 1, o, Nat.succ_le_succ hle,
        .after_step (congrArg Turn.value hstep) ?_ ?_⟩ <;> rw [hstep]
      · rfl
      · exact hends
    | false =>
      obtain ⟨o, ho⟩ : ∃ o, (r.execute r.stream[r.cursor]).2.conclude
          (some (reasonOf (r.execute r.stream[r.cursor]).1)) c = .ok o := by
        refine exists_conclude ?_ ?_ nofun
        · exact htime
        · exact hopt
      exact ⟨0, o, Nat.zero_le _,
        endsWith_of_finish (step_of_failure hout hcurrent hsuccess) rfl ho⟩

/-- A step takes one instruction at most. -/
theorem remaining_step (r : Run) (clock : Clock) :
    r.remaining ≤ (r.step clock).run.remaining + 1 := by
  rcases r.step_executes clock with h | h <;> rw [remaining, remaining, h.stream, h.cursor]
  · exact Nat.le_succ _
  · omega

end Run

namespace Session

variable {s t : Session} {r : Run} {c : Clock} {n : Nat} {o : Outcome}

/-! ## Ticking by hand -/

/-- Ticked by hand, a session executes until it is over with the last of `n` ticks, and each of them
reports. -/
structure TickedOut (s : Session) (n : Nat) (o : Outcome) : Prop where
  executing : ∀ i < n, (s.follow (ticks i)).stage = .executing
  reports : ∀ i < n, ∃ report, (s.follow (ticks i)).tick.1 = .ok (some report)
  stage : (s.follow (ticks n)).stage = ending o
  lastOutcome : (s.follow (ticks n)).lastOutcome = some o

/-- The store does not fault when the outcome of a run of a level is recorded. -/
def Recordable (s : Session) (id : Int) : Prop :=
  ∀ o : Outcome, o.Rated → o.levelId = id →
    ∃ p, (s.store.record o (s.catalog.following id)).1 = .ok p

/-- Whether an outcome can be recorded does not change while the run goes on. -/
theorem fst_recordOutcome_ticks (h : s.OnRun r c)
    (hrunning : ∀ i < n, ∃ step, (r.turn c i).value = .ok ⟨some step, none⟩) (o : Outcome) :
    ((s.follow (ticks n)).recordOutcome o).1 = (s.recordOutcome o).1 := by
  induction n with
  | zero => rfl
  | succ n ih =>
    have hbefore : ∀ i < n, ∃ step, (r.turn c i).value = .ok ⟨some step, none⟩ :=
      fun i hi => hrunning i (Nat.lt_succ_of_lt hi)
    obtain ⟨hs, ⟨a, ha, hrun⟩, hclock⟩ := onRun_ticks h hbefore
    obtain ⟨step, hstep⟩ := hrunning n (Nat.lt_succ_self n)
    rw [Run.turn_eq_step_past, ← hrun, ← hclock] at hstep
    obtain ⟨journal, message, htold⟩ :=
      (s.follow (ticks n)).told_eq a (a.run.step (s.follow (ticks n)).clock) ⟨some step, none⟩
    rw [follow_ticks_succ, tick_of_running hs ha hstep, htold, ← ih hbefore]
    refine fst_recordOutcome ?_ ?_ o <;> rfl

/-- A session whose run comes to its end is over when it has been ticked so often. -/
theorem tickedOut_of_endsWith (h : s.OnRun r c) {earlier : Nat} (hends : r.EndsWith c earlier o)
    (hrecorded : (s.recordOutcome o).1 = .ok ()) : s.TickedOut (earlier + 1) o := by
  have hon : ∀ i ≤ earlier, (s.follow (ticks i)).OnRun (r.past c i).1 (r.past c i).2 :=
    fun i hi => onRun_ticks h fun j hj => hends.running j (Nat.lt_of_lt_of_le hj hi)
  obtain ⟨step, hlast⟩ := hends.last
  rw [Run.turn_eq_step_past] at hlast
  obtain ⟨hreport, hstage, houtcome, -⟩ := ends_tick (hon earlier (Nat.le_refl _)) hlast
  rw [fst_recordOutcome_ticks h hends.running, hrecorded] at hreport
  refine
    { executing := fun i hi => (hon i (Nat.le_of_lt_succ hi)).stage
      reports := fun i hi => ?_
      stage := (congrArg stage (follow_ticks_succ s earlier)).trans hstage
      lastOutcome := (congrArg lastOutcome (follow_ticks_succ s earlier)).trans houtcome }
  rcases Nat.lt_or_eq_of_le (Nat.le_of_lt_succ hi) with hi | rfl
  · obtain ⟨step', hrunning⟩ := hends.running i hi
    rw [Run.turn_eq_step_past] at hrunning
    exact ⟨_, (onRun_tick (hon i (Nat.le_of_lt hi)) hrunning).1⟩
  · exact ⟨_, hreport⟩

/-- Sessions that agree are over after the same ticks. -/
theorem TickedOut.of_agrees (h : s.TickedOut n o) (ha : s.Agrees t) : t.TickedOut n o := by
  have hafter : ∀ i, (s.follow (ticks i)).Agrees (t.follow (ticks i)) :=
    fun i => (agrees_ticks ha i).1
  refine ⟨fun i hi => ?_, fun i hi => ?_, ?_, ?_⟩
  · rw [(hafter i).stage]
    exact h.executing i hi
  · rw [(hafter i).tick.value]
    exact h.reports i hi
  · rw [(hafter n).stage, h.stage]
  · rw [(hafter n).lastOutcome, h.lastOutcome]

/-- Behind its first tick, a session is over after one tick less. -/
theorem TickedOut.tick (h : s.TickedOut (n + 1) o) : s.tick.2.TickedOut n o :=
  { executing := fun i hi => h.executing (i + 1) (Nat.succ_lt_succ hi)
    reports := fun i hi => h.reports (i + 1) (Nat.succ_lt_succ hi)
    stage := h.stage
    lastOutcome := h.lastOutcome }

/-- A session whose parts fit together is over after a tick for each instruction that is left and
one for the judgement, at the latest. -/
theorem exists_tickedOut (hs : s.Orderly) (hread : s.catalog.IsRead)
    (hstage : s.stage = .executing) {a : Attempt} (ha : s.attempt = some a)
    (htime : a.run.Timed s.clock) (hscores : a.run.Scores) (hstore : s.Recordable a.level.id) :
    ∃ n o, n ≤ a.run.remaining + 1 ∧ s.TickedOut n o := by
  obtain ⟨index, hindex, hmem⟩ := hs.listed a ha
  obtain ⟨source, j, hj⟩ := hread.exists_read hindex hmem
  have hlevel : a.run.level = a.level := (hs.coherent.fits a ha).level
  have hopt : 0 ≤ a.run.level.optimal := by
    rw [hlevel]
    exact Int.le_of_lt (Level.one_le_optimal_of_read hj)
  have hout : a.run.outcome = none := (hs.coherent.running hstage ha).outcome
  obtain ⟨earlier, o, hle, hends⟩ := Run.exists_endsWith hout htime hopt hscores
  refine ⟨earlier + 1, o, Nat.succ_le_succ hle,
    tickedOut_of_endsWith ⟨hstage, ⟨a, ha, rfl⟩, rfl⟩ hends ?_⟩
  have hid : o.levelId = a.level.id := hends.levelId.trans (congrArg Level.id hlevel)
  obtain ⟨p, hp⟩ := hstore o hends.rated hid
  rw [Catalog.following_of_index hindex] at hp
  simp only [recordOutcome, Catalog.next_of_index hindex, hid, hp]
  rfl

/-! ## Ticks and sleeps -/

/-- A session goes on at the same pace, without a sleep. -/
structure Awake (s t : Session) : Prop where
  speed : t.speed = s.speed
  journal : ∃ events, t.journal = s.journal ++ events ∧ Journal.sleeps events = []

theorem awake_of_journal (hspeed : t.speed = s.speed) (hj : t.journal = s.journal) : s.Awake t :=
  ⟨hspeed, [], hj.trans (List.append_nil _).symm, rfl⟩

theorem Awake.trans {u : Session} (h : s.Awake t) (h' : t.Awake u) : s.Awake u := by
  obtain ⟨events, hj, hsleeps⟩ := h.journal
  obtain ⟨events', hj', hsleeps'⟩ := h'.journal
  refine ⟨h'.speed.trans h.speed, events ++ events', ?_, ?_⟩
  · rw [hj', hj, List.append_assoc]
  · rw [Journal.sleeps_append, hsleeps, hsleeps', List.append_nil]

theorem awake_afterTurn (s : Session) (a : Attempt) (turn : Turn Report) :
    s.Awake (s.afterTurn a turn) := by
  unfold afterTurn
  dsimp only
  split
  · exact awake_of_journal rfl rfl
  · exact ⟨rfl, _, rfl, rfl⟩

theorem awake_tellStep (s : Session) (report : Report) : s.Awake (s.tellStep report) := by
  obtain ⟨message, h⟩ := s.tellStep_eq report
  rw [h]
  exact awake_of_journal rfl rfl

theorem awake_conclude (hs : s.stage = .executing) (o : Outcome) : s.Awake (s.conclude o).2 := by
  obtain ⟨message, hconclude⟩ := conclude_eq hs o
  have hgo : s.Awake ({ s with lastOutcome := some o, message }.goTo (ending o)) :=
    ⟨rfl, _, List.append_assoc _ _ _, rfl⟩
  rw [hconclude, snd_recordOutcome]
  refine (hgo.trans ?_).trans (awake_of_journal rfl rfl)
  unfold logOutcome
  split <;> exact ⟨rfl, _, rfl, rfl⟩

/-- A tick does not sleep, and does not change the pace. -/
theorem awake_tick (s : Session) : s.Awake s.tick.2 := by
  rcases s.tick_cases with h | ⟨a, hs, ha⟩
  · rw [h]
    exact awake_of_journal rfl rfl
  · have hturn := s.awake_afterTurn a (a.run.step s.clock)
    rcases hvalue : (a.run.step s.clock).value with fault | ⟨step, _ | o⟩
    · rw [tick_of_fault hs ha hvalue]
      exact hturn
    · rw [tick_of_running hs ha hvalue]
      exact hturn.trans (awake_tellStep _ _)
    · have hstage : ((s.afterTurn a (a.run.step s.clock)).tellStep ⟨step, some o⟩).stage =
          .executing := by
        obtain ⟨journal, message, htold⟩ := s.told_eq a (a.run.step s.clock) ⟨step, some o⟩
        rw [htold]
        exact hs
      rw [tick_of_ending hs ha hvalue]
      exact (hturn.trans (awake_tellStep _ _)).trans (awake_conclude hstage o)

/-- A tick takes one of the ticks that are left at most. -/
theorem ticksLeft_tick (s : Session) : s.ticksLeft ≤ s.tick.2.ticksLeft + 1 := by
  rcases s.tick_cases with h | ⟨a, hs, ha⟩
  · rw [h]
    exact Nat.le_succ _
  · have hattempt := (snd_tick hs ha).1
    have hremaining := a.run.remaining_step s.clock
    simp only [ticksLeft, ha, hattempt, Option.map_some, Option.getD_some]
    exact Nat.succ_le_succ hremaining

/-! ## Loops that nobody interferes with -/

/-- `n` rounds of a loop in which nothing is asked. -/
def course (millis : Int) (n : Nat) : List Deed :=
  (List.replicate n [.sleep millis, .act .tick]).flatten

theorem course_succ (millis : Int) (n : Nat) :
    course millis (n + 1) = .sleep millis :: .act .tick :: course millis n := rfl

/-- The sleeps of the rounds are in the journal, and the pace is the same behind them. -/
theorem journal_course (s : Session) (millis : Int) (n : Nat) :
    (s.follow (course millis n)).speed = s.speed ∧
      ∃ events, (s.follow (course millis n)).journal = s.journal ++ events ∧
        Journal.sleeps events = List.replicate n millis := by
  induction n generalizing s with
  | zero => exact ⟨rfl, [], (List.append_nil _).symm, rfl⟩
  | succ n ih =>
    have htick := (s.sleep millis).awake_tick
    obtain ⟨hspeed, later, hlater, hslept⟩ := ih (s.sleep millis).tick.2
    obtain ⟨events, hj, hsleeps⟩ := htick.journal
    have hfollow : s.follow (course millis (n + 1)) =
        (s.sleep millis).tick.2.follow (course millis n) := rfl
    refine ⟨hfollow ▸ hspeed.trans htick.speed, .slept millis :: events ++ later, ?_, ?_⟩
    · rw [hfollow, hlater, hj, sleep, enter]
      simp
    · rw [Journal.sleeps_append, hslept, List.replicate_succ]
      have hfirst : Journal.sleeps (.slept millis :: events) =
          millis :: Journal.sleeps events := rfl
      rw [hfirst, hsleeps]
      rfl

/-- Ticks come to what the rounds come to. -/
theorem agrees_course (h : s.Agrees t) (millis : Int) (n : Nat) :
    (s.follow (ticks n)).Agrees (t.follow (course millis n)) := by
  induction n generalizing s t with
  | zero => exact h
  | succ n ih =>
    have hslept : s.Agrees (t.sleep millis) := h.trans (.retimed t _ _ _)
    exact ih hslept.tick.session

/-- What a round in which nothing is asked leaves of a loop: one tick less. -/
structure Passes (s t : Session) (n : Nat) (o : Outcome) : Prop where
  tickedOut : t.TickedOut n o
  speed : t.speed = s.speed
  generation : t.generation = s.generation
  ticksLeft : s.ticksLeft ≤ t.ticksLeft + 1

theorem exists_passes (h : s.TickedOut (n + 1) o) (millis : Int) :
    ∃ report t, (s.sleep millis).tick = (.ok report, t) ∧ s.Passes t n o := by
  have hslept : (s.sleep millis).TickedOut (n + 1) o := h.of_agrees (.retimed s _ _ _)
  obtain ⟨report, hreport⟩ := hslept.reports 0 (Nat.succ_pos n)
  exact ⟨some report, (s.sleep millis).tick.2, Prod.ext hreport rfl,
    { tickedOut := hslept.tick
      speed := (s.sleep millis).awake_tick.speed
      generation := (keeps_tick (s.sleep millis)).generation
      ticksLeft := (s.sleep millis).ticksLeft_tick }⟩

theorem TickedOut.not_executing (h : s.TickedOut 0 o) : s.stage ≠ .executing := by
  have hstage : s.stage = ending o := h.stage
  intro hs
  have hover := isOver_ending o
  rw [← hstage, hs] at hover
  cases hover

/-- A loop that is given ticks enough makes those that lead to the end. -/
theorem courseOut_of_tickedOut (h : s.TickedOut n o) {limit : Nat} (hn : n ≤ limit) :
    deedsOut limit s = course s.speed.millis n ∧ (driveOut limit s).1 = none := by
  induction n generalizing s limit with
  | zero =>
    rw [driveOut_of_not_executing h.not_executing]
    refine ⟨?_, rfl⟩
    cases limit with
    | zero => rfl
    | succ limit => exact if_neg h.not_executing
  | succ n ih =>
    obtain ⟨limit, rfl⟩ : ∃ m, limit = m + 1 := ⟨limit - 1, by omega⟩
    obtain ⟨report, t, htick, hpasses⟩ := exists_passes h s.speed.millis
    have hs : s.stage = .executing := h.executing 0 (Nat.succ_pos n)
    obtain ⟨hdeeds, hfault⟩ := ih hpasses.tickedOut (Nat.le_of_succ_le_succ hn)
    rw [deedsOut, driveOut, if_pos hs, if_pos hs, htick, course_succ]
    simp only [hdeeds, hfault, hpasses.speed, and_self]

/-- **What a loop does that nobody interferes with**: it sleeps and ticks in turn, until the run is
over. -/
theorem course_of_tickedOut {during : List (List Request)}
    (hquiet : ∀ requests ∈ during, requests = []) (h : s.TickedOut n o)
    (hn : n ≤ s.ticksLeft) :
    deedsLoop s.generation during s = course s.speed.millis n ∧
      (drive s.generation during s).1 = [] ∧ (drive s.generation during s).2.1 = none := by
  induction during generalizing s n with
  | nil =>
    obtain ⟨hdeeds, hfault⟩ := courseOut_of_tickedOut h hn
    rw [deedsLoop, drive]
    exact ⟨hdeeds, rfl, hfault⟩
  | cons requests rest ih =>
    obtain rfl := hquiet requests List.mem_cons_self
    cases n with
    | zero =>
      rw [deedsLoop, drive, if_neg h.not_executing, if_neg h.not_executing]
      exact ⟨rfl, rfl, rfl⟩
    | succ n =>
      obtain ⟨report, t, htick, hpasses⟩ := exists_passes h s.speed.millis
      have hs : s.stage = .executing := h.executing 0 (Nat.succ_pos n)
      -- So the limit that is set where the requests run out suffices, however late that is.
      have hleft : n ≤ t.ticksLeft := by
        have := hpasses.ticksLeft
        omega
      obtain ⟨hdeeds, hentries, hfault⟩ :=
        ih (fun r hr => hquiet r (List.mem_cons_of_mem [] hr)) hpasses.tickedOut hleft
      have hwoken : (s.sleep s.speed.millis).generation = s.generation ∧
          (s.sleep s.speed.millis).stage = .executing := ⟨rfl, hs⟩
      rw [hpasses.generation] at hdeeds hentries hfault
      rw [deedsLoop, drive, if_pos hs, if_pos hs, deedsAll_nil, performAll_nil, course_succ]
      simp only [hwoken, and_self, ↓reduceIte, htick, hdeeds, hentries, hfault, hpasses.speed,
        List.nil_append]

/-! ## Playing -/

/-- Playing without a request during its sleeps comes to `n` ticks that are made by hand. -/
structure PlayedOut (s : Session) (speed : Option Speed) (during : List (List Request)) (n : Nat)
    (o : Outcome) : Prop where
  /-- It sleeps for the pace in force before each of the ticks, and does nothing else. -/
  course : deeds (.play (speed.map .ok) during) s =
    .beginPlay (speed.map .ok) :: course (speed.getD s.speed).millis n
  /-- It returns the outcome, and tells the sleeps. -/
  reply : (perform (.play (speed.map .ok) during) s).1 =
    .played (some o) (List.replicate n (speed.getD s.speed).millis) []
  /-- The pace is still in force then. -/
  pace : (perform (.play (speed.map .ok) during) s).2.speed = speed.getD s.speed
  /-- The stage, the run with its history and world, the last outcome, the message, the store and
  the clock are those that the ticks leave. -/
  agrees : (s.follow (ticks n)).Agrees (perform (.play (speed.map .ok) during) s).2

theorem beginPlay_map_ok (s : Session) (speed : Option Speed) :
    s.beginPlay (speed.map .ok) =
      (.ok (), { s with speed := speed.getD s.speed, generation := s.generation + 1 }) := by
  cases speed <;> rfl

/-- Playing comes to the ticks by which a session is over. -/
theorem playedOut_of_tickedOut (speed : Option Speed) {during : List (List Request)}
    (hquiet : ∀ requests ∈ during, requests = []) (h : s.TickedOut n o) (hn : n ≤ s.ticksLeft) :
    s.PlayedOut speed during n o := by
  let begun : Session :=
    { s with speed := speed.getD s.speed, generation := s.generation + 1 }
  have hb : s.beginPlay (speed.map .ok) = (.ok (), begun) := s.beginPlay_map_ok speed
  have hagree : s.Agrees begun := .retimed s _ _ _
  obtain ⟨hdeeds, hentries, hfault⟩ := course_of_tickedOut hquiet (h.of_agrees hagree) hn
  obtain ⟨hspeed, events, hj, hsleeps⟩ := begun.journal_course begun.speed.millis n
  have hend : (s.follow (ticks n)).Agrees (begun.follow (course begun.speed.millis n)) :=
    agrees_course hagree _ n
  have hdrive : (drive begun.generation during begun).2.2 =
      begun.follow (course begun.speed.millis n) := by rw [← follow_deedsLoop, hdeeds]
  refine
    { course := ?_
      reply := ?_
      pace := ?_
      agrees := ?_ }
  · rw [deeds, hb]
    exact congrArg _ hdeeds
  · have hover : (begun.follow (course begun.speed.millis n)).stage.isOver = true := by
      rw [hend.stage, h.stage, isOver_ending]
    rw [perform_play hb, hentries, hfault, hdrive, playReply, playedOutcome, if_pos hover,
      hend.lastOutcome, h.lastOutcome, sleepsSince, hj, List.drop_left, hsleeps]
  · rw [snd_perform_play hb, hdeeds, hspeed]
  · rw [snd_perform_play hb, hdeeds]
    exact hend

/-- What becomes of a run that is played from here without a request during the sleeps: it comes to
its end by some ticks, at most one for each instruction that is left and one for the judgement, and
playing comes to these ticks. The outcome can be made because the next reading of the clock is a
finite time after the start and the score of a met goal fits a double, and the store does not fault
when it is recorded. -/
def PlaysOut (s : Session) : Prop :=
  ∀ a, s.stage = .executing → s.attempt = some a → a.run.Timed s.clock → a.run.Scores →
    s.Recordable a.level.id →
    ∃ n o, n ≤ a.run.remaining + 1 ∧ s.TickedOut n o ∧
      ∀ (speed : Option Speed) (during : List (List Request)),
        (∀ requests ∈ during, requests = []) → s.PlayedOut speed during n o

theorem playsOut_of_orderly (hs : s.Orderly) (hread : s.catalog.IsRead) : s.PlaysOut := by
  intro a hstage ha htime hscores hstore
  obtain ⟨n, o, hn, hticked⟩ := exists_tickedOut hs hread hstage ha htime hscores hstore
  refine ⟨n, o, hn, hticked, fun speed during hquiet =>
    playedOut_of_tickedOut speed hquiet hticked ?_⟩
  rw [ticksLeft, ha]
  exact hn

/-- **Playing is ticking.** In a session whose catalog has its levels from files, a run that is on
plays out at any moment of what players do, those during sleeps included: playing comes to the ticks
that are made by hand, sleeps before each of them and returns the outcome. -/
theorem playsOut_at_every_moment {catalog : Catalog} (hread : catalog.IsRead) (store : Store)
    (clock : Clock) (limit : Option Int) (speed : Speed) :
    let s := fresh catalog store clock limit speed
    (∀ deeds : List Deed, (∀ d ∈ deeds, d.isPlayers = true) → (s.follow deeds).PlaysOut) ∧
    ∀ requests : List Request, Request.arePlayers requests = true →
      s.follow (deedsAll requests s) = (performAll requests s).2 ∧
      ∀ moment, moment <+: deedsAll requests s → (s.follow moment).PlaysOut := by
  intro s
  refine at_every_moment fun deeds hp => ?_
  have horderly : (s.follow deeds).Orderly :=
    follow_induction (orderly_fresh catalog store clock limit speed)
      (fun _ _ => orderly_of_leads) hp
  have hcatalog : (s.follow deeds).catalog.IsRead := by
    refine follow_induction (P := fun s' => s'.catalog.IsRead) hread (fun s' s'' h hl => ?_) hp
    intro index hindex
    exact h index (hl.index.symm.trans hindex)
  exact playsOut_of_orderly horderly hcatalog

end Session

/-! ## A sample -/

open Session in
/-- The run through the corridor is over after its two instructions and the judgement. Played at the
double pace, it comes to the same. -/
theorem playsOut_corridorStart :
    let now := (corridorSession (.memory .empty)).follow corridorStart
    ∃ n o, n ≤ 3 ∧ now.TickedOut n o ∧ now.PlayedOut (some .double) [[], []] n o := by
  intro now
  have hread : Catalog.IsRead ⟨"levels", none, some [corridor]⟩ := by
    intro index hindex
    cases hindex
    exact ⟨[⟨"corridor.json", .value corridorFile⟩], by with_unfolding_all rfl⟩
  have hshows : now.attempt.map (fun a => (a.run.remaining, a.run.startedAt)) =
      some (2, some (.whole 0)) := by decide +kernel
  have hscores : now.attempt.all (fun a => decide (a.run.level.isMetBy a.run.outlook = true →
      (Scoring.score? a.run.level a.run.outlook.robot a.run.blocksUsed).isSome = true)) = true := by
    decide +kernel
  obtain ⟨a, ha, hvalues⟩ := Option.map_eq_some_iff.mp hshows
  obtain ⟨hremaining, hstarted⟩ := Prod.mk.inj hvalues
  rw [ha, Option.all_some, decide_eq_true_eq] at hscores
  have htime : a.run.Timed now.clock := by
    have hclock : now.clock = .still := by decide +kernel
    rw [hclock, Run.Timed, Run.elapsed, hstarted]
    exact ⟨0, rfl⟩
  have hstore : now.Recordable a.level.id := by
    have hmemory : now.store = .memory .empty := by decide +kernel
    have hempty : Store.Shows (.memory .empty) .empty := fun _ => rfl
    intro o ho _
    rw [hmemory]
    exact (Store.shows_record hempty Records.valid_empty ho _).1
  obtain ⟨n, o, hn, hticked, hplayed⟩ :=
    (playsOut_at_every_moment hread (.memory .empty) .still none .single).1 corridorStart
      (by decide) a (by decide +kernel) ha htime hscores hstore
  rw [hremaining] at hn
  exact ⟨n, o, hn, hticked, hplayed _ _ (by decide)⟩

end RobotPuzzle
