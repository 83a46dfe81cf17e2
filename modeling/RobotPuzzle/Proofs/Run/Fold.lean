import RobotPuzzle.Proofs.Run.Rating

/-!
# A run is a fold of its instructions

A run that has been started executes its stream in order, each instruction in the world that the one
before it left (`Step.executeAll`), until one fails or none is left.

* `Step.executeAll_append`: executing a stream piece by piece.
* `Run.advanced`: what a started run has become after its first `k` instructions.
* `Run.turn_eq_step_advanced`: as long as no instruction fails, each call of `step` advances the run
  by one.
* `Run.start_ends`: where a run ends, and that it stands still from then on.
-/

namespace RobotPuzzle

namespace Step

theorem executeAll_append (world : World) (a b : List Block) :
    executeAll world (a ++ b) =
      ((executeAll world a).1 ++ (executeAll (executeAll world a).2 b).1,
        (executeAll (executeAll world a).2 b).2) := by
  induction a generalizing world with
  | nil => rfl
  | cons block rest ih => simp [executeAll, ih]

/-- Each step names the block that it executed. -/
theorem map_block_executeAll (world : World) (blocks : List Block) :
    (executeAll world blocks).1.map (fun s => (s.blockId, s.command)) =
      blocks.map fun b => (b.id, b.command) := by
  induction blocks generalizing world with
  | nil => rfl
  | cons block rest ih => simp only [executeAll, List.map_cons, ih]; rfl

theorem size_executeAll (world : World) (blocks : List Block) :
    (executeAll world blocks).2.size = world.size := by
  induction blocks generalizing world with
  | nil => rfl
  | cons block rest ih => simp only [executeAll, ih]; rfl

/-- The step of an instruction is its execution in the world that those before it leave. -/
theorem getElem?_executeAll (world : World) (blocks : List Block) (k : Nat) :
    (executeAll world blocks).1[k]? =
      blocks[k]?.map fun block =>
        let before := (executeAll world (blocks.take k)).2
        execute block before.robot before.tiles before.size := by
  induction blocks generalizing world k with
  | nil => simp [executeAll]
  | cons block rest ih =>
    cases k with
    | zero => rfl
    | succ k => simpa [executeAll] using ih _ k

/-- The step as a run of `total` instructions enters it as number `i`, counted from zero: it is the
last one if it failed or none is left. -/
def entered (total i : Nat) (step : Step) : Step :=
  { step with isLast := !step.success || total ≤ i + 1 }

/-- The history of a run of `total` instructions that has taken some steps. -/
def history (total : Nat) (steps : List Step) : List Step := steps.mapIdx (entered total)

theorem history_append_singleton (total : Nat) (steps : List Step) (step : Step) :
    history total (steps ++ [step]) =
      history total steps ++ [entered total steps.length step] := by
  simp [history]

theorem length_history (total : Nat) (steps : List Step) :
    (history total steps).length = steps.length := by
  simp [history]

/-- What does not depend on the mark is read off a history as off the plain steps. -/
theorem map_history {β : Type} {f : Step → β} (hf : ∀ s b, f { s with isLast := b } = f s)
    (total : Nat) (steps : List Step) : (history total steps).map f = steps.map f := by
  apply List.ext_getElem?
  intro i
  simp only [history, List.getElem?_map, List.getElem?_mapIdx, Option.map_map]
  congr 1
  funext s
  exact hf s _

/-- A plain step is not marked. -/
theorem map_unmarked_executeAll (world : World) (blocks : List Block) :
    (executeAll world blocks).1.map (fun s => { s with isLast := false }) =
      (executeAll world blocks).1 := by
  induction blocks generalizing world with
  | nil => rfl
  | cons block rest ih => simp only [executeAll, List.map_cons, ih]; rfl

end Step

namespace Run

/-- A started run after the first `k` instructions of its stream. -/
def advanced (r : Run) (k : Nat) : Run :=
  let done := Step.executeAll r.world (r.stream.take k)
  { r with cursor := k, history := Step.history r.stream.length done.1, world := done.2 }

/-- The turn of the call of `step` that follows `n` others, whatever those answered. -/
def turn (r : Run) (clock : Clock) : Nat → Turn Report
  | 0 => r.step clock
  | n + 1 => (r.turn clock n).run.step (r.turn clock n).clock

/-- A run that has been started and has not taken a step. -/
structure Started (r : Run) : Prop where
  world : r.world = r.level.initialWorld
  cursor : r.cursor = 0
  history : r.history = []
  outcome : r.outcome = none

theorem advanced_zero {r : Run} (h : r.Started) : r.advanced 0 = r := by
  obtain ⟨-, hc, hh, -⟩ := h
  cases r
  simp_all [advanced, Step.executeAll, Step.history]

/-- The steps that the stream of a run takes in the level's initial world, if none is in the way of
the next. -/
def plainSteps (r : Run) : List Step := (Step.executeAll r.level.initialWorld r.stream).1

/-- The world that they leave. -/
def plainWorld (r : Run) : World := (Step.executeAll r.level.initialWorld r.stream).2

theorem length_plainSteps (r : Run) : r.plainSteps.length = r.stream.length :=
  Step.length_executeAll _ _

/-- Executing the next instruction advances the run by one. -/
theorem execute_advanced {r : Run} (hr : r.Started) {k : Nat} {block : Block} {step : Step}
    (hb : r.stream[k]? = some block) (hs : r.plainSteps[k]? = some step) :
    (r.advanced k).execute block = (step.entered r.stream.length k, r.advanced (k + 1)) := by
  have hk : k < r.stream.length := (List.getElem?_eq_some_iff.mp hb).1
  have htake : r.stream.take (k + 1) = r.stream.take k ++ [block] := by
    rw [List.take_add_one, hb]
    rfl
  have hsize : (Step.executeAll r.level.initialWorld (r.stream.take k)).2.size = r.level.size :=
    Step.size_executeAll _ _
  have hlen : (Step.executeAll r.level.initialWorld (r.stream.take k)).1.length = k := by
    rw [Step.length_executeAll, List.length_take]
    omega
  rw [plainSteps, Step.getElem?_executeAll, hb, Option.map_some, Option.some.injEq] at hs
  subst hs
  simp only [execute, advanced, hr.world, htake, Step.executeAll_append, Step.executeAll,
    Step.history_append_singleton, hlen, hsize]
  rfl

/-- The step of instruction `k` is entered behind those before it. -/
theorem history_advanced_succ {r : Run} (hr : r.Started) {k : Nat} {step : Step}
    (hs : r.plainSteps[k]? = some step) :
    (r.advanced (k + 1)).history = (r.advanced k).history ++ [step.entered r.stream.length k] := by
  obtain ⟨hk, -⟩ := List.getElem?_eq_some_iff.mp hs
  rw [length_plainSteps] at hk
  have hexec := execute_advanced hr (List.getElem?_eq_getElem hk) hs
  have hhist : ((r.advanced k).execute r.stream[k]).2.history =
      (r.advanced k).history ++ [((r.advanced k).execute r.stream[k]).1] := rfl
  rwa [hexec] at hhist

theorem getLast?_history_advanced {r : Run} (hr : r.Started) {k : Nat} {step : Step}
    (hs : r.plainSteps[k]? = some step) :
    (r.advanced (k + 1)).history.getLast? = some (step.entered r.stream.length k) := by
  rw [history_advanced_succ hr hs, List.getLast?_concat]

/-- A call of `step` executes the next instruction, and ends the run if that fails. -/
theorem step_advanced {r : Run} (hr : r.Started) {k : Nat} {step : Step}
    (hs : r.plainSteps[k]? = some step) (clock : Clock) :
    (r.advanced k).step clock =
      let entry := step.entered r.stream.length k
      if step.success then ⟨.ok ⟨some entry, none⟩, r.advanced (k + 1), clock⟩
      else (r.advanced (k + 1)).finish (some entry) (some (reasonOf step)) clock := by
  obtain ⟨hk, -⟩ := List.getElem?_eq_some_iff.mp hs
  rw [length_plainSteps] at hk
  have hb : r.stream[k]? = some r.stream[k] := List.getElem?_eq_getElem hk
  have hcur : (r.advanced k).current? = some r.stream[k] := hb
  have hout : (r.advanced k).outcome = none := hr.outcome
  simp only [Run.step, hout, hcur, execute_advanced hr hb hs]
  rfl

/-- Where no instruction is left, a call of `step` judges the goal. -/
theorem step_advanced_length {r : Run} (hr : r.Started) (clock : Clock) :
    let all := r.advanced r.stream.length
    all.step clock = all.finish none (judgement r.level all.world) clock := by
  have hcur : (r.advanced r.stream.length).current? = none := by simp [current?, advanced]
  have hout : (r.advanced r.stream.length).outcome = none := hr.outcome
  simp only [Run.step, hout, hcur]
  rfl

/-- As long as no instruction has failed, each call of `step` has advanced the run by one. -/
theorem turn_eq_step_advanced {r : Run} (hr : r.Started) (clock : Clock) {n : Nat}
    (hn : n ≤ r.stream.length) (hok : ∀ step ∈ r.plainSteps.take n, step.success = true) :
    r.turn clock n = (r.advanced n).step clock := by
  induction n with
  | zero => rw [advanced_zero hr]; rfl
  | succ n ih =>
    have hlt : n < r.plainSteps.length := by rw [length_plainSteps]; omega
    have hs : r.plainSteps[n]? = some r.plainSteps[n] := List.getElem?_eq_getElem hlt
    have hmem : r.plainSteps[n] ∈ r.plainSteps.take (n + 1) :=
      List.mem_take_iff_getElem.mpr ⟨n, by omega, rfl⟩
    have hprev := ih (by omega) fun step h =>
      hok step (List.take_subset_take_left _ (Nat.le_succ n) h)
    rw [turn, hprev, step_advanced hr hs]
    simp only [hok _ hmem, ↓reduceIte]

/-! ## The end of a run -/

/-- How a started run ends, if `earlier` calls of `step` come before the last one and `k`
instructions are executed in all. -/
structure Ends (r : Run) (clock : Clock) (earlier k : Nat) (o : Outcome) : Prop where
  /-- The earlier calls execute an instruction each. -/
  running : ∀ i < earlier, ∃ step, (r.turn clock i).value = .ok ⟨some step, none⟩
  /-- The last call reports the outcome, with the instruction that failed if it executed one. -/
  last : (r.turn clock earlier).value =
    .ok ⟨if earlier < k then (r.turn clock earlier).run.history.getLast? else none, some o⟩
  outcome : (r.turn clock earlier).run.outcome = some o
  /-- The steps are those of the plain fold over the first `k` instructions. -/
  steps : (r.turn clock earlier).run.history.map (fun s => { s with isLast := false }) =
    (Step.executeAll r.level.initialWorld (r.stream.take k)).1
  blocks : (r.turn clock earlier).run.history.map (fun s => (s.blockId, s.command)) =
    (r.stream.take k).map fun b => (b.id, b.command)
  /-- A step is marked as the last one if it failed or executed the last instruction. -/
  isLast : ∀ i s, (r.turn clock earlier).run.history[i]? = some s →
    (s.isLast = true ↔ s.success = false ∨ i + 1 = r.stream.length)
  world : (r.turn clock earlier).run.world =
    (Step.executeAll r.level.initialWorld (r.stream.take k)).2
  cursor : (r.turn clock earlier).run.cursor = k
  length_history : (r.turn clock earlier).run.history.length = k
  stepsCounted : o.steps = k
  /-- Later calls repeat the outcome and change nothing. -/
  frozen : ∀ n, earlier < n → r.turn clock n =
    ⟨.ok ⟨none, some o⟩, (r.turn clock earlier).run, (r.turn clock earlier).clock⟩

theorem length_history_advanced (r : Run) {k : Nat} (hk : k ≤ r.stream.length) :
    (r.advanced k).history.length = k := by
  simp only [advanced, Step.length_history, Step.length_executeAll, List.length_take]
  omega

/-- A run that is over stands still. -/
theorem turn_of_outcome {r : Run} {clock : Clock} {earlier : Nat} {o : Outcome}
    (h : (r.turn clock earlier).run.outcome = some o) {n : Nat} (hn : earlier < n) :
    r.turn clock n =
      ⟨.ok ⟨none, some o⟩, (r.turn clock earlier).run, (r.turn clock earlier).clock⟩ := by
  induction n with
  | zero => omega
  | succ n ih =>
    rw [turn]
    rcases Nat.lt_or_eq_of_le (Nat.le_of_lt_succ hn) with hlt | rfl
    · rw [ih hlt]
      exact step_of_outcome h _
    · exact step_of_outcome h _

theorem getElem?_history_advanced {r : Run} {k i : Nat} {s : Step}
    (h : (r.advanced k).history[i]? = some s) :
    s.isLast = true ↔ s.success = false ∨ r.stream.length ≤ i + 1 := by
  simp only [advanced, Step.history, List.getElem?_mapIdx, Option.map_eq_some_iff] at h
  obtain ⟨plain, -, rfl⟩ := h
  simp [Step.entered]

/-- The end of a run whose last call of `step` advances it to `k` instructions and makes its
outcome. -/
theorem ends_of_finish {r : Run} (hr : r.Started) {clock : Clock} {earlier k : Nat}
    {entry : Option Step} {reason : Option Text} {o : Outcome} (hn : earlier ≤ r.stream.length)
    (hk : k ≤ r.stream.length) (hok : ∀ step ∈ r.plainSteps.take earlier, step.success = true)
    (hlast : (r.advanced earlier).step clock = (r.advanced k).finish entry reason clock)
    (hentry : entry = if earlier < k then (r.advanced k).history.getLast? else none)
    (ho : (r.advanced k).conclude reason clock = .ok o) : r.Ends clock earlier k o := by
  have hturn : r.turn clock earlier = _ :=
    (turn_eq_step_advanced hr clock hn hok).trans (hlast.trans (finish_of_conclude ho))
  have hlen := length_history_advanced r hk
  have hhist : (r.turn clock earlier).run.history = (r.advanced k).history := by rw [hturn]
  have hout : (r.turn clock earlier).run.outcome = some o := by rw [hturn]
  have hplain : (r.advanced k).history = Step.history r.stream.length
      (Step.executeAll r.level.initialWorld (r.stream.take k)).1 := by
    rw [advanced, hr.world]
  refine
    { running := fun i hi => ?_
      last := by rw [hturn, hentry]
      outcome := hout
      steps := ?_
      blocks := ?_
      isLast := fun i s h => ?_
      world := by rw [hturn, advanced, hr.world]
      cursor := by rw [hturn]; rfl
      length_history := by rw [hhist, hlen]
      stepsCounted := by rw [(conclude_eq_ok ho).2.steps, hlen]
      frozen := fun n hn => turn_of_outcome hout hn }
  · have hlt : i < r.plainSteps.length := by rw [length_plainSteps]; omega
    have hs : r.plainSteps[i]? = some r.plainSteps[i] := List.getElem?_eq_getElem hlt
    have hsucc : r.plainSteps[i].success = true :=
      hok _ (List.mem_take_iff_getElem.mpr ⟨i, by omega, rfl⟩)
    have hbefore : ∀ step ∈ r.plainSteps.take i, step.success = true := fun step h =>
      hok step (List.take_subset_take_left _ (Nat.le_of_lt hi) h)
    rw [turn_eq_step_advanced hr clock (by omega) hbefore, step_advanced hr hs]
    simp only [hsucc, ↓reduceIte]
    exact ⟨_, rfl⟩
  · rw [hhist, hplain, Step.map_history (fun _ _ => rfl), Step.map_unmarked_executeAll]
  · rw [hhist, hplain, Step.map_history (fun _ _ => rfl), Step.map_block_executeAll]
  · rw [hhist] at h
    have hi : i < k := hlen ▸ (List.getElem?_eq_some_iff.mp h).1
    rw [getElem?_history_advanced h]
    have : r.stream.length ≤ i + 1 ↔ i + 1 = r.stream.length := by omega
    rw [this]

theorem world_advanced_length {r : Run} (hr : r.Started) :
    (r.advanced r.stream.length).world = r.plainWorld := by
  simp only [advanced, plainWorld, List.take_length, hr.world]

theorem judgement_eq_none {level : Level} {world : World} (h : judgement level world = none) :
    level.isMetBy world = true := by
  unfold judgement at h
  split at h
  · assumption
  · cases h

/-- A run whose instructions all succeed ends with the judgement behind them. -/
theorem exists_ends_of_success {r : Run} (hr : r.Started) {clock : Clock}
    (htime : ∃ ms, r.elapsed clock = .ok ms) (hopt : 0 ≤ r.level.optimal)
    (hscore : r.level.isMetBy r.plainWorld = true →
      (Scoring.score? r.level r.plainWorld.robot r.blocksUsed).isSome = true)
    (hok : ∀ step ∈ r.plainSteps, step.success = true) :
    ∃ o, r.Ends clock r.stream.length r.stream.length o := by
  have hworld := world_advanced_length hr
  obtain ⟨o, ho⟩ : ∃ o, (r.advanced r.stream.length).conclude
      (judgement r.level (r.advanced r.stream.length).world) clock = .ok o := by
    refine exists_conclude htime hopt fun h => ?_
    rw [hworld] at h ⊢
    exact hscore (judgement_eq_none h)
  exact ⟨o, ends_of_finish hr (Nat.le_refl _) (Nat.le_refl _)
    (fun step h => hok step (List.mem_of_mem_take h)) (step_advanced_length hr _) (by simp) ho⟩

/-- The call of `step` for an instruction that fails. -/
theorem step_advanced_of_failure {r : Run} (hr : r.Started) {i : Nat} {step : Step}
    (hs : r.plainSteps[i]? = some step) (hfail : step.success = false) (clock : Clock) :
    (r.advanced i).step clock = (r.advanced (i + 1)).finish
      (some (step.entered r.stream.length i)) (some (reasonOf step)) clock := by
  rw [step_advanced hr hs]
  simp only [hfail, Bool.false_eq_true, ↓reduceIte]

/-- A run ends with the first instruction that fails. -/
theorem exists_ends_of_failure {r : Run} (hr : r.Started) {clock : Clock}
    (htime : ∃ ms, r.elapsed clock = .ok ms) (hopt : 0 ≤ r.level.optimal) {i : Nat} {step : Step}
    (hs : r.plainSteps[i]? = some step) (hfail : step.success = false)
    (hok : ∀ before ∈ r.plainSteps.take i, before.success = true) :
    ∃ o, r.Ends clock i (i + 1) o := by
  have hi : i < r.stream.length := by
    rw [← length_plainSteps]
    exact (List.getElem?_eq_some_iff.mp hs).1
  obtain ⟨o, ho⟩ : ∃ o, (r.advanced (i + 1)).conclude (some (reasonOf step)) clock = .ok o :=
    exists_conclude htime hopt fun h => by cases h
  refine ⟨o, ends_of_finish hr (Nat.le_of_lt hi) hi hok
    (step_advanced_of_failure hr hs hfail clock) ?_ ho⟩
  rw [if_pos (Nat.lt_succ_self i), getLast?_history_advanced hr hs]

/-! ## Runs that were started -/

/-- What a successful start makes of a run, whatever was done with it before. -/
theorem start_eq {r : Run} {blocks : List Block} {clock : Clock}
    (h : (r.start blocks clock).value = .ok ()) :
    ∃ stream, Unrolled.unroll r.cap blocks = some stream ∧
      r.start blocks clock =
        ⟨.ok (), { r.reset with
          stream, blocksUsed := blocks.length, startedAt := some clock.next }, clock.tick⟩ := by
  unfold start at h
  split at h
  · cases h
  · next stream hs => exact ⟨stream, hs, by simp only [start, hs]⟩

theorem value_start {r : Run} {blocks stream : List Block}
    (h : Unrolled.unroll r.cap blocks = some stream) (clock : Clock) :
    (r.start blocks clock).value = .ok () := by
  simp only [start, h]

theorem started_start {r : Run} {blocks : List Block} {clock : Clock}
    (h : (r.start blocks clock).value = .ok ()) : (r.start blocks clock).run.Started := by
  obtain ⟨stream, -, hstart⟩ := start_eq h
  rw [hstart]
  exact ⟨rfl, rfl, rfl, rfl⟩

/-- **A run refines the plain fold of its instructions.** A run that starts on a program, whatever
was done with it before, ends on the call of `step` after those for all instructions if none of them
fails, and on the call for the first one that fails otherwise. The outcome can be made because the
clock's next two readings are a finite time apart, the optimal number of blocks is not negative and
the score of a met goal fits a double. -/
theorem start_ends (r : Run) (blocks : List Block) (clock : Clock)
    (hstart : (r.start blocks clock).value = .ok ())
    (htime : ∃ ms, clock.next.millisBetween clock.tick.next = .ok ms)
    (hopt : 0 ≤ r.level.optimal)
    (hscore : r.level.isMetBy (r.start blocks clock).run.plainWorld = true →
      (Scoring.score? r.level (r.start blocks clock).run.plainWorld.robot
        blocks.length).isSome = true) :
    let started := r.start blocks clock
    let n := started.run.stream.length
    Unrolled.unroll r.cap blocks = some started.run.stream ∧
      ((∀ step ∈ started.run.plainSteps, step.success = true) →
        ∃ o, started.run.Ends started.clock n n o) ∧
      ∀ i step, started.run.plainSteps[i]? = some step → step.success = false →
        (∀ before ∈ started.run.plainSteps.take i, before.success = true) →
        ∃ o, started.run.Ends started.clock i (i + 1) o := by
  have hr := started_start hstart
  obtain ⟨stream, hs, heq⟩ := start_eq hstart
  rw [heq] at hr hscore ⊢
  have htime' : ∃ ms, Run.elapsed { r.reset with
      stream, blocksUsed := blocks.length, startedAt := some clock.next } clock.tick = .ok ms :=
    htime
  exact ⟨hs, exists_ends_of_success hr htime' hopt hscore,
    fun i step hstep hfail hok => exists_ends_of_failure hr htime' hopt hstep hfail hok⟩

end Run

/-! ## A sample -/

/-- A corridor of four cells, with a coin on the second one, a spike on the third and the goal on
the last one. -/
def corridor : Level :=
  { id := 1, name := "Corridor", chapter := 1, chapterName := "", description := ""
    difficulty := .easy, size := ⟨1, 4⟩
    tiles := [.plain "a" .start ⟨0, 0⟩, .plain "b" .coin ⟨0, 1⟩, .plain "c" .spike ⟨0, 2⟩,
      .plain "d" .goal ⟨0, 3⟩]
    start := ⟨0, 0⟩, facing := .right, commands := [.moveForward, .jump, .loopStart], maxBlocks := 5
    optimalBlocks := none, goal := .collectAndReach, coinsRequired := 1, gemsRequired := 0
    hints := [] }

/-- A loop around a move. -/
def loopedMove : List Block :=
  [⟨.loopStart, "1", 0, some .standard⟩, ⟨.moveForward, "2", 1, none⟩]

/-- A move and a jump. -/
def moveAndJump : List Block :=
  [⟨.moveForward, "1", 0, none⟩, ⟨.jump, "2", 0, none⟩]

open Run in
/-- The looped move ends on the spike with the second call of `step`; the move and the jump, started
on the run that has ended there, reach the goal, which the third call finds. -/
theorem corridor_ends :
    let looped := (Run.fresh corridor none).start loopedMove .still
    let ended := looped.run.turn looped.clock 1
    let jumping := ended.run.start moveAndJump ended.clock
    (∃ o, looped.run.Ends looped.clock 1 2 o) ∧ ∃ o, jumping.run.Ends jumping.clock 2 2 o := by
  intro looped ended jumping
  have htime : ∃ ms, Clock.still.next.millisBetween Clock.still.tick.next = .ok ms := ⟨0, rfl⟩
  have hloop : Unrolled.unroll (Run.fresh corridor none).cap loopedMove =
      some [loopedMove[1], loopedMove[1]] := by decide +kernel
  have hjump : Unrolled.unroll ended.run.cap moveAndJump = some moveAndJump := by decide +kernel
  have hlooped : looped.value = .ok () := value_start hloop _
  have hjumping : jumping.value = .ok () := value_start hjump _
  have hclock : ended.clock = .still := by decide +kernel
  have hspike : looped.run.plainSteps[1]?.map Step.success = some false := by decide +kernel
  obtain ⟨step, hstep, hfail⟩ := Option.map_eq_some_iff.mp hspike
  have hn : jumping.run.stream.length = 2 := by decide +kernel
  have hends := start_ends _ loopedMove .still hlooped htime (by decide) (by decide +kernel)
  have hends' := start_ends ended.run moveAndJump ended.clock hjumping (hclock ▸ htime)
    (by decide +kernel) (by decide +kernel)
  exact ⟨hends.2.2 1 step hstep hfail (by decide +kernel), hn ▸ hends'.2.1 (by decide +kernel)⟩

end RobotPuzzle
