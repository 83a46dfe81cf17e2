import RobotPuzzle.Program.Unrolled
import RobotPuzzle.Run.Clock
import RobotPuzzle.Run.Outcome
import RobotPuzzle.Run.Step

/-!
# Runs

A run takes a player's program through the world of a level, one instruction a step. `start` unrolls
the program and puts the world back to the beginning; each `step` executes one instruction, or
judges the goal when none are left. The first instruction that fails, or the judgement, ends the
run: from then on a step only repeats the outcome, until the run is started or reset.

The clock is read when a run starts, and when it ends.

* `step_of_outcome`: a finished run stands still.
-/

namespace RobotPuzzle

/-- A run of a level, from before its start to after its end. -/
structure Run where
  level : Level
  /-- The cap on the instructions, where it is not the usual one. -/
  limit : Option Int
  world : World
  stream : List Block
  /-- How many instructions have been executed. -/
  cursor : Nat
  history : List Step
  blocksUsed : Nat
  startedAt : Option Instant
  outcome : Option Outcome

/-- What one step of a run did: the instruction that was executed, and the outcome if the run is
over. -/
structure Report where
  step : Option Step
  outcome : Option Outcome
  deriving DecidableEq, Repr

/-- A result that comes with the run and the clock as they are left, also when it is a fault. -/
structure Turn (α : Type) where
  value : Except Fault α
  run : Run
  clock : Clock

namespace Run

/-- A run that has not been started. -/
def fresh (level : Level) (limit : Option Int) : Run :=
  { level, limit, world := level.initialWorld, stream := [], cursor := 0, history := []
    blocksUsed := 0, startedAt := none, outcome := none }

/-- The run put back to before its start. -/
def reset (r : Run) : Run := fresh r.level r.limit

/-- The cap on the instructions. -/
def cap (r : Run) : Int := r.limit.getD Unrolled.standardLimit

/-- Whether no instruction is left. -/
def isExhausted (r : Run) : Bool := r.stream.length ≤ r.cursor

/-- How many instructions are left. -/
def remaining (r : Run) : Nat := r.stream.length - r.cursor

/-- The next instruction. -/
def current? (r : Run) : Option Block := r.stream[r.cursor]?

/-- Starts a run of a program. A program that unrolls past the cap leaves the run reset. -/
def start (r : Run) (blocks : List Block) (clock : Clock) : Turn Unit :=
  match Unrolled.unroll r.cap blocks with
  | none => ⟨.error (.programTooLong r.cap), r.reset, clock⟩
  | some stream =>
    { value := .ok ()
      run := { r.reset with
        stream, blocksUsed := blocks.length, startedAt := some clock.next }
      clock := clock.tick }

/-- What is logged when a run has started. -/
def startLine (r : Run) : Text :=
  s!"[Linearizer] {r.blocksUsed} blocks -> {r.stream.length} instructions"

/-- What is logged for an instruction, when every one is logged. -/
def stepLine (r : Run) (step : Step) : Text :=
  let p := step.robot.position
  let told : Text := if step.message.isEmpty then "" else ": " ++ step.message
  s!"[Step {r.cursor}/{r.stream.length}] {Word.spelling step.command}" ++
    s!" -> ({p.row}, {p.col}) facing {Word.spelling step.robot.direction}" ++ told

/-- The reason for failing a goal. -/
def goalNotReached : Text := "Goal not reached"

/-- The reason for a failure that tells none. -/
def unknownReason : Text := "Execution failed"

/-- The reason that a failed step gives: its message, if it has one. -/
def reasonOf (step : Step) : Text := if step.message.isEmpty then unknownReason else step.message

/-- The reason why the world misses the level's goal, if it does. -/
def judgement (level : Level) (world : World) : Option Text :=
  if level.isMetBy world then none else some goalNotReached

/-- The milliseconds since the start by the clock's next reading; none have passed before it. -/
def elapsed (r : Run) (clock : Clock) : Except Fault Int :=
  match r.startedAt with
  | none => .ok 0
  | some start => start.millisBetween clock.next

/-- The outcome of the run as it stands: a failure if there is a reason for one. -/
def conclude (r : Run) (reason : Option Text) (clock : Clock) : Except Fault Outcome := do
  let time ← r.elapsed clock
  let counts : Counts := ⟨r.blocksUsed, r.history.length, time⟩
  match reason with
  | none => Outcome.success r.level r.world.robot counts
  | some _ => Outcome.failure r.level r.world.robot counts reason

/-- Ends the run, reporting the step that ended it. -/
def finish (r : Run) (step : Option Step) (reason : Option Text) (clock : Clock) : Turn Report :=
  let after := if r.startedAt.isSome then clock.tick else clock
  match r.conclude reason clock with
  | .ok outcome => ⟨.ok ⟨step, some outcome⟩, { r with outcome := some outcome }, after⟩
  | .error fault => ⟨.error fault, r, after⟩

/-- Executes an instruction: the step is committed to the world and entered into the history, and is
marked as the last one if it failed or nothing is left. -/
def execute (r : Run) (block : Block) : Step × Run :=
  let done := Step.execute block r.world.robot r.world.tiles r.level.size
  let cursor := r.cursor + 1
  let step := { done with isLast := !done.success || r.stream.length ≤ cursor }
  (step, { r with cursor, history := r.history ++ [step], world := step.commit r.world })

/-- Executes the next instruction, or judges the goal if none is left. -/
def step (r : Run) (clock : Clock) : Turn Report :=
  match r.outcome with
  | some outcome => ⟨.ok ⟨none, some outcome⟩, r, clock⟩
  | none =>
    match r.current? with
    | none => r.finish none (judgement r.level r.world) clock
    | some block =>
      let (step, after) := r.execute block
      if step.success then ⟨.ok ⟨some step, none⟩, after, clock⟩
      else after.finish (some step) (some (reasonOf step)) clock

/-- The step that a turn added to a run's history, if it did. -/
def addedStep? (before after : Run) : Option Step :=
  if before.history.length < after.history.length then after.history.getLast? else none

/-- Steps until the run is over or a fault comes up, `limit` times before the last one at most, and
returns the turns before the last one, and the last one. -/
def stepUntilOver (limit : Nat) (r : Run) (clock : Clock) : List (Turn Report) × Turn Report :=
  let turn := r.step clock
  match limit, turn.value with
  | limit + 1, .ok ⟨_, none⟩ =>
    let (earlier, last) := stepUntilOver limit turn.run turn.clock
    (turn :: earlier, last)
  | _, _ => ([], turn)

/-- Steps until the run is over or a fault comes up. There is a step for each instruction that is
left, and one for the judgement. -/
def finishUp (r : Run) (clock : Clock) : List (Turn Report) × Turn Report :=
  r.stepUntilOver r.remaining clock

/-- The messages for the instructions of turns that follow each other. -/
def stepLines (r : Run) : List (Turn Report) → List Text
  | [] => []
  | turn :: rest =>
    ((addedStep? r turn.run).map turn.run.stepLine).toList ++ stepLines turn.run rest

theorem step_of_outcome {r : Run} {outcome : Outcome} (h : r.outcome = some outcome)
    (clock : Clock) : r.step clock = ⟨.ok ⟨none, some outcome⟩, r, clock⟩ := by
  simp [step, h]

end Run

end RobotPuzzle
