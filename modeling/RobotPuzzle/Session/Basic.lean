import RobotPuzzle.Catalog.Basic
import RobotPuzzle.Program.Basic
import RobotPuzzle.Progress.Store
import RobotPuzzle.Run.Basic
import RobotPuzzle.Session.Journal
import RobotPuzzle.Settings

/-!
# Sessions

A session ties the editing of a program, its run and the recording of what came of it together. It
goes through stages: levels are picked at the level selection, a countdown leads to the editor, a
run ends in the results or as failed.

Every action takes a session and returns its answer, or a fault, with the session as it is left. An
action that does not fit the stage is refused: it answers false or nothing and changes nothing.

* `move_of_mem`: a move that the table of stages allows is made.
* `tick_of_not_executing`: ticks do nothing outside of a run.
-/

namespace RobotPuzzle

/-- The program that is put together for a level, and its run. -/
structure Attempt where
  program : Program
  run : Run

namespace Attempt

/-- An attempt at a level, with an empty program. -/
def fresh (level : Level) (limit : Option Int) : Attempt :=
  ⟨Program.empty level, Run.fresh level limit⟩

/-- The level of the attempt. -/
def level (a : Attempt) : Level := a.program.level

end Attempt

/-- A player's session. -/
structure Session where
  catalog : Catalog
  store : Store
  clock : Clock
  /-- The cap on instructions, where it is not the usual one. -/
  limit : Option Int
  speed : Speed
  stage : Stage
  attempt : Option Attempt
  lastOutcome : Option Outcome
  /-- What the player was last told. -/
  message : Text
  /-- Counts the loops that have driven a run; all but the latest one are retired. -/
  generation : Nat
  /-- How many blocks have been placed. -/
  placed : Nat
  journal : Journal

namespace Session

/-- An answer, or a fault, and the session as it is left. -/
abbrev Result (α : Type) := Except Fault α × Session

/-- A session at the menu. -/
def fresh (catalog : Catalog) (store : Store) (clock : Clock) (limit : Option Int)
    (speed : Speed) : Session :=
  { catalog, store, clock, limit, speed, stage := .menu, attempt := none, lastOutcome := none
    message := "", generation := 0, placed := 0, journal := [] }

/-! ## What a session shows -/

/-- The world of the run. -/
def world? (s : Session) : Option World := s.attempt.map (·.run.world)

/-- How many instructions of the run have been executed. -/
def cursor (s : Session) : Nat := (s.attempt.map (·.run.cursor)).getD 0

/-- The steps of the run. -/
def history (s : Session) : List Step := (s.attempt.map (·.run.history)).getD []

/-- The blocks of the program. -/
def blocks (s : Session) : List Block := (s.attempt.map (·.program.blocks)).getD []

/-! ## Keeping the journal -/

/-- Enters an event. -/
def enter (s : Session) (e : Event) : Session := { s with journal := s.journal ++ [e] }

/-- Logs a message. -/
def log (s : Session) (topic : Console.Topic) (message : Text) : Session :=
  s.enter (.logged topic message)

/-- Goes to a stage and logs it. -/
def goTo (s : Session) (target : Stage) : Session :=
  let source := s.stage
  ({ s with stage := target }.log .session s!"[Session] {source.name} -> {target.name}").enter
    (.moved source target)

/-- Sleeps for some milliseconds. -/
def sleep (s : Session) (millis : Int) : Session := s.enter (.slept millis)

/-- Goes to a stage that the table of stages allows. -/
def move (s : Session) (target : Stage) : Result Unit :=
  if s.stage.next.contains target then (.ok (), s.goTo target)
  else (.error (.forbiddenMove s.stage target), s)

/-- Goes to a stage and answers true. -/
def moveAndAnswer (s : Session) (target : Stage) : Result Bool :=
  match s.move target with
  | (.ok _, s) => (.ok true, s)
  | (.error fault, s) => (.error fault, s)

/-- Goes to a stage from one of some others, and is refused from the rest. -/
def moveFrom (s : Session) (sources : List Stage) (target : Stage) : Result Bool :=
  if sources.contains s.stage then s.moveAndAnswer target else (.ok false, s)

/-! ## Picking a level -/

/-- From the menu to the level selection. -/
def openLevelSelect (s : Session) : Result Bool := s.moveFrom [.menu] .levelSelect

/-- From the level selection back to the menu. -/
def backToMenu (s : Session) : Result Bool := s.moveFrom [.levelSelect] .menu

/-- The stages in which a level can be picked. -/
def picking : List Stage := [.levelSelect, .results, .failed]

/-- Begins an attempt at a level. -/
def begin (s : Session) (level : Level) : Session :=
  { s with attempt := some (.fresh level s.limit), lastOutcome := none, message := "" }

/-- Begins an attempt at a level, and the countdown to it. -/
def enterLevel (s : Session) (level : Level) : Result Level :=
  match (s.begin level).move .countdown with
  | (.error fault, s) => (.error fault, s)
  | (.ok _, s) =>
    (.ok level, s.log .info
      (s!"[Session] Level {level.id}: " ++ level.name ++ s!" ({Word.spelling level.difficulty})"))

/-- The session after its catalog has been asked something. -/
def consult (s : Session) : Session := { s with catalog := s.catalog.remember }

/-- Picks the level of the catalog that a value names, if it is unlocked. -/
def select (s : Session) (key : Json) : Result Level :=
  if picking.contains s.stage then
    match s.catalog.find key with
    | .error fault => (.error fault, s.consult)
    | .ok level =>
      let s := s.consult
      match s.store.isOpen key with
      | .error fault => (.error fault, s)
      | .ok false =>
        (.error (.levelLocked key), s.log .error ("[Session] Level " ++ key.text ++ " is locked"))
      | .ok true => s.enterLevel level
  else (.error (.forbiddenMove s.stage .countdown), s)

/-- Ends the countdown. -/
def finishCountdown (s : Session) : Result Bool := s.moveFrom [.countdown] .building

/-! ## Editing -/

/-- The attempt whose program may be edited. -/
def editing? (s : Session) : Option Attempt := if s.stage = .building then s.attempt else none

/-- The session with another program. -/
def withProgram (s : Session) (a : Attempt) (program : Program) : Session :=
  { s with attempt := some { a with program } }

/-- Why a block was not accepted. -/
def refusal (p : Program) (command : Command) : Text :=
  if p.isFull then s!"Block limit reached ({p.level.maxBlocks} max)"
  else s!"'{Word.spelling command}' is not available in this level"

/-- Places a block. -/
def addTo (s : Session) (a : Attempt) (command : Command) (spot : Spot) : Result (Option Block) :=
  let placed := if a.program.accepts command then s.placed + 1 else s.placed
  let s := { s with placed }
  match a.program.add command spot placed with
  | .error fault => (.error fault, s)
  | .ok (none, program) =>
    (.ok none, { s.withProgram a program with message := refusal program command })
  | .ok (some block, program) => (.ok (some block), s.withProgram a program)

/-- Places a block with a command that has been named. -/
def add (s : Session) (command : Except Fault Command) (spot : Spot) : Result (Option Block) :=
  match s.editing? with
  | none => (.ok none, s)
  | some a =>
    match command with
    | .error fault => (.error fault, s)
    | .ok command => s.addTo a command spot

/-- An edit of the program, if it may be edited. -/
def edit (s : Session) (f : Program → Except Fault (Bool × Program)) : Result Bool :=
  match s.editing? with
  | none => (.ok false, s)
  | some a =>
    match f a.program with
    | .error fault => (.error fault, s)
    | .ok (answer, program) => (.ok answer, s.withProgram a program)

/-- Removes a block. -/
def remove (s : Session) (id : Text) : Result Bool := s.edit fun p => .ok (p.remove id)

/-- Moves a block. -/
def moveBlock (s : Session) (id : Text) (spot : Spot) : Result Bool := s.edit (·.move id spot)

/-- Sets how often a loop runs. -/
def setRepeats (s : Session) (id : Text) (count : Except Fault Int) : Result Bool :=
  s.edit (·.setRepeats id count)

/-- Removes all blocks. -/
def clearProgram (s : Session) : Result Bool := s.edit fun p => .ok (true, p.clear)

/-! ## Running -/

/-- Changes the pace. -/
def setSpeed (s : Session) (speed : Except Fault Speed) : Result Unit :=
  match speed with
  | .error fault => (.error fault, s)
  | .ok speed => (.ok (), { s with speed })

/-- Retires every loop that drives the run. -/
def retire (s : Session) : Session := { s with generation := s.generation + 1 }

/-- The session with another state of its run. -/
def withRun (s : Session) (a : Attempt) (run : Run) : Session :=
  { s with attempt := some { a with run } }

/-- Starts the program of an attempt. -/
def startRun (s : Session) (a : Attempt) : Result Bool :=
  let turn := a.run.start a.program.blocks s.clock
  let s := { s.withRun a turn.run with clock := turn.clock }
  match turn.value with
  | .error _ =>
    let message : Text := s!"Program is too long to run (over {a.run.cap} steps)"
    (.ok false, { s with message }.log .error ("[Session] " ++ message))
  | .ok _ =>
    { (s.log .engine turn.run.startLine).retire with
      lastOutcome := none, message := "" }.moveAndAnswer .executing

/-- Starts the program, if there is one and it fits the cap. -/
def run (s : Session) : Result Bool :=
  match s.editing? with
  | none => (.ok false, s)
  | some a =>
    if a.program.blocks.isEmpty then
      (.ok false, { s with message := "Add at least one block before running" })
    else s.startRun a

/-- Records an outcome, and unlocks the level that follows in the catalog. -/
def recordOutcome (s : Session) (outcome : Outcome) : Result Unit :=
  match s.catalog.next outcome.levelId with
  | .error fault => (.error fault, s.consult)
  | .ok following =>
    let (recorded, store) := s.store.record outcome (following.map Level.id)
    (recorded.map fun _ => (), { s.consult with store })

/-- What is logged about an outcome. -/
def logOutcome (s : Session) (o : Outcome) : Session :=
  if o.completed then
    s.log .success
      s!"[Result] Level {o.levelId} complete: {o.stars} stars, score {o.score}, {o.steps} steps"
  else s.log .error (s!"[Result] Level {o.levelId} failed: " ++ s.message)

/-- The reason for a failed run that gives none. -/
def unknownReason : Text := Run.unknownReason

/-- What the player is told about an outcome: the reason for a failure. -/
def tellOutcome (s : Session) (o : Outcome) : Session :=
  if o.completed then s
  else { s with message := match o.reason with
    | some reason => if reason.isEmpty then unknownReason else reason
    | none => unknownReason }

/-- Ends the run with an outcome. -/
def conclude (s : Session) (outcome : Outcome) : Result Unit :=
  let target := if outcome.completed then Stage.results else Stage.failed
  match ({ s with lastOutcome := some outcome }.tellOutcome outcome).move target with
  | (.error fault, s) => (.error fault, s)
  | (.ok _, s) => (s.logOutcome outcome).recordOutcome outcome

/-- The session after a step of its run, with the instruction that was executed in the journal. -/
def afterTurn (s : Session) (a : Attempt) (turn : Turn Report) : Session :=
  let s' := { s.withRun a turn.run with clock := turn.clock }
  match Run.addedStep? a.run turn.run with
  | none => s'
  | some step => s'.enter (.traced (turn.run.stepLine step))

/-- Tells the player what an instruction has to say. -/
def tellStep (s : Session) (report : Report) : Session :=
  match report.step with
  | none => s
  | some step => if step.message.isEmpty then s else { s with message := step.message }

/-- Executes an instruction of the run, or ends it. -/
def tick (s : Session) : Result (Option Report) :=
  match s.stage, s.attempt with
  | .executing, some a =>
    let turn := a.run.step s.clock
    let s := s.afterTurn a turn
    match turn.value with
    | .error fault => (.error fault, s)
    | .ok report =>
      match report.outcome with
      | none => (.ok (some report), s.tellStep report)
      | some outcome =>
        match (s.tellStep report).conclude outcome with
        | (.error fault, s) => (.error fault, s)
        | (.ok _, s) => (.ok (some report), s)
  | _, _ => (.ok none, s)

/-- Halts a run, or leaves the editor for a while. -/
def pause (s : Session) : Result Bool :=
  if [Stage.building, .executing].contains s.stage then s.retire.moveAndAnswer .paused
  else (.ok false, s)

/-- Goes on with a run that has instructions left, and otherwise back to the editor. -/
def resume (s : Session) : Result Bool :=
  match s.stage, s.attempt with
  | .paused, some a => s.moveAndAnswer (if a.run.isExhausted then .building else .executing)
  | _, _ => (.ok false, s)

/-- Aborts a run. -/
def stop (s : Session) : Result Bool :=
  match s.attempt with
  | none => (.ok false, s)
  | some a =>
    if [Stage.executing, .paused].contains s.stage then
      (s.retire.withRun a a.run.reset).moveAndAnswer .building
    else (.ok false, s)

/-! ## After a run -/

/-- Back to the editor, with the same program. -/
def retry (s : Session) : Result Bool :=
  match s.attempt with
  | none => (.ok false, s)
  | some a =>
    if s.stage.isOver then
      { s.withRun a a.run.reset with message := "" }.moveAndAnswer .building
    else (.ok false, s)

/-- Leaves the results for the level selection. -/
def quitToLevelSelect (s : Session) : Result Bool := s.moveFrom [.results, .failed] .levelSelect

/-- Goes to the level selection without picking a level. -/
def leaveForSelection (s : Session) : Result (Option Level) :=
  match s.move .levelSelect with
  | (.error fault, s) => (.error fault, s)
  | (.ok _, s) => (.ok none, s)

/-- Picks the level that follows the current one, or goes to the level selection if there is none
or it is locked. -/
def nextLevel (s : Session) : Result (Option Level) :=
  match s.attempt with
  | none => (.ok none, s)
  | some a =>
    if s.stage.isOver then
      match s.catalog.next a.level.id with
      | .error fault => (.error fault, s.consult)
      | .ok none => s.consult.leaveForSelection
      | .ok (some following) =>
        let s := s.consult
        match s.store.isUnlocked following.id with
        | .error fault => (.error fault, s)
        | .ok false => s.leaveForSelection
        | .ok true =>
          match s.select (.int following.id) with
          | (.error fault, s) => (.error fault, s)
          | (.ok level, s) => (.ok (some level), s)
    else (.ok none, s)

/-- Drops the level and goes back to the menu from any stage. -/
def reset (s : Session) : Session :=
  let s := { s.retire with attempt := none, lastOutcome := none, message := "" }
  if s.stage = .menu then s else s.goTo .menu

/-! ## Small laws -/

theorem move_of_mem {s : Session} {target : Stage} (h : target ∈ s.stage.next) :
    s.move target = (.ok (), s.goTo target) := by
  simp [move, h]

theorem tick_of_not_executing {s : Session} (h : s.stage ≠ .executing) :
    s.tick = (.ok none, s) := by
  unfold tick
  split
  · next h' _ => exact absurd h' h
  · rfl

end Session

end RobotPuzzle
