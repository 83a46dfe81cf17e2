import RobotPuzzle.Catalog.BuiltIn
import RobotPuzzle.Session.Request
import RobotPuzzle.World.Render

/-!
# The demonstration

A session that plays the built-in levels with programs that solve them, at the fastest pace, and
prints the world after each instruction. All that it prints and logs is in its journal.
-/

namespace RobotPuzzle

namespace Demo

/-- The program that solves a level, and how often its loops run. -/
structure Solution where
  level : Int
  commands : List Command
  repeats : Int

/-- The solutions, in the order in which they are played. -/
def solutions : List Solution :=
  [⟨1, [.moveForward, .moveForward, .moveForward, .moveForward], 2⟩,
    ⟨2, [.moveForward, .moveForward, .turnRight, .moveForward, .moveForward, .turnLeft,
      .moveForward], 2⟩,
    ⟨3, [.moveForward, .moveForward, .moveForward, .moveForward, .moveForward], 2⟩,
    ⟨4, [.loopStart, .moveForward, .loopEnd], 7⟩,
    ⟨5, [.loopStart, .moveForward, .loopEnd], 4⟩,
    ⟨6, [.moveForward, .jump, .jump, .moveForward], 2⟩]

/-- Prints a text on lines of its own. -/
def print (s : Session) (text : Text) : Session := s.enter (.printed text)

/-- Prints the world of the run. -/
def printWorld (s : Session) : Session :=
  match s.world? with
  | none => s
  | some world => print s world.picture

/-- Places the next block of a solution; a loop gets the solution's count. -/
def place (repeats : Int) (s : Session) (command : Command) : Session :=
  match s.add (.ok command) .unnamed with
  | (.ok (some block), s) =>
    if command = .loopStart then (s.setRepeats block.id (.ok repeats)).2 else s
  | (_, s) => s

/-- Prints what an instruction did. -/
def printReport (s : Session) (report : Option Report) : Session :=
  match report.bind (·.step) with
  | none => s
  | some step =>
    printWorld (print s (s!"\n{Word.spelling step.command}: " ++ step.message))

/-- Ticks until the run is over, printing each instruction. -/
def watch : Nat → Session → Session
  | 0, s => s
  | n + 1, s =>
    if s.stage = .executing then
      match (s.sleep s.speed.millis).tick with
      | (.ok report, s) => watch n (printReport s report)
      | (.error _, s) => s
    else s

/-- Prints how a run ended. -/
def printOutcome (s : Session) : Session :=
  match s.lastOutcome with
  | none => s
  | some o =>
    print s s!"\nStars: {o.stars}  Score: {o.score}  Perfect: {(Json.bool o.perfect).literal}"

/-- Plays a level with its solution. A level that cannot be picked is passed over. -/
def playLevel (s : Session) (solution : Solution) : Session :=
  match s.select (.int solution.level) with
  | (.error _, s) => s
  | (.ok level, s) =>
    let s := ((s.sleep 0).finishCountdown).2
    let s := solution.commands.foldl (place solution.repeats) s
    let s := printWorld (print s (s!"\n=== Level {level.id}: " ++ level.name ++ " ==="))
    let s := s.run.2
    printOutcome (watch s.ticksLeft s)

/-- The session that plays all levels. -/
def session : Session :=
  let start := Session.fresh (BuiltIn.catalog "levels")
    (Store.files Folder.absent).prepare Clock.still none .quadruple
  let s := solutions.foldl playLevel start.openLevelSelect.2
  match s.store.totalStars with
  | .ok stars => print s s!"\nTotal stars: {stars}"
  | .error _ => s

/-- The lines that are printed. -/
def lines (style : Console.Style) : List Text := session.journal.lines style

/-- The sleeps in between. -/
def sleeps : List Int := session.journal.sleeps

end Demo

end RobotPuzzle
