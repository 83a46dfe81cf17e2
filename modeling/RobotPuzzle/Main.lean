import RobotPuzzle.Demo

/-!
# The command line

Prints the demonstration, in the style that the environment asks for.
-/

namespace RobotPuzzle

/-- The variables that a style depends on. -/
def styleVariables : List String := ["CODEQUEST_NO_COLOR", "CODEQUEST_VERBOSE"]

/-- Those of some variables that are set. -/
def readVariables (names : List String) : IO Environment :=
  names.filterMapM fun name => do
    pure ((← IO.getEnv name).map fun value => (name, value))

end RobotPuzzle

/-- Plays the built-in levels and prints what happens. -/
def main : IO Unit := do
  let env ← RobotPuzzle.readVariables RobotPuzzle.styleVariables
  for line in RobotPuzzle.Demo.lines (.ofEnvironment env) do
    IO.println line.shown
