/-!
# Environments

The variables that a program is started with, by name.
-/

namespace RobotPuzzle

/-- Variables and their values. -/
abbrev Environment := List (String × String)

namespace Environment

/-- The value of a variable. -/
def get? (env : Environment) (name : String) : Option String := env.lookup name

end Environment

end RobotPuzzle
