import RobotPuzzle.Environment
import RobotPuzzle.Word

/-!
# Log lines

What is logged is printed in a color that tells its kind, after a tag that tells it without colors.
-/

namespace RobotPuzzle

namespace Console

/-- The colors and marks of a terminal. -/
inductive Color where
  | blue
  | magenta
  | red
  | green
  | cyan
  | bold
  | reset
  deriving DecidableEq, Repr

instance : Word Color where
  all := [.blue, .magenta, .red, .green, .cyan, .bold, .reset]
  spelling
    | .blue => "BLUE"
    | .magenta => "MAGENTA"
    | .red => "RED"
    | .green => "GREEN"
    | .cyan => "CYAN"
    | .bold => "BOLD"
    | .reset => "RESET"

/-- The sequence that switches a terminal. -/
def Color.code : Color → String
  | .blue => "\x1b[94m"
  | .magenta => "\x1b[95m"
  | .red => "\x1b[91m"
  | .green => "\x1b[92m"
  | .cyan => "\x1b[96m"
  | .bold => "\x1b[1m"
  | .reset => "\x1b[0m"

/-- What log lines are about. -/
inductive Topic where
  | engine
  | session
  | error
  | success
  | info
  deriving DecidableEq, Repr

instance : Word Topic where
  all := [.engine, .session, .error, .success, .info]
  spelling
    | .engine => "engine"
    | .session => "session"
    | .error => "error"
    | .success => "success"
    | .info => "info"

namespace Topic

/-- The tag in front of a line. -/
def tag : Topic → String
  | .engine => "[•]"
  | .session => "[>]"
  | .error => "[!]"
  | .success => "[✓]"
  | .info => "[i]"

/-- The color of a line. -/
def color : Topic → Color
  | .engine => .blue
  | .session => .magenta
  | .error => .red
  | .success => .green
  | .info => .cyan

end Topic

/-- How lines are printed. -/
structure Style where
  /-- No colors. -/
  plain : Bool
  /-- Every instruction is logged. -/
  verbose : Bool
  deriving DecidableEq, Repr

namespace Style

/-- The words that switch verbose logging on. -/
def verboseWords : List String := ["1", "true", "yes"]

/-- The style that an environment asks for. -/
def ofEnvironment (env : Environment) : Style where
  plain := (env.get? "CODEQUEST_NO_COLOR").getD "" != ""
  verbose :=
    verboseWords.contains
      (String.ofList (((env.get? "CODEQUEST_VERBOSE").getD "").toList.map Char.toLower))

end Style

/-- A text in a color. -/
def paint (style : Style) (color : Color) (bold : Bool) (text : Text) : Text :=
  if style.plain then text
  else ((if bold then Color.bold.code else "") ++ color.code) ++ text ++ Color.reset.code

/-- The printed form of a message. -/
def line (style : Style) (topic : Topic) (message : Text) : Text :=
  paint style topic.color false (topic.tag ++ " " ++ message)

/-- The lines of printed texts, which may hold line breaks themselves. -/
def lines (texts : List Text) : List Text :=
  texts.flatMap Text.lines

end Console

end RobotPuzzle
