import RobotPuzzle.Console
import RobotPuzzle.Session.Stage

/-!
# Journals

What a session did, in order: the stages it went through, what it logged and how long it slept.

* `moves_append`, `sleeps_append`: what happened is what happened before and what happened after.
-/

namespace RobotPuzzle

/-- Something that happened in a session. -/
inductive Event where
  /-- The session went from one stage to another. -/
  | moved (source target : Stage)
  /-- Something was logged. -/
  | logged (topic : Console.Topic) (message : Text)
  /-- An instruction was executed, which is logged when every one is. -/
  | traced (message : Text)
  /-- A text was printed. -/
  | printed (text : Text)
  /-- The session slept for some milliseconds. -/
  | slept (millis : Int)
  deriving DecidableEq, Repr

namespace Event

/-- The two stages of a move. -/
def move? : Event → Option (Stage × Stage)
  | .moved source target => some (source, target)
  | _ => none

/-- The milliseconds of a sleep. -/
def sleep? : Event → Option Int
  | .slept millis => some millis
  | _ => none

/-- The printed form of an event that is printed. -/
def text? (style : Console.Style) : Event → Option Text
  | .logged topic message => some (Console.line style topic message)
  | .traced message => if style.verbose then some (Console.line style .engine message) else none
  | .printed text => some text
  | .moved _ _ | .slept _ => none

end Event

/-- What happened, the earliest event first. -/
abbrev Journal := List Event

namespace Journal

/-- The moves from stage to stage. -/
def moves (j : Journal) : List (Stage × Stage) := j.filterMap Event.move?

/-- The sleeps. -/
def sleeps (j : Journal) : List Int := j.filterMap Event.sleep?

/-- The printed lines. -/
def lines (style : Console.Style) (j : Journal) : List Text :=
  Console.lines (j.filterMap (Event.text? style))

theorem moves_append (j k : Journal) : moves (j ++ k) = j.moves ++ k.moves := by
  simp [moves]

theorem sleeps_append (j k : Journal) : sleeps (j ++ k) = j.sleeps ++ k.sleeps := by
  simp [sleeps]

end Journal

end RobotPuzzle
