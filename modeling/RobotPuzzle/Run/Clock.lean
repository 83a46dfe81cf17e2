import RobotPuzzle.Fault
import RobotPuzzle.Numeral.Rounding
import RobotPuzzle.Numeral.Binary

/-!
# Clocks

A clock is read from time to time and gives seconds, as integers or as doubles. Here it is the list
of its readings to come; the last one repeats for ever.
-/

namespace RobotPuzzle

open Numeral

/-- A reading of a clock, in seconds. -/
inductive Instant where
  | whole (seconds : Int)
  | real (seconds : Float)
  deriving DecidableEq, Repr

namespace Instant

/-- A reading as a double. -/
def toFloat : Instant → Except Fault Float
  | .real x => .ok x
  | .whole n =>
    match toDouble? n with
    | some _ =>
      let x := Float.ofScientific n.natAbs false 0
      .ok (if n < 0 then -x else x)
    | none => .error .tooLarge

/-- The integer part of a double. -/
def wholePart (x : Float) : Except Fault Int :=
  match Binary.ofFloat? x with
  | some b => .ok b.whole
  | none => .error (if x.isNaN then .notANumber else .tooLarge)

/-- The whole milliseconds from one reading to another; none if the clock ran backwards. -/
def millisBetween : Instant → Instant → Except Fault Int
  | .whole start, .whole now => .ok (max 0 ((now - start) * 1000))
  | start, now => do
    let now ← now.toFloat
    let start ← start.toFloat
    let millis ← wholePart ((now - start) * 1000.0)
    pure (max 0 millis)

end Instant

/-- The readings of a clock to come: the next one, and those after it. -/
structure Clock where
  next : Instant
  later : List Instant
  deriving DecidableEq, Repr

namespace Clock

/-- A clock that stands still. -/
def still : Clock := ⟨.whole 0, []⟩

/-- A clock with the given readings. -/
def ofList : List Instant → Clock
  | [] => still
  | next :: later => ⟨next, later⟩

/-- The clock after it has been read. -/
def tick (c : Clock) : Clock :=
  match c.later with
  | [] => c
  | next :: later => ⟨next, later⟩

end Clock

end RobotPuzzle
