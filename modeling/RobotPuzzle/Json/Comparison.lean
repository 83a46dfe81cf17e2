import RobotPuzzle.Json.Basic
import RobotPuzzle.Numeral.Binary

/-!
# JSON values beside integers

How a value compares with an integer. Doubles are compared as the exact numbers that they are, and
the booleans are the numbers one and zero; other values are no numbers, and are equal to none.

* `whole?_int`, `isBelow?_int`, `isAtMost?_int`: integers compare as integers do.
-/

namespace RobotPuzzle

namespace Json

open Numeral

/-- The integer that the value is equal to, if there is one. -/
def whole? : Json → Option Int
  | .int n => some n
  | .bool b => some (if b then 1 else 0)
  | .real x => do
    let b ← Binary.ofFloat? x
    if b.isWhole then some b.whole else none
  | .null | .str _ | .arr _ | .obj _ => none

/-- Whether the value is below an integer; none unless it is a number. -/
def isBelow? (j : Json) (n : Int) : Option Bool :=
  match j with
  | .int m => some (m < n)
  | .bool b => some ((if b then 1 else 0) < n)
  | .real x =>
    match Binary.ofFloat? x with
    | some b => some (b.floor < n)
    | none => some (x < 0.0)
  | .null | .str _ | .arr _ | .obj _ => none

/-- Whether the value is an integer or below it; none unless it is a number. -/
def isAtMost? (j : Json) (n : Int) : Option Bool :=
  (j.isBelow? n).map fun below => below || j.whole? == some n

/-- The number that is smaller by one. -/
def pred : Json → Json
  | .int n => .int (n - 1)
  | .bool b => .int (if b then 0 else -1)
  | .real x => .real (x - 1.0)
  | j => j

theorem whole?_int (n : Int) : whole? (.int n) = some n := rfl

theorem isBelow?_int (m n : Int) : isBelow? (.int m) n = some (decide (m < n)) := rfl

theorem isAtMost?_int (m n : Int) : isAtMost? (.int m) n = some (decide (m ≤ n)) := by
  simp only [isAtMost?, isBelow?_int, whole?_int, Option.map_some, Option.some.injEq]
  rw [Bool.eq_iff_iff]
  simp
  omega

end Json

end RobotPuzzle
