import RobotPuzzle.Fault
import RobotPuzzle.Numeral.Binary
import RobotPuzzle.Numeral.Integer

/-!
# Numbers out of JSON values

* `integerValue`: the integer that a value stands for, where an integer is asked for and a number or
  the text of one is given.
* `millisOfSeconds`: a number of seconds as the nearest number of milliseconds.
-/

namespace RobotPuzzle

namespace Json

open Numeral

/-- The integer that a value stands for: a double loses its fraction, and a text is read. -/
def integerValue : Json → Except Fault Int
  | .int n => .ok n
  | .bool b => .ok (if b then 1 else 0)
  | .real x =>
    match Binary.ofFloat? x with
    | some b => .ok b.whole
    | none => .error (if x.isNaN then .notANumber else .tooLarge)
  | .str s =>
    match s.chars?.bind integer? with
    | some n => .ok n
    | none => .error (.badInteger s)
  | .null | .arr _ | .obj _ => .error .wrongKind

/-- The milliseconds of a number of seconds; for a double the product is rounded to the nearest
integer, a half to the even one. -/
def millisOfSeconds : Json → Except Fault Int
  | .int n => .ok (n * 1000)
  | .bool b => .ok (if b then 1000 else 0)
  | .real x =>
    let product := x * 1000.0
    match Binary.ofFloat? product with
    | some b => .ok b.nearest
    | none => .error (if product.isNaN then .notANumber else .tooLarge)
  | .null | .str _ | .arr _ | .obj _ => .error .wrongKind

end Json

end RobotPuzzle
