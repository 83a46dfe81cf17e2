import RobotPuzzle.Text.Blank
import RobotPuzzle.Text.Digit

/-!
# Integer numerals

Reading and writing of whole numbers in base ten. A numeral is a sign, which may be missing, and
digits, between which single underscores may stand.

* `padded_of_width_le`: a number that fills the width is written without zeros in front.
-/

namespace RobotPuzzle

namespace Numeral

open Text

/-- Splits a sign off the front; `true` says that it was a minus. -/
def splitSign : List Char → Bool × List Char
  | '-' :: rest => (true, rest)
  | '+' :: rest => (false, rest)
  | cs => (false, cs)

/-- A magnitude under a sign. -/
def signed (negative : Bool) (n : Nat) : Int :=
  if negative then -(n : Int) else n

/-- Reads digits, of those that `digit?` knows, between which single underscores may stand, and
returns them with what follows the last one. There has to be at least one. -/
def splitDigits (digit? : Char → Option Nat) : List Char → Option (List Nat × List Char)
  | [] => none
  | c :: '_' :: rest =>
    (digit? c).map fun d =>
      match splitDigits digit? rest with
      | some (ds, left) => (d :: ds, left)
      | none => ([d], '_' :: rest)
  | c :: rest =>
    (digit? c).map fun d =>
      match splitDigits digit? rest with
      | some (ds, left) => (d :: ds, left)
      | none => ([d], rest)

/-- The number that digits spell, the most significant first. -/
def ofDigits (ds : List Nat) : Nat :=
  ds.foldl (fun n d => 10 * n + d) 0

/-- The integer that characters spell, in digits of any script, with blanks around it. -/
def integer? (cs : List Char) : Option Int :=
  let (negative, cs) := splitSign (trim cs)
  match splitDigits digit? cs with
  | some (ds, []) => some (signed negative (ofDigits ds))
  | _ => none

/-- A number with zeros in front, after the sign, until it is `width` characters long. -/
def padded (width : Nat) (n : Int) : String :=
  let sign := if n < 0 then ['-'] else []
  let digits := Nat.toDigits 10 n.natAbs
  String.ofList (sign ++ List.replicate (width - sign.length - digits.length) '0' ++ digits)

theorem ofDigits_append_singleton (ds : List Nat) (d : Nat) :
    ofDigits (ds ++ [d]) = 10 * ofDigits ds + d := by
  simp [ofDigits]

/-- A natural number that already fills the width is written without zeros in front. -/
theorem padded_of_width_le {width n : Nat} (h : width ≤ (Nat.toDigits 10 n).length) :
    padded width n = String.ofList (Nat.toDigits 10 n) := by
  have hn : ¬ ((n : Int) < 0) := by omega
  have hz : width - (Nat.toDigits 10 n).length = 0 := by omega
  simp [padded, hn, hz]

end Numeral

end RobotPuzzle
