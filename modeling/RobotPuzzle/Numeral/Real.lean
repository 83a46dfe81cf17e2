import RobotPuzzle.Numeral.Integer
import RobotPuzzle.Numeral.Shortest

/-!
# Real numerals

Reading decimals into doubles and writing doubles as decimals.

* `Decimal.ofParts`: the digits before and after the point, and the power of ten.
* `real?`: the double that a text spells.
* `Layout`: which decimals are written positionally, and how the others show their exponent;
  `realText` writes in `Layout.plain`.
-/

namespace RobotPuzzle

namespace Numeral

open Text

/-! ## Reading -/

/-- The decimal `coefficient * 10 ^ exponent`, under a sign. -/
structure Decimal where
  negative : Bool
  coefficient : Nat
  exponent : Int
  deriving DecidableEq, Repr

namespace Decimal

/-- The decimal with the given digits before and after the point, times `10 ^ power`. -/
def ofParts (negative : Bool) (before after : List Nat) (power : Int) : Decimal :=
  ⟨negative, ofDigits (before ++ after), power - after.length⟩

/-- The double nearest to the magnitude. Beyond `10 ^ 310` that is infinity, and below `10 ^ (-330)`
it is zero. -/
def magnitude (d : Decimal) : Float :=
  let top := d.exponent + (Nat.toDigits 10 d.coefficient).length
  if d.coefficient == 0 || top < -330 then 0.0
  else if top > 310 then 1.0 / 0.0
  else Float.ofScientific d.coefficient (d.exponent < 0) d.exponent.natAbs

/-- The nearest double. -/
def toFloat (d : Decimal) : Float :=
  if d.negative then -d.magnitude else d.magnitude

end Decimal

/-- Reads an exponent, `e` or `E` with a signed integer, which may be missing. -/
def splitExponent (digit? : Char → Option Nat) (cs : List Char) : Option (Int × List Char) :=
  match cs with
  | c :: rest =>
    if c == 'e' || c == 'E' then
      let (negative, ds) := splitSign rest
      (splitDigits digit? ds).map fun (ds, left) => (signed negative (ofDigits ds), left)
    else some (0, cs)
  | [] => some (0, [])

/-- Reads a fraction, a point with digits that may be missing. -/
def splitFraction (digit? : Char → Option Nat) : List Char → List Nat × List Char
  | '.' :: rest => (splitDigits digit? rest).getD ([], rest)
  | cs => ([], cs)

/-- The unsigned decimal that a text spells. Digits may be missing on one side of the point. -/
def decimal? (negative : Bool) (cs : List Char) : Option Decimal :=
  let (before, cs) := (splitDigits digit? cs).getD ([], cs)
  let (after, cs) := splitFraction digit? cs
  if before.isEmpty && after.isEmpty then none
  else
    match splitExponent digit? cs with
    | some (power, []) => some (Decimal.ofParts negative before after power)
    | _ => none

/-- The double that a text spells, with blanks around it: a decimal, an infinity or NaN. -/
def real? (s : String) : Option Float :=
  let (negative, cs) := splitSign (trim s.toList)
  let word := String.ofList (cs.map Char.toLower)
  if word == "inf" || word == "infinity" then some (if negative then -1.0 / 0.0 else 1.0 / 0.0)
  else if word == "nan" then some (0.0 / 0.0)
  else (decimal? negative cs).map Decimal.toFloat

/-! ## Writing -/

/-- How decimals are laid out. -/
structure Layout where
  /-- The least power of ten that a positional number may start with. -/
  least : Int
  /-- The greatest power of ten that a positional number may start with. -/
  greatest : Int
  /-- The least number of digits of an exponent. -/
  exponentWidth : Nat

/-- Positional are the numbers from `10 ^ (-4)` to below `10 ^ 16`; an exponent has two digits or
more. -/
def Layout.plain : Layout := ⟨-4, 15, 2⟩

/-- Zeros, `n` of them. -/
def zeros (n : Nat) : String := String.ofList (List.replicate n '0')

/-- The positional form of `0.d₁d₂… * 10 ^ point`; a whole number ends in `.0`. -/
def positional (digits : List Char) (point : Int) : String :=
  if point ≤ 0 then "0." ++ zeros (-point).toNat ++ String.ofList digits
  else
    let n := point.toNat
    let before := String.ofList (digits.take n) ++ zeros (n - digits.length)
    let after := digits.drop n
    before ++ "." ++ if after.isEmpty then "0" else String.ofList after

/-- The form `d₁.d₂…e±power`; the point is left out after a single digit. -/
def scientific (width : Nat) (digits : List Char) (power : Int) : String :=
  let lead := String.ofList (digits.take 1)
  let rest := digits.drop 1
  let shown := Nat.toDigits 10 power.natAbs
  lead ++ (if rest.isEmpty then "" else "." ++ String.ofList rest) ++ "e" ++
    (if power < 0 then "-" else "+") ++ zeros (width - shown.length) ++ String.ofList shown

/-- A shortest decimal in a layout. -/
def Shortest.text (layout : Layout) (s : Shortest) : String :=
  let all := Nat.toDigits 10 s.digits
  let power := s.exponent + all.length - 1
  let digits := (all.reverse.dropWhile (· == '0')).reverse
  if layout.least ≤ power && power ≤ layout.greatest then positional digits (power + 1)
  else scientific layout.exponentWidth digits power

/-- A double in the fewest digits that read back as it. -/
def realText (x : Float) : String :=
  match Binary.ofFloat? x with
  | none => if x.isNaN then "nan" else if x < 0.0 then "-inf" else "inf"
  | some b =>
    (if b.negative then "-" else "") ++
      if b.mantissa == 0 then "0.0" else (Shortest.ofBinary b).text .plain

end Numeral

end RobotPuzzle
