import RobotPuzzle.Numeral.Binary

/-!
# Shortest decimals

The decimal with the fewest digits among those that read back as a given double, and of these the
nearest to it.

A double stands for an interval of reals, those that round to it. On the grid of decimals with `n`
digits only the two neighbours of the double have to be tried: if any grid point lies in the
interval, one of them does. The first `n` with a hit gives the digits.

* `closest?_mem`: what is chosen on a grid lies in the interval.
-/

namespace RobotPuzzle

namespace Numeral

/-- The decimal `digits * 10 ^ exponent`. -/
structure Shortest where
  digits : Nat
  exponent : Int
  deriving DecidableEq, Repr

namespace Shortest

/-- The reals that round to a double, over a common denominator: the double is `value / unit`, and
the ends belong to the interval only if `closed`. -/
structure Interval where
  low : Nat
  value : Nat
  high : Nat
  unit : Nat
  closed : Bool
  deriving DecidableEq, Repr

namespace Interval

/-- The interval of a positive double. Below a power of two the spacing is half as wide. -/
def ofBinary (b : Binary) : Interval :=
  let up := Nat.pow 2 (b.exponent - 2).toNat
  let below := if b.mantissa == Nat.pow 2 52 && b.exponent > -1074 then 1 else 2
  { low := (4 * b.mantissa - below) * up
    value := 4 * b.mantissa * up
    high := (4 * b.mantissa + 2) * up
    unit := Nat.pow 2 (2 - b.exponent).toNat
    closed := b.mantissa % 2 == 0 }

/-- The interval in units of `10 ^ k`. -/
def inUnitsOf (i : Interval) (k : Int) : Interval :=
  let up := Nat.pow 10 (-k).toNat
  { i with
    low := i.low * up
    value := i.value * up
    high := i.high * up
    unit := i.unit * Nat.pow 10 k.toNat }

/-- Whether the integer `n` lies in the interval. -/
def holds (i : Interval) (n : Nat) : Bool :=
  let point := n * i.unit
  if i.closed then i.low ≤ point && point ≤ i.high else i.low < point && point < i.high

/-- The integer of the interval that is nearest to its value; of two as near, the even one. -/
def closest? (i : Interval) : Option Nat :=
  let floor := i.value / i.unit
  let rest := 2 * (i.value % i.unit)
  let floorIsNearer := rest < i.unit || (rest == i.unit && floor % 2 == 0)
  let (first, second) := if floorIsNearer then (floor, floor + 1) else (floor + 1, floor)
  if i.holds first then some first else if i.holds second then some second else none

theorem closest?_mem {i : Interval} {n : Nat} (h : i.closest? = some n) : i.holds n = true := by
  grind [closest?]

/-- The greatest `e` with `10 ^ e` at most the value, for values of doubles. -/
def magnitude (i : Interval) : Int :=
  if i.unit ≤ i.value then
    ((Nat.toDigits 10 (i.value / i.unit)).length : Int) - 1
  else
    match (List.range 330).find? fun j => i.unit ≤ i.value * Nat.pow 10 j with
    | some j => -(j : Int)
    | none => -330

end Interval

/-- The shortest decimal of a positive double. Seventeen digits always suffice. -/
def ofBinary (b : Binary) : Shortest :=
  let i := Interval.ofBinary b
  let e := i.magnitude
  let onGrid (n : Nat) : Option Shortest :=
    let k := e - n
    (i.inUnitsOf k).closest?.map (⟨·, k⟩)
  ((List.range 17).findSome? onGrid).getD ⟨b.mantissa, b.exponent⟩

end Shortest

end Numeral

end RobotPuzzle
