/-!
# Doubles as binary numbers

A finite double is a signed integer times a power of two. Whole parts and roundings of doubles are
computed exactly on that form.

* `wholeMagnitude_of_isWhole`: the whole part of a number without a fraction is the number.
-/

namespace RobotPuzzle

namespace Numeral

/-- The number `mantissa * 2 ^ exponent`, under a sign. -/
structure Binary where
  negative : Bool
  mantissa : Nat
  exponent : Int
  deriving DecidableEq, Repr

namespace Binary

/-- A double as a binary number; infinities and NaN are none. -/
def ofFloat? (x : Float) : Option Binary :=
  let bits : Nat := x.toBits.toNat
  let negative := bits / Nat.pow 2 63 == 1
  let biased : Nat := bits / Nat.pow 2 52 % Nat.pow 2 11
  let fraction : Nat := bits % Nat.pow 2 52
  if biased == 2047 then none
  else if biased == 0 then some ⟨negative, fraction, -1074⟩
  else some ⟨negative, Nat.pow 2 52 + fraction, (biased : Int) - 1075⟩

/-- A magnitude under the number's sign. -/
def withSign (b : Binary) (n : Nat) : Int :=
  if b.negative then -(n : Int) else n

/-- Whether the number has no fraction. -/
def isWhole (b : Binary) : Bool :=
  b.mantissa % Nat.pow 2 (-b.exponent).toNat == 0

/-- The magnitude without its fraction. -/
def wholeMagnitude (b : Binary) : Nat :=
  b.mantissa * Nat.pow 2 b.exponent.toNat / Nat.pow 2 (-b.exponent).toNat

/-- The number without its fraction. -/
def whole (b : Binary) : Int :=
  b.withSign b.wholeMagnitude

/-- The greatest integer that is not above the number. -/
def floor (b : Binary) : Int :=
  if b.negative && !b.isWhole then b.whole - 1 else b.whole

/-- The nearest integer; a half goes to the even neighbour. -/
def nearest (b : Binary) : Int :=
  let unit := Nat.pow 2 (-b.exponent).toNat
  let scaled := b.mantissa * Nat.pow 2 b.exponent.toNat
  let q := scaled / unit
  let twice := 2 * (scaled % unit)
  b.withSign (if twice > unit || (twice == unit && q % 2 == 1) then q + 1 else q)

/-- For a number without a fraction the whole part times the unit gives the number back. -/
theorem wholeMagnitude_of_isWhole {b : Binary} (h : b.isWhole = true) :
    b.wholeMagnitude * Nat.pow 2 (-b.exponent).toNat =
      b.mantissa * Nat.pow 2 b.exponent.toNat := by
  have hd : Nat.pow 2 (-b.exponent).toNat ∣ b.mantissa :=
    Nat.dvd_of_mod_eq_zero (by simpa [isWhole] using h)
  exact Nat.div_mul_cancel (Nat.dvd_mul_right_of_dvd hd _)

end Binary

end Numeral

end RobotPuzzle
