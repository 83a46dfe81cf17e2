/-!
# Rounding integers to doubles

A double has 53 significant bits. `toDouble?` is the integer that a given one becomes as a double:
the nearest with that many bits, a half going to the even neighbour; none when that is out of range.

* `roundBits_of_lt`: a number with few enough bits is kept.
* `toDouble?_of_lt`: integers below `2 ^ 53` are doubles.
-/

namespace RobotPuzzle

namespace Numeral

/-- The nearest number with at most `bits` significant bits; a half goes to the even neighbour. -/
def roundBits (bits n : Nat) : Nat :=
  if n < Nat.pow 2 bits then n
  else
    let unit := Nat.pow 2 (n.log2 + 1 - bits)
    let q := n / unit
    let twice := 2 * (n % unit)
    (if unit < twice ∨ (twice = unit ∧ q % 2 = 1) then q + 1 else q) * unit

/-- The bound that the doubles stay below, `2 ^ 1024`. -/
def doubleRange : Nat := Nat.pow (Nat.pow 2 256) 4

/-- The integer that an integer becomes as a double; none when it is beyond the greatest one. -/
def toDouble? (n : Int) : Option Int :=
  let m := roundBits 53 n.natAbs
  if m < doubleRange then some (if n < 0 then -(m : Int) else m) else none

/-- The sum of two integers that are doubles, as a double. -/
def addDoubles? (a b : Int) : Option Int := toDouble? (a + b)

theorem roundBits_of_lt {bits n : Nat} (h : n < Nat.pow 2 bits) : roundBits bits n = n :=
  if_pos h

theorem two_pow_53_le_doubleRange : Nat.pow 2 53 ≤ doubleRange :=
  Nat.le_trans (Nat.pow_le_pow_right (by decide) (by decide))
    (Nat.le_self_pow (by decide) (2 ^ 256))

theorem toDouble?_of_lt {n : Int} (h : n.natAbs < Nat.pow 2 53) : toDouble? n = some n := by
  have hlt : n.natAbs < doubleRange := Nat.lt_of_lt_of_le h two_pow_53_le_doubleRange
  simp only [toDouble?, roundBits_of_lt h, if_pos hlt]
  split <;> (congr 1; omega)

end Numeral

end RobotPuzzle
