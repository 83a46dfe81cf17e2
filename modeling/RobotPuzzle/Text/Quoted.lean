import RobotPuzzle.Text.Basic
import RobotPuzzle.Text.Printable

/-!
# Quoted text

A text as it stands inside a message: between single quotes, or between double quotes when it holds
a single quote and no double one. The quote, the backslash and whatever is not printable are
escaped, so a quoted text is a string even where the text is none.

* `escape_eq_self`: a printable character that is neither the quote nor the backslash stands for
  itself.
-/

namespace RobotPuzzle

namespace Text

/-- The lower-case hexadecimal digits of a number, at least `width` of them. -/
def hex (width n : Nat) : String :=
  let digits := Nat.toDigits 16 n
  String.ofList (List.replicate (width - digits.length) '0' ++ digits)

/-- The mark that a text is quoted with. -/
def quoteMark (t : Text) : Char :=
  if t.contains (.char '\'') && !t.contains (.char '"') then '"' else '\''

/-- One character between quotes `mark`. -/
def escapeChar (mark c : Char) : String :=
  if c == mark || c == '\\' then String.ofList ['\\', c]
  else if c == '\n' then "\\n"
  else if c == '\r' then "\\r"
  else if c == '\t' then "\\t"
  else if isPrintable c then c.toString
  else if c.toNat ≤ 0xFF then "\\x" ++ hex 2 c.toNat
  else if c.toNat ≤ 0xFFFF then "\\u" ++ hex 4 c.toNat
  else "\\U" ++ hex 8 c.toNat

/-- One code point between quotes `mark`. -/
def escape (mark : Char) : CodePoint → String
  | .char c => escapeChar mark c
  | .half offset => "\\u" ++ hex 4 (CodePoint.half offset).toNat

/-- A text between quotes. -/
def quote (t : Text) : String :=
  let mark := quoteMark t
  mark.toString ++ String.join (t.map (escape mark)) ++ mark.toString

theorem escape_eq_self {mark c : Char} (hm : c ≠ mark) (hb : c ≠ '\\') (hp : isPrintable c = true) :
    escape mark (.char c) = c.toString := by
  have hn : c ≠ '\n' := by rintro rfl; revert hp; decide
  have hr : c ≠ '\r' := by rintro rfl; revert hp; decide
  have ht : c ≠ '\t' := by rintro rfl; revert hp; decide
  simp [escape, escapeChar, hm, hb, hn, hr, ht, hp]

end Text

end RobotPuzzle
