import RobotPuzzle.Json.Basic
import RobotPuzzle.Numeral.Real

/-!
# Reading JSON

The grammar of JSON texts, with the words `NaN`, `Infinity` and `-Infinity` as further numbers. A
number without fraction and exponent is an integer of any size, every other one a double. When an
object names a field twice, the last value counts. Escapes name code units; the two halves of a
surrogate pair that follow each other are one character.

* `read?`: the value of a whole text.
* `skipSpace_cons`: nothing is skipped in front of a character that is not white space.
-/

namespace RobotPuzzle

namespace Json

open Numeral Text

/-- The white space of JSON. -/
def isSpace (c : Char) : Bool := c == ' ' || c == '\t' || c == '\n' || c == '\r'

/-- The rest of a text after white space. -/
def skipSpace (cs : List Char) : List Char := cs.dropWhile isSpace

theorem skipSpace_cons {c : Char} (h : isSpace c = false) (cs : List Char) :
    skipSpace (c :: cs) = c :: cs := by
  simp [skipSpace, h]

/-! ## Strings -/

/-- The value of a hexadecimal digit. -/
def hexDigit? (c : Char) : Option Nat :=
  let n := c.toNat
  if 0x30 ≤ n && n ≤ 0x39 then some (n - 0x30)
  else if 0x41 ≤ n && n ≤ 0x46 then some (n - 0x41 + 10)
  else if 0x61 ≤ n && n ≤ 0x66 then some (n - 0x61 + 10)
  else none

/-- The number that four hexadecimal digits spell. -/
def hexUnit? (a b c d : Char) : Option Nat := do
  let a ← hexDigit? a
  let b ← hexDigit? b
  let c ← hexDigit? c
  let d ← hexDigit? d
  pure (((a * 16 + b) * 16 + c) * 16 + d)

/-- The character that a backslash and `c` stand for. -/
def escaped? (c : Char) : Option Char :=
  match c with
  | '"' => some '"'
  | '\\' => some '\\'
  | '/' => some '/'
  | 'b' => some '\x08'
  | 'f' => some '\x0c'
  | 'n' => some '\n'
  | 'r' => some '\r'
  | 't' => some '\t'
  | _ => none

/-- The first half of a surrogate pair. -/
def isHighHalf (n : Nat) : Bool := 0xD800 ≤ n && n ≤ 0xDBFF

/-- The second half of a surrogate pair. -/
def isLowHalf (n : Nat) : Bool := 0xDC00 ≤ n && n ≤ 0xDFFF

/-- The character of a surrogate pair. -/
def pairChar (high low : Nat) : Char :=
  Char.ofNat (0x10000 + (high - 0xD800) * 0x400 + (low - 0xDC00))

/-- The text of code units given last one first: two halves that meet are one character. -/
def ofUnits (done : Text) : List Nat → Text
  | [] => done
  | low :: high :: rest =>
    if isLowHalf low && isHighHalf high then ofUnits (.char (pairChar high low) :: done) rest
    else ofUnits (.ofNat low :: done) (high :: rest)
  | [n] => .ofNat n :: done

/-- Reads the inside of a string up to its closing quote; `done` holds the code units read so far,
the last one first. -/
def splitUnits (done : List Nat) : List Char → Option (List Nat × List Char)
  | [] => none
  | '"' :: rest => some (done, rest)
  | '\\' :: 'u' :: a :: b :: c :: d :: rest =>
    match hexUnit? a b c d with
    | some n => splitUnits (n :: done) rest
    | none => none
  | '\\' :: c :: rest =>
    match escaped? c with
    | some c => splitUnits (c.toNat :: done) rest
    | none => none
  | c :: rest =>
    if c.toNat < 0x20 || c == '\\' then none else splitUnits (c.toNat :: done) rest

/-- Reads a string from behind its opening quote. -/
def splitString (cs : List Char) : Option (Text × List Char) :=
  (splitUnits [] cs).map fun (units, rest) => (ofUnits [] units, rest)

/-! ## Numbers -/

/-- Reads ASCII digits, at least one. -/
def splitDecimalDigits (cs : List Char) : Option (List Nat × List Char) :=
  let ds := (cs.takeWhile Char.isDigit).filterMap asciiDigit?
  if ds.isEmpty then none else some (ds, cs.dropWhile Char.isDigit)

/-- Reads the digits before the point: a lone zero, or digits that do not start with one. -/
def splitWhole (cs : List Char) : Option (List Nat × List Char) :=
  match cs with
  | '0' :: rest => some ([0], rest)
  | _ => splitDecimalDigits cs

/-- Reads the fraction: the digits after a point, if there is one. -/
def splitPlaces : List Char → Option (List Nat × List Char)
  | '.' :: rest => splitDecimalDigits rest
  | cs => some ([], cs)

/-- Reads the exponent, if there is one. -/
def splitPower : List Char → Option (Option Int × List Char)
  | c :: rest =>
    if c == 'e' || c == 'E' then
      let (negative, ds) := splitSign rest
      (splitDecimalDigits ds).map fun (ds, left) => (some (signed negative (ofDigits ds)), left)
    else some (none, c :: rest)
  | [] => some (none, [])

/-- Reads an unsigned number. -/
def splitNumber (negative : Bool) (cs : List Char) : Option (Json × List Char) := do
  let (before, cs) ← splitWhole cs
  let (after, cs) ← splitPlaces cs
  let (power, cs) ← splitPower cs
  if after.isEmpty && power.isNone then pure (.int (signed negative (ofDigits before)), cs)
  else pure (.real (Decimal.ofParts negative before after (power.getD 0)).toFloat, cs)

/-! ## Values -/

/-- The words and the values that they stand for. -/
def keywords : List (String × Json) :=
  [("null", .null), ("true", .bool true), ("false", .bool false), ("NaN", .real (0.0 / 0.0)),
    ("Infinity", .real (1.0 / 0.0)), ("-Infinity", .real (-1.0 / 0.0))]

/-- Reads a word. -/
def splitWord (cs : List Char) : Option (Json × List Char) :=
  keywords.findSome? fun (word, value) =>
    if word.toList.isPrefixOf cs then some (value, cs.drop word.length) else none

/-- Reads a word or a number. -/
def splitScalar (cs : List Char) : Option (Json × List Char) :=
  match splitWord cs with
  | some found => some found
  | none =>
    match cs with
    | '-' :: rest => splitNumber true rest
    | _ => splitNumber false cs

mutual

/-- Reads a value. The fuel bounds the nesting and the number of members. -/
def splitValue : Nat → List Char → Option (Json × List Char)
  | 0, _ => none
  | fuel + 1, cs =>
    match cs with
    | '"' :: rest => (splitString rest).map fun (s, left) => (.str s, left)
    | '[' :: rest =>
      match skipSpace rest with
      | ']' :: left => some (.arr [], left)
      | inside => (splitItems fuel inside).map fun (items, left) => (.arr items, left)
    | '\x7b' :: rest =>
      match skipSpace rest with
      | '\x7d' :: left => some (.obj [], left)
      | inside => (splitFields fuel [] inside).map fun (fields, left) => (.obj fields, left)
    | _ => splitScalar cs

/-- Reads the items of an array, at least one, up to the closing bracket. -/
def splitItems : Nat → List Char → Option (List Json × List Char)
  | 0, _ => none
  | fuel + 1, cs =>
    match splitValue fuel cs with
    | none => none
    | some (item, rest) =>
      match skipSpace rest with
      | ']' :: left => some ([item], left)
      | ',' :: more =>
        (splitItems fuel (skipSpace more)).map fun (items, left) => (item :: items, left)
      | _ => none

/-- Reads the fields of an object, at least one, up to its closing brace, setting them in `done`. -/
def splitFields : Nat → Fields → List Char → Option (Fields × List Char)
  | 0, _, _ => none
  | fuel + 1, done, cs =>
    match cs with
    | '"' :: rest =>
      match splitString rest with
      | none => none
      | some (name, rest) =>
        match skipSpace rest with
        | ':' :: rest =>
          match splitValue fuel (skipSpace rest) with
          | none => none
          | some (value, rest) =>
            match skipSpace rest with
            | '\x7d' :: left => some (done.set name value, left)
            | ',' :: more => splitFields fuel (done.set name value) (skipSpace more)
            | _ => none
        | _ => none
    | _ => none

end

/-- The value of a text that holds one value and nothing else but white space. -/
def ofChars? (cs : List Char) : Option Json :=
  match splitValue (cs.length + 1) (skipSpace cs) with
  | some (value, rest) => if (skipSpace rest).isEmpty then some value else none
  | none => none

/-- The value that a text spells. -/
def read? (s : String) : Option Json :=
  ofChars? s.toList

end Json

end RobotPuzzle
