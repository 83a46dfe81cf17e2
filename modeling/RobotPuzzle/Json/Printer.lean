import RobotPuzzle.Json.Basic
import RobotPuzzle.Numeral.Real
import RobotPuzzle.Text.Quoted

/-!
# Writing JSON

Three ways to write a value: on one line (`compact`), on lines of their own for the members of
arrays and objects (`pretty`), and as a literal inside a message (`literal`). Both JSON texts are
ASCII: everything else is escaped, in UTF-16 code units.

* `charText_of_isPlain`: printable ASCII other than quote and backslash stands as it is.
-/

namespace RobotPuzzle

namespace Json

open Numeral Text

/-! ## Strings -/

/-- The escape of a UTF-16 code unit. -/
def unitEscape (n : Nat) : String := "\\u" ++ hex 4 n

/-- One character of a JSON string. -/
def charText (c : Char) : String :=
  if c == '"' then "\\\""
  else if c == '\\' then "\\\\"
  else if c == '\n' then "\\n"
  else if c == '\r' then "\\r"
  else if c == '\t' then "\\t"
  else if c == '\x0c' then "\\f"
  else if c == '\x08' then "\\b"
  else if 0x20 ≤ c.toNat && c.toNat ≤ 0x7E then c.toString
  else if c.toNat ≤ 0xFFFF then unitEscape c.toNat
  else
    let n := c.toNat - 0x10000
    unitEscape (0xD800 + n / 0x400) ++ unitEscape (0xDC00 + n % 0x400)

/-- One code point of a JSON string. -/
def pointText : CodePoint → String
  | .char c => charText c
  | .half offset => unitEscape (CodePoint.half offset).toNat

/-- A text as a JSON string. -/
def quoted (t : Text) : String :=
  "\"" ++ String.join (t.map pointText) ++ "\""

/-- A character that a JSON string shows as itself. -/
def isPlain (c : Char) : Bool :=
  0x20 ≤ c.toNat && c.toNat ≤ 0x7E && c != '"' && c != '\\'

theorem charText_of_isPlain {c : Char} (h : isPlain c = true) : charText c = c.toString := by
  simp only [isPlain, Bool.and_eq_true, decide_eq_true_eq, bne_iff_ne, ne_eq] at h
  obtain ⟨⟨⟨h1, h2⟩, h3⟩, h4⟩ := h
  have hn : c ≠ '\n' := by rintro rfl; simp at h1
  have hr : c ≠ '\r' := by rintro rfl; simp at h1
  have ht : c ≠ '\t' := by rintro rfl; simp at h1
  have hf : c ≠ '\x0c' := by rintro rfl; simp at h1
  have hb : c ≠ '\x08' := by rintro rfl; simp at h1
  simp [charText, h1, h2, h3, h4, hn, hr, ht, hf, hb]

/-! ## Numbers -/

/-- A double as a JSON number; infinities and NaN are words. -/
def realJson (x : Float) : String :=
  if x.isNaN then "NaN"
  else if x == 1.0 / 0.0 then "Infinity"
  else if x == -1.0 / 0.0 then "-Infinity"
  else realText x

/-! ## Whole values -/

mutual

/-- A value on one line. -/
def compact : Json → String
  | .null => "null"
  | .bool b => if b then "true" else "false"
  | .int n => toString n
  | .real x => realJson x
  | .str s => quoted s
  | .arr items => "[" ++ ", ".intercalate (compactItems items) ++ "]"
  | .obj fields => "\x7b" ++ ", ".intercalate (compactFields fields) ++ "\x7d"

/-- The items of an array, each on one line. -/
def compactItems : List Json → List String
  | [] => []
  | item :: rest => compact item :: compactItems rest

/-- The fields of an object, each on one line. -/
def compactFields : List (Text × Json) → List String
  | [] => []
  | (name, value) :: rest => (quoted name ++ ": " ++ compact value) :: compactFields rest

end

/-- Members between brackets, each on a line of its own, two spaces further in than the brackets. -/
def block (opening closing : String) (depth : Nat) (members : List String) : String :=
  if members.isEmpty then opening ++ closing
  else
    let margin := String.ofList (List.replicate (2 * depth) ' ')
    let inner := margin ++ "  "
    opening ++ "\n" ++ (",\n".intercalate (members.map (inner ++ ·))) ++ "\n" ++ margin ++ closing

mutual

/-- A value whose members stand on lines of their own, `depth` levels further in. -/
def pretty (depth : Nat) : Json → String
  | .arr items => block "[" "]" depth (prettyItems (depth + 1) items)
  | .obj fields => block "\x7b" "\x7d" depth (prettyFields (depth + 1) fields)
  | .null => "null"
  | .bool b => if b then "true" else "false"
  | .int n => toString n
  | .real x => realJson x
  | .str s => quoted s

/-- The items of an array, each as a text. -/
def prettyItems (depth : Nat) : List Json → List String
  | [] => []
  | item :: rest => pretty depth item :: prettyItems depth rest

/-- The fields of an object, each as a text. -/
def prettyFields (depth : Nat) : List (Text × Json) → List String
  | [] => []
  | (name, value) :: rest => (quoted name ++ ": " ++ pretty depth value) :: prettyFields depth rest

end

/-! ## Values in messages -/

mutual

/-- A value as a literal: texts are quoted, and the three words are `None`, `True` and `False`. -/
def literal : Json → String
  | .null => "None"
  | .bool b => if b then "True" else "False"
  | .int n => toString n
  | .real x => realText x
  | .str s => quote s
  | .arr items => "[" ++ ", ".intercalate (literalItems items) ++ "]"
  | .obj fields => "\x7b" ++ ", ".intercalate (literalFields fields) ++ "\x7d"

/-- The items of an array, each as a literal. -/
def literalItems : List Json → List String
  | [] => []
  | item :: rest => literal item :: literalItems rest

/-- The fields of an object, each as a literal. -/
def literalFields : List (Text × Json) → List String
  | [] => []
  | (name, value) :: rest => (quote name ++ ": " ++ literal value) :: literalFields rest

end

/-- A value as part of a sentence: a text stands as it is, everything else as a literal. -/
def text : Json → Text
  | .str s => s
  | j => j.literal

end Json

end RobotPuzzle
