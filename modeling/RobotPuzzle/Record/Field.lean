import RobotPuzzle.Json.Basic
import RobotPuzzle.Numeral.Integer
import RobotPuzzle.Numeral.Binary
import RobotPuzzle.Record.Issue
import RobotPuzzle.Word

/-!
# Fields of records

How the values of a record's fields are checked. Numbers and booleans are read with some latitude:
an integer may come as a boolean, as a double without a fraction or as a text, and a boolean as the
number zero or one or as one of a few words. Texts, lists and words of a vocabulary have to be what
they are. A text with half a surrogate pair can only be a text.

* `integer_int`, `boolean_bool`, `text_str`: a value of the right kind is taken as it is.
* `word_of_spelling`, `word_spelling`: a word is read from its spelling, and from it alone.
* `list_map`, `nullable_orNull`: what has been written down is read again.
-/

namespace RobotPuzzle

namespace Field

open Numeral Text

/-- How a value is checked. -/
abbrev Check (α : Type) := Json → Checked α

/-! ## Integers -/

/-- The characters before a fraction that consists of zeros; all of them if there is no fraction. -/
def withoutZeroFraction? (cs : List Char) : Option (List Char) :=
  match cs.dropWhile (· != '.') with
  | [] => some cs
  | _ :: zeros =>
    if !zeros.isEmpty && zeros.all (· == '0') then some (cs.takeWhile (· != '.')) else none

/-- The number of digits, between which single underscores may stand. -/
def plainNumber? (cs : List Char) : Option Int :=
  match splitDigits asciiDigit? cs with
  | some (ds, []) => some (ofDigits ds)
  | _ => none

/-- The number behind a minus that follows zeros. One underscore may stand in front of it, and a
zero only if it is the number. -/
def lateNumber? (cs : List Char) : Option Int :=
  match (match cs with | '_' :: rest => rest | _ => cs) with
  | ['0'] => some 0
  | '0' :: _ => none
  | digits => plainNumber? digits

/-- The number of digits that may have zeros in front. Among the zeros there may be underscores of
any number, and a minus may follow them. -/
def paddedNumber? : List Char → Option Int
  | '0' :: rest =>
    match rest.dropWhile (fun c => c == '0' || c == '_') with
    | [] => if rest.getLastD '0' == '0' then some 0 else none
    | '-' :: digits => (lateNumber? digits).map (-·)
    | digits => plainNumber? digits
  | digits => plainNumber? digits

/-- The integer that characters spell: a sign, a number and a fraction of zeros, with blanks around
them. Of a minus in front and one behind zeros there can only be one. -/
def integerOfText? (cs : List Char) : Option Int := do
  match ← withoutZeroFraction? (trim cs) with
  | '-' :: rest => if rest.contains '-' then none else (paddedNumber? rest).map (-·)
  | '+' :: rest => paddedNumber? rest
  | rest => paddedNumber? rest

/-- The bound of words of sixty-four bits, `2 ^ 63`. -/
def wordBound : Int := 0x8000000000000000

/-- Whether a number lies strictly between `-2 ^ 63` and `2 ^ 63`. -/
def fitsWord (n : Int) : Bool := -wordBound < n && n < wordBound

/-- Checks for an integer. -/
def integer : Check Int
  | .int n => .good n
  | .bool b => .good (if b then 1 else 0)
  | .real x =>
    match Binary.ofFloat? x with
    | none => .refuse .notFinite
    | some b =>
      if !b.isWhole then .refuse .fraction
      else if fitsWord b.whole then .good b.whole
      else .refuse .tooWideInteger
  | .str s =>
    match s.chars? with
    | none => .refuse .brokenText
    | some cs =>
      match integerOfText? cs with
      | some n => .good n
      | none => .refuse .unreadableInteger
  | .null | .arr _ | .obj _ => .refuse .notInteger

/-- Checks for an integer that is at least `low`. -/
def atLeast (low : Int) (j : Json) : Checked Int :=
  (integer j).andThen fun n => if low ≤ n then .good n else .refuse .tooSmall

/-- Checks for an integer from `low` to `high`. -/
def between (low high : Int) (j : Json) : Checked Int :=
  (atLeast low j).andThen fun n => if n ≤ high then .good n else .refuse .tooGreat

/-! ## Booleans, texts, words, lists -/

/-- The words for true. -/
def yesWords : List String := ["1", "on", "t", "true", "y", "yes"]

/-- The words for false. -/
def noWords : List String := ["0", "off", "f", "false", "n", "no"]

/-- The boolean that an integer stands for. -/
def booleanOfInteger (n : Int) : Checked Bool :=
  if n = 0 then .good false
  else if n = 1 then .good true
  else if -wordBound ≤ n ∧ n < wordBound then .refuse .unreadableBoolean
  else .refuse .notBoolean

/-- Checks for a boolean. -/
def boolean : Check Bool
  | .bool b => .good b
  | .int n => booleanOfInteger n
  | .real x =>
    match Binary.ofFloat? x with
    | none => .refuse .notBoolean
    | some b =>
      if b.isWhole && fitsWord b.whole then booleanOfInteger b.whole else .refuse .notBoolean
  | .str s =>
    match s.chars? with
    | none => .refuse .brokenText
    | some cs =>
      let word := String.ofList (cs.map Char.toLower)
      if yesWords.contains word then .good true
      else if noWords.contains word then .good false
      else .refuse .unreadableBoolean
  | .null | .arr _ | .obj _ => .refuse .notBoolean

/-- Checks for a text. -/
def text : Check Text
  | .str s => .good s
  | _ => .refuse .notText

/-- Checks for a word of a vocabulary. -/
def word {α : Type} [Word α] : Check α
  | .str s =>
    match Word.ofSpelling? s with
    | some w => .good w
    | none => if s.any CodePoint.isHalf then .refuse .brokenText else .refuse .unknownWord
  | _ => .refuse .unknownWord

/-- Checks for a list, whose items are checked each. -/
def list {α : Type} (item : Check α) : Check (List α)
  | .arr items => Checked.items item 0 items
  | _ => .refuse .notList

/-- Checks for null or else for what `inner` checks. -/
def nullable {α : Type} (inner : Check α) : Check (Option α)
  | .null => .good none
  | j => (inner j).map some

/-! ## Records -/

/-- Checks for an object, from whose fields a record is built. -/
def record {α : Type} (build : Fields → Checked α) : Check α
  | .obj fields => build fields
  | _ => .refuse .notRecord

end Field

namespace Fields

/-- A field that has to be there. -/
def required {α : Type} (fields : Fields) (name : String) (check : Field.Check α) : Checked α :=
  ((fields.get? name).elim (.refuse .missing) check).under name

/-- A field that may be left out. -/
def optional {α : Type} (fields : Fields) (name : String) (default : α) (check : Field.Check α) :
    Checked α :=
  ((fields.get? name).elim (.good default) check).under name

end Fields

namespace Field

theorem integer_int (n : Int) : integer (.int n) = .good n := rfl

theorem atLeast_int {low n m : Int} : atLeast low (.int n) = .good m ↔ m = n ∧ low ≤ n := by
  by_cases h : low ≤ n <;> simp [atLeast, integer_int, Checked.andThen, Checked.refuse, h, eq_comm]

/-- A number within its bounds is taken as it is. -/
theorem between_int {low high n : Int} (h : low ≤ n) (h' : n ≤ high) :
    between low high (.int n) = .good n := by
  simp [between, atLeast, integer_int, Checked.andThen, h, h']

theorem boolean_bool (b : Bool) : boolean (.bool b) = .good b := rfl

theorem text_str (s : Text) : text (.str s) = .good s := rfl

theorem word_of_spelling {α : Type} [Word α] [LawfulWord α] (w : α) :
    word (.str (Text.ofString (Word.spelling w))) = .good w := by
  simp only [word, LawfulWord.ofSpelling?_spelling]

theorem word_spelling {α : Type} [Word α] {s : Text} {w : α} (h : word (.str s) = .good w) :
    Word.spelling w = s := by
  simp only [word] at h
  split at h
  · next w' hw =>
    cases h
    exact Word.spelling_of_ofSpelling? hw
  · split at h <;> cases h

variable {α : Type} {check : Check α} {write : α → Json}

theorem items_map {as : List α} (h : ∀ a ∈ as, check (write a) = .good a) (first : Nat) :
    Checked.items check first (as.map write) = .good as := by
  induction as generalizing first with
  | nil => rfl
  | cons a rest ih =>
    rw [List.forall_mem_cons] at h
    rw [List.map_cons, Checked.items, h.1, ih h.2]
    rfl

/-- Items that are written down in a list and checked come back. -/
theorem list_map {as : List α} (h : ∀ a ∈ as, check (write a) = .good a) :
    list check (.arr (as.map write)) = .good as := items_map h 0

/-- What is written down unless there is nothing, and checked, comes back. -/
theorem nullable_orNull {o : Option α} (hnull : ∀ a, write a ≠ .null)
    (h : ∀ a ∈ o, check (write a) = .good a) :
    nullable check (Json.orNull write o) = .good o := by
  cases o with
  | none => rfl
  | some a =>
    have hgood := h a rfl
    have hne := hnull a
    simp only [Json.orNull]
    cases hwrite : write a with
    | null => exact absurd hwrite hne
    | bool _ | int _ | real _ | str _ | arr _ | obj _ =>
      rw [hwrite] at hgood
      simp only [nullable, hgood]
      rfl

end Field

end RobotPuzzle
