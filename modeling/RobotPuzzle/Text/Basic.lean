/-!
# Texts

Texts as JSON has them: lists of code points. JSON can name one half of a surrogate pair without the
other, which is a code point but no character, so a text may be what no string is.

* `chars?_ofString`: the text of a string consists of the string's characters.
* `joinWith_lines`: a text is its lines with line feeds in between.
* `lines_joinWith`: lines with line feeds in between are the lines of their text.
-/

namespace RobotPuzzle

/-- A code point: a character, or half of a surrogate pair that stands alone. The halves are the
code points from `0xD800` on. -/
inductive CodePoint where
  | char (c : Char)
  | half (offset : Fin 0x800)
  deriving DecidableEq, Repr

namespace CodePoint

/-- The number of a code point. -/
def toNat : CodePoint → Nat
  | .char c => c.toNat
  | .half offset => 0xD800 + offset.val

/-- The code point with a number. -/
def ofNat (n : Nat) : CodePoint :=
  if h : 0xD800 ≤ n ∧ n < 0xE000 then .half ⟨n - 0xD800, by omega⟩ else .char (Char.ofNat n)

/-- The character that a code point is, if it is one. -/
def char? : CodePoint → Option Char
  | .char c => some c
  | .half _ => none

/-- Whether the code point is half of a surrogate pair. -/
def isHalf (p : CodePoint) : Bool := p.char?.isNone

theorem toNat_ofNat_half {n : Nat} (h : 0xD800 ≤ n) (h' : n < 0xE000) : (ofNat n).toNat = n := by
  rw [ofNat, dif_pos ⟨h, h'⟩, toNat]
  exact Nat.add_sub_cancel' h

end CodePoint

/-- A text. -/
abbrev Text := List CodePoint

namespace Text

/-- The text of a string. -/
def ofString (s : String) : Text := s.toList.map .char

instance : Coe String Text := ⟨ofString⟩

/-- The characters of a text in which no half of a surrogate pair stands alone. -/
def chars? : Text → Option (List Char)
  | [] => some []
  | p :: rest => do pure ((← p.char?) :: (← chars? rest))

/-- The string of such a text. -/
def string? (t : Text) : Option String := t.chars?.map String.ofList

/-- A text as a string, with the replacement character in the stead of each lone half. -/
def shown (t : Text) : String := String.ofList (t.map fun p => p.char?.getD '\uFFFD')

/-- Texts with a separator in between. -/
def joinWith (separator : Text) (ts : List Text) : Text := List.intercalate separator ts

/-- The lines of a text, of whose first one `line` has been read, in reverse. -/
def linesFrom (line : Text) : Text → List Text
  | [] => [line.reverse]
  | p :: rest =>
    if p = .char '\n' then line.reverse :: linesFrom [] rest else linesFrom (p :: line) rest

/-- The lines of a text: what stands before, between and behind its line feeds. -/
def lines (t : Text) : List Text := linesFrom [] t

theorem chars?_map_char (cs : List Char) : chars? (cs.map .char) = some cs := by
  induction cs with
  | nil => rfl
  | cons c rest ih => simp [chars?, CodePoint.char?, ih]

theorem chars?_ofString (s : String) : chars? (ofString s) = some s.toList :=
  chars?_map_char s.toList

theorem ofString_injective {s t : String} (h : ofString s = ofString t) : s = t := by
  have := congrArg chars? h
  rw [chars?_ofString, chars?_ofString, Option.some.injEq] at this
  exact String.toList_inj.mp this

@[simp]
theorem ofString_inj {s t : String} : ofString s = ofString t ↔ s = t :=
  ⟨ofString_injective, congrArg ofString⟩

theorem linesFrom_ne_nil (line t : Text) : linesFrom line t ≠ [] := by
  induction t generalizing line with
  | nil => simp [linesFrom]
  | cons p rest ih => unfold linesFrom; split <;> simp [ih]

theorem joinWith_singleton (separator t : Text) : joinWith separator [t] = t := by
  simp [joinWith, List.intercalate]

theorem joinWith_cons_cons (separator t u : Text) (ts : List Text) :
    joinWith separator (t :: u :: ts) = t ++ separator ++ joinWith separator (u :: ts) := by
  simp [joinWith, List.intercalate]

theorem joinWith_linesFrom (line t : Text) :
    joinWith "\n" (linesFrom line t) = line.reverse ++ t := by
  induction t generalizing line with
  | nil => simp [linesFrom, joinWith_singleton]
  | cons p rest ih =>
    unfold linesFrom
    split
    · next h =>
      obtain ⟨first, more, hm⟩ := List.exists_cons_of_ne_nil (linesFrom_ne_nil [] rest)
      have hr := ih []
      rw [hm] at hr ⊢
      rw [joinWith_cons_cons, hr, h]
      simp [ofString]
    · simp [ih]

theorem joinWith_lines (t : Text) : joinWith "\n" (lines t) = t :=
  joinWith_linesFrom [] t

theorem linesFrom_append {part : Text} (h : .char '\n' ∉ part) (line t : Text) :
    linesFrom line (part ++ t) = linesFrom (part.reverse ++ line) t := by
  induction part generalizing line with
  | nil => rfl
  | cons p rest ih =>
    rw [List.mem_cons, not_or] at h
    rw [List.cons_append, linesFrom, if_neg (Ne.symm h.1), ih h.2, List.reverse_cons,
      List.append_assoc]
    rfl

theorem lines_joinWith {ts : List Text} (hne : ts ≠ []) (h : ∀ t ∈ ts, .char '\n' ∉ t) :
    lines (joinWith "\n" ts) = ts := by
  induction ts with
  | nil => exact absurd rfl hne
  | cons t rest ih =>
    rw [List.forall_mem_cons] at h
    cases rest with
    | nil =>
      have hline := linesFrom_append h.1 [] []
      rw [List.append_nil, List.append_nil] at hline
      rw [joinWith_singleton, lines, hline, linesFrom, List.reverse_reverse]
    | cons u rest =>
      have hline := linesFrom_append h.1 [] (ofString "\n" ++ joinWith "\n" (u :: rest))
      rw [List.append_nil] at hline
      rw [joinWith_cons_cons, List.append_assoc, lines, hline]
      show linesFrom t.reverse (.char '\n' :: joinWith "\n" (u :: rest)) = _
      rw [linesFrom, if_pos rfl, List.reverse_reverse]
      exact congrArg (t :: ·) (ih (List.cons_ne_nil u rest) h.2)

end Text

end RobotPuzzle
