import RobotPuzzle.Json.Printer
import RobotPuzzle.Json.Reader
import RobotPuzzle.Proofs.Numeral.Digits

/-!
# Flat objects are read back

An object whose fields are null, booleans and integers, under names of printable ASCII that differ
from each other, is what is read from the lines that it is written on.

* `splitValue_pretty`: a scalar is read up to the comma or the line feed behind it.
* `splitString_append`: a name is read up to its closing quote.
* `read?_pretty`: the whole object.
-/

namespace RobotPuzzle

namespace Json

open Numeral Text

/-! ## Scalars -/

/-- Whether a value is null, a boolean or an integer. -/
def isScalar : Json → Bool
  | .null | .bool _ | .int _ => true
  | _ => false

/-- What stands behind a member: a comma or a line feed. -/
def EndsMember (c : Char) : Prop := c = ',' ∨ c = '\n'

theorem ne_of_isDigit {c d : Char} (h : c.isDigit = true) (hd : d.isDigit = false) : c ≠ d := by
  rintro rfl
  rw [h] at hd
  cases hd

/-- No word starts with a digit, and no word with a minus and a digit. -/
theorem start_of_mem_keywords {w : String × Json} (h : w ∈ keywords) :
    ∃ d e ds, w.1.toList = d :: e :: ds ∧ d.isDigit = false ∧ e.isDigit = false := by
  simp only [keywords, List.mem_cons, List.not_mem_nil, or_false] at h
  rcases h with rfl | rfl | rfl | rfl | rfl | rfl
  all_goals exact ⟨_, _, _, rfl, by decide, by decide⟩

theorem splitWord_eq_none {cs : List Char}
    (h : ∀ d e ds, d.isDigit = false → e.isDigit = false →
      (d :: e :: ds).isPrefixOf cs = false) : splitWord cs = none := by
  rw [splitWord, List.findSome?_eq_none_iff]
  intro w hw
  obtain ⟨d, e, ds, hcs, hd, he⟩ := start_of_mem_keywords hw
  simp only [hcs, h d e ds hd he, Bool.false_eq_true, ↓reduceIte]

theorem splitWord_of_isDigit {c : Char} (h : c.isDigit = true) (rest : List Char) :
    splitWord (c :: rest) = none := by
  refine splitWord_eq_none fun d e ds hd _ => ?_
  have hne : (d == c) = false := by simpa using (ne_of_isDigit h hd).symm
  rw [List.isPrefixOf, hne, Bool.false_and]

theorem splitWord_minus_of_isDigit {c : Char} (h : c.isDigit = true) (rest : List Char) :
    splitWord ('-' :: c :: rest) = none := by
  refine splitWord_eq_none fun d e ds _ he => ?_
  have hne : (e == c) = false := by simpa using (ne_of_isDigit h he).symm
  rw [List.isPrefixOf, List.isPrefixOf, hne, Bool.false_and, Bool.and_false]

/-- The digits of a number are read up to a character that is none. -/
theorem splitDecimalDigits_append {cs rest : List Char} (hcs : ∀ c ∈ cs, c.isDigit = true)
    (hne : cs ≠ []) {c : Char} (hc : c.isDigit = false) :
    splitDecimalDigits (cs ++ c :: rest) = some (cs.filterMap asciiDigit?, c :: rest) := by
  have htake : (cs ++ c :: rest).takeWhile Char.isDigit = cs := by
    rw [List.takeWhile_append_of_pos hcs, List.takeWhile_cons_of_neg (by simp [hc]),
      List.append_nil]
  have hdrop : (cs ++ c :: rest).dropWhile Char.isDigit = c :: rest := by
    rw [List.dropWhile_append_of_pos hcs, List.dropWhile_cons_of_neg (by simp [hc])]
  have hsome : (cs.filterMap asciiDigit?).isEmpty = false := by
    cases cs with
    | nil => exact absurd rfl hne
    | cons d ds => simp [asciiDigit?_of_isDigit (hcs d List.mem_cons_self)]
  simp only [splitDecimalDigits, htake, hdrop, hsome, Bool.false_eq_true, ↓reduceIte]

theorem splitWhole_toDigits (n : Nat) {c : Char} (hc : c.isDigit = false) (rest : List Char) :
    ∃ ds, splitWhole (Nat.toDigits 10 n ++ c :: rest) = some (ds, c :: rest) ∧
      ofDigits ds = n := by
  rcases Nat.eq_zero_or_pos n with rfl | hn
  · exact ⟨[0], rfl, rfl⟩
  · refine ⟨_, ?_, ofDigits_toDigits n⟩
    rw [← splitDecimalDigits_append (fun _ => isDigit_of_mem_toDigits) Nat.toDigits_ne_nil hc]
    unfold splitWhole
    split
    · next left h =>
      have hhead := head?_toDigits_ne hn
      cases hds : Nat.toDigits 10 n with
      | nil => exact absurd hds Nat.toDigits_ne_nil
      | cons d ds =>
        rw [hds] at h hhead
        exact absurd (congrArg some (List.cons.inj h).1) hhead
    · rfl

/-- The digits of a number are read up to the end of its member. -/
theorem splitNumber_toDigits (negative : Bool) (n : Nat) {c : Char} (h : EndsMember c)
    (left : List Char) :
    splitNumber negative (Nat.toDigits 10 n ++ c :: left) =
      some (.int (signed negative n), c :: left) := by
  have hc : c.isDigit = false := by rcases h with rfl | rfl <;> rfl
  obtain ⟨ds, hwhole, hds⟩ := splitWhole_toDigits n hc left
  simp only [splitNumber, hwhole, bind, Option.bind]
  rcases h with rfl | rfl <;> simp [splitPlaces, splitPower, hds]

/-- An integer is read up to the end of its member. -/
theorem splitScalar_int (n : Int) {c : Char} (h : EndsMember c) (left : List Char) :
    splitScalar ((toString n).toList ++ c :: left) = some (.int n, c :: left) := by
  obtain ⟨d, ds, hds⟩ : ∃ d ds, Nat.toDigits 10 n.natAbs = d :: ds :=
    List.exists_cons_of_ne_nil Nat.toDigits_ne_nil
  have hd : d.isDigit = true := isDigit_of_mem_toDigits (hds ▸ List.mem_cons_self)
  have hnumber := fun negative => splitNumber_toDigits negative n.natAbs h left
  rw [toList_toString]
  by_cases hn : n < 0
  · have hsigned : signed true n.natAbs = n := by simp only [signed, ↓reduceIte]; omega
    rw [hds] at hnumber ⊢
    simp only [if_pos hn, List.cons_append, List.nil_append, splitScalar,
      splitWord_minus_of_isDigit hd]
    rw [← List.cons_append, hnumber, hsigned]
  · have hsigned : signed false n.natAbs = n := by
      simp only [signed, Bool.false_eq_true, ↓reduceIte]; omega
    rw [hds] at hnumber ⊢
    simp only [if_neg hn, List.cons_append, List.nil_append, splitScalar,
      splitWord_of_isDigit hd]
    split
    · next heq => exact absurd (List.cons.inj heq).1 (ne_of_isDigit hd (by decide))
    · rw [← List.cons_append, hnumber, hsigned]

/-- A scalar is read up to the end of its member. -/
theorem splitScalar_pretty {j : Json} (hj : j.isScalar = true) (depth : Nat) {c : Char}
    (h : EndsMember c) (left : List Char) :
    splitScalar ((j.pretty depth).toList ++ c :: left) = some (j, c :: left) := by
  cases j with
  | null => rw [pretty]; rfl
  | bool b => rw [pretty]; cases b <;> rfl
  | int n => rw [pretty]; exact splitScalar_int n h left
  | real x | str t | arr items | obj fields => cases hj

/-- The first character of a scalar, which is none of those that other values start with. -/
structure StartsScalar (d : Char) : Prop where
  quote : d ≠ '"'
  bracket : d ≠ '['
  brace : d ≠ '\x7b'
  space : isSpace d = false

theorem startsScalar_of_isDigit {d : Char} (h : d.isDigit = true) : StartsScalar d := by
  have hne := fun c hc => ne_of_isDigit (d := c) h hc
  refine ⟨hne _ rfl, hne _ rfl, hne _ rfl, ?_⟩
  simp only [isSpace, Bool.or_eq_false_iff, beq_eq_false_iff_ne]
  exact ⟨⟨⟨hne _ rfl, hne _ rfl⟩, hne _ rfl⟩, hne _ rfl⟩

theorem start_pretty {j : Json} (hj : j.isScalar = true) (depth : Nat) :
    ∃ d ds, (j.pretty depth).toList = d :: ds ∧ StartsScalar d := by
  cases j with
  | null => rw [pretty]; exact ⟨_, _, rfl, by decide, by decide, by decide, by decide⟩
  | bool b =>
    rw [pretty]
    cases b <;> exact ⟨_, _, rfl, by decide, by decide, by decide, by decide⟩
  | int n =>
    rw [pretty, toList_toString]
    by_cases hn : n < 0
    · rw [if_pos hn]
      exact ⟨_, _, rfl, by decide, by decide, by decide, by decide⟩
    · obtain ⟨d, ds, hds⟩ : ∃ d ds, Nat.toDigits 10 n.natAbs = d :: ds :=
        List.exists_cons_of_ne_nil Nat.toDigits_ne_nil
      have hd : d.isDigit = true := isDigit_of_mem_toDigits (hds ▸ List.mem_cons_self)
      rw [if_neg hn, hds]
      exact ⟨d, ds, rfl, startsScalar_of_isDigit hd⟩
  | real x | str t | arr items | obj fields => cases hj

theorem splitValue_pretty {j : Json} (hj : j.isScalar = true) (fuel depth : Nat) {c : Char}
    (h : EndsMember c) (left : List Char) :
    splitValue (fuel + 1) ((j.pretty depth).toList ++ c :: left) = some (j, c :: left) := by
  rw [← splitScalar_pretty hj depth h left]
  obtain ⟨d, ds, hds, hstart⟩ := start_pretty hj depth
  rw [hds]
  unfold splitValue
  split
  · next heq => exact absurd (List.cons.inj heq).1 hstart.quote
  · next heq => exact absurd (List.cons.inj heq).1 hstart.bracket
  · next heq => exact absurd (List.cons.inj heq).1 hstart.brace
  · rfl

/-! ## Names -/

theorem toNat_of_isPlain {c : Char} (h : isPlain c = true) : 0x20 ≤ c.toNat ∧ c.toNat ≤ 0x7E := by
  simp only [isPlain, Bool.and_eq_true, decide_eq_true_eq] at h
  exact h.1.1

theorem ne_of_isPlain {c : Char} (h : isPlain c = true) : c ≠ '"' ∧ c ≠ '\\' := by
  simp only [isPlain, Bool.and_eq_true, bne_iff_ne] at h
  exact ⟨h.1.2, h.2⟩

theorem splitUnits_append {cs : List Char} (h : ∀ c ∈ cs, isPlain c = true) (done : List Nat)
    (left : List Char) :
    splitUnits done (cs ++ '"' :: left) = some ((cs.map Char.toNat).reverse ++ done, left) := by
  induction cs generalizing done with
  | nil => rfl
  | cons c rest ih =>
    have hc := h c List.mem_cons_self
    obtain ⟨hquote, hbackslash⟩ := ne_of_isPlain hc
    have hcontrol : ¬ c.toNat < 0x20 := Nat.not_lt.mpr (toNat_of_isPlain hc).1
    have hrest := ih (fun c' hc' => h c' (List.mem_cons_of_mem c hc')) (c.toNat :: done)
    rw [List.cons_append]
    unfold splitUnits
    split
    · next heq => cases heq
    · next heq => exact absurd (List.cons.inj heq).1 hquote
    · next heq => exact absurd (List.cons.inj heq).1 hbackslash
    · next heq => exact absurd (List.cons.inj heq).1 hbackslash
    · next heq =>
      obtain ⟨rfl, rfl⟩ := List.cons.inj heq
      simp [hcontrol, hbackslash, hrest]

/-- Code units that are no halves are a character each. -/
theorem ofUnits_eq_map {units : List Nat} (h : ∀ n ∈ units, isLowHalf n = false) (done : Text) :
    ofUnits done units = (units.map CodePoint.ofNat).reverse ++ done := by
  fun_induction ofUnits done units with
  | case1 done => rfl
  | case2 done low high rest hpair ih =>
    rw [h low List.mem_cons_self, Bool.false_and] at hpair
    cases hpair
  | case3 done low high rest hpair ih =>
    rw [ih fun n hn => h n (List.mem_cons_of_mem low hn)]
    simp
  | case4 done n => rfl

theorem ofNat_toNat_of_isPlain {c : Char} (h : isPlain c = true) :
    CodePoint.ofNat c.toNat = .char c := by
  have hle := (toNat_of_isPlain h).2
  rw [CodePoint.ofNat, dif_neg (by omega), Char.ofNat_toNat]

/-- A name is read up to its closing quote. -/
theorem splitString_append {s : String} (h : ∀ c ∈ s.toList, isPlain c = true)
    (left : List Char) : splitString (s.toList ++ '"' :: left) = some ((s : Text), left) := by
  have hunits : ∀ n ∈ (s.toList.map Char.toNat).reverse ++ [], isLowHalf n = false := by
    intro n hn
    rw [List.append_nil, List.mem_reverse] at hn
    obtain ⟨c, hc, rfl⟩ := List.mem_map.mp hn
    have hle := (toNat_of_isPlain (h c hc)).2
    have hlow : ¬ 0xDC00 ≤ c.toNat := by omega
    simp [isLowHalf, hlow]
  have hpoints : (s.toList.map Char.toNat).map CodePoint.ofNat = (s : Text) := by
    rw [List.map_map]
    exact List.map_congr_left fun c hc => ofNat_toNat_of_isPlain (h c hc)
  simp only [splitString, splitUnits_append h, Option.map_some, ofUnits_eq_map hunits]
  simp only [List.append_nil, List.map_reverse, hpoints, List.reverse_reverse]

theorem toList_quoted {s : String} (h : ∀ c ∈ s.toList, isPlain c = true) :
    (quoted s).toList = '"' :: s.toList ++ ['"'] := by
  have hpoints : ((s : Text).map pointText).flatMap String.toList = s.toList := by
    rw [List.flatMap_map, ofString, List.flatMap_map]
    have hself : ∀ cs : List Char, (∀ c ∈ cs, isPlain c = true) →
        cs.flatMap (fun c => (pointText (.char c)).toList) = cs := by
      intro cs hcs
      induction cs with
      | nil => rfl
      | cons c rest ih =>
        have hc : (pointText (.char c)).toList = [c] := by
          rw [pointText, charText_of_isPlain (hcs c List.mem_cons_self)]
          exact String.toList_singleton c
        rw [List.flatMap_cons, hc, ih fun c' hc' => hcs c' (List.mem_cons_of_mem c hc')]
        rfl
    exact hself s.toList h
  rw [quoted, String.toList_append, String.toList_append, String.toList_join, hpoints]
  rfl

/-! ## Fields -/

/-- A name and a scalar, as a field. -/
def field (f : String × Json) : Text × Json := (f.1, f.2)

/-- Names that are plain and scalars: what a flat object is made of. -/
structure Flat (fields : List (String × Json)) : Prop where
  plain : ∀ f ∈ fields, ∀ c ∈ f.1.toList, isPlain c = true
  scalar : ∀ f ∈ fields, f.2.isScalar = true
  distinct : (fields.map Prod.fst).Nodup

/-- The characters of a field, as they stand on their line. -/
def fieldChars (f : String × Json) : List Char :=
  '"' :: f.1.toList ++ '"' :: ':' :: ' ' :: (f.2.pretty 1).toList

/-- The characters from the first field to the last one: each but the first on a line of its own. -/
def fieldsChars : List (String × Json) → List Char
  | [] => []
  | [f] => fieldChars f
  | f :: g :: rest => fieldChars f ++ [',', '\n', ' ', ' '] ++ fieldsChars (g :: rest)

theorem skipSpace_fieldChars {f : String × Json} (hscalar : f.2.isScalar = true)
    (left : List Char) :
    skipSpace (' ' :: ((f.2.pretty 1).toList ++ left)) = (f.2.pretty 1).toList ++ left := by
  obtain ⟨d, ds, hds, hstart⟩ := start_pretty hscalar 1
  rw [hds]
  exact skipSpace_cons hstart.space _

theorem skipSpace_colon (cs : List Char) : skipSpace (':' :: cs) = ':' :: cs :=
  skipSpace_cons (by decide) cs

theorem skipSpace_comma (cs : List Char) : skipSpace (',' :: cs) = ',' :: cs :=
  skipSpace_cons (by decide) cs

/-- A field with a comma behind it is read, and reading goes on. -/
theorem splitFields_comma {f : String × Json} (hplain : ∀ c ∈ f.1.toList, isPlain c = true)
    (hscalar : f.2.isScalar = true) (fuel : Nat) (done : Fields) (more : List Char) :
    splitFields (fuel + 2) done (fieldChars f ++ ',' :: more) =
      splitFields (fuel + 1) (done.set f.1 f.2) (skipSpace more) := by
  have hvalue := splitValue_pretty hscalar fuel 1 (.inl rfl) more
  have hspace := skipSpace_fieldChars hscalar (',' :: more)
  rw [splitFields.eq_def]
  simp only [fieldChars, List.cons_append, List.append_assoc, splitString_append hplain,
    skipSpace_colon, skipSpace_comma, hspace, hvalue]

/-- The last field is read up to the closing brace on the next line. -/
theorem splitFields_last {f : String × Json} (hplain : ∀ c ∈ f.1.toList, isPlain c = true)
    (hscalar : f.2.isScalar = true) (fuel : Nat) (done : Fields) (left : List Char) :
    splitFields (fuel + 2) done (fieldChars f ++ '\n' :: '\x7d' :: left) =
      some (done.set f.1 f.2, left) := by
  have hvalue := splitValue_pretty hscalar fuel 1 (.inr rfl) ('\x7d' :: left)
  have hspace := skipSpace_fieldChars hscalar ('\n' :: '\x7d' :: left)
  have hbrace : skipSpace ('\n' :: '\x7d' :: left) = '\x7d' :: left := rfl
  rw [splitFields.eq_def]
  simp only [fieldChars, List.cons_append, List.append_assoc, splitString_append hplain,
    skipSpace_colon, hbrace, hspace, hvalue]

theorem set_of_forall_ne {fields : Fields} {name : Text} (h : ∀ g ∈ fields, g.1 ≠ name)
    (value : Json) : fields.set name value = fields ++ [(name, value)] := by
  induction fields with
  | nil => rfl
  | cons g rest ih =>
    have hg : (g.1 == name) = false := by simpa using h g List.mem_cons_self
    simp [Fields.set, hg, ih fun g' hg' => h g' (List.mem_cons_of_mem g hg')]

theorem start_fieldsChars (f : String × Json) (rest : List (String × Json)) :
    ∃ cs, fieldsChars (f :: rest) = '"' :: cs := by
  cases rest with
  | nil => exact ⟨_, rfl⟩
  | cons g more => exact ⟨_, rfl⟩

/-- The fields of a flat object are read one after the other, behind those that have been read. -/
theorem splitFields_fieldsChars {fields : List (String × Json)} (h : Flat fields)
    (hne : fields ≠ []) (fuel : Nat) (hfuel : fields.length < fuel) (done : Fields)
    (hnew : ∀ g ∈ done, ∀ f ∈ fields, g.1 ≠ f.1) (left : List Char) :
    splitFields fuel done (fieldsChars fields ++ '\n' :: '\x7d' :: left) =
      some (done ++ fields.map field, left) := by
  induction fields generalizing fuel done with
  | nil => exact absurd rfl hne
  | cons f rest ih =>
    obtain ⟨fuel, rfl⟩ : ∃ k, fuel = k + 2 := ⟨fuel - 2, by simp at hfuel; omega⟩
    have hplain := h.plain f List.mem_cons_self
    have hscalar := h.scalar f List.mem_cons_self
    have hset : done.set f.1 f.2 = done ++ [field f] :=
      set_of_forall_ne (fun g hg => hnew g hg f List.mem_cons_self) f.2
    cases rest with
    | nil =>
      rw [fieldsChars, splitFields_last hplain hscalar, hset]
      rfl
    | cons g more =>
      have hflat : Flat (g :: more) :=
        { plain := fun f' hf => h.plain f' (List.mem_cons_of_mem f hf)
          scalar := fun f' hf => h.scalar f' (List.mem_cons_of_mem f hf)
          distinct := (List.nodup_cons.mp h.distinct).2 }
      have hnew' : ∀ g' ∈ done ++ [field f], ∀ f' ∈ g :: more, g'.1 ≠ f'.1 := by
        intro g' hg' f' hf'
        rcases List.mem_append.mp hg' with hg' | hg'
        · exact hnew g' hg' f' (List.mem_cons_of_mem f hf')
        · rw [List.mem_singleton.mp hg']
          have hnotin := (List.nodup_cons.mp h.distinct).1
          have hfst : f.1 ≠ f'.1 := fun e => hnotin (e ▸ List.mem_map_of_mem hf')
          exact fun e => hfst (ofString_injective e)
      have hrest := ih hflat (by simp) (fuel + 1) (by simp at hfuel ⊢; omega) _ hnew'
      rw [fieldsChars, List.append_assoc, List.append_assoc, List.cons_append,
        splitFields_comma hplain hscalar, hset]
      have hquote : ∀ cs, skipSpace ('\n' :: ' ' :: ' ' :: '"' :: cs) = '"' :: cs := fun _ => rfl
      obtain ⟨cs, hcs⟩ := start_fieldsChars g more
      rw [hcs, List.cons_append] at hrest ⊢
      simp only [List.cons_append, List.nil_append, hquote, hrest]
      simp

/-- A field on its line. -/
def fieldText (f : String × Json) : String := quoted f.1 ++ ": " ++ f.2.pretty 1

theorem prettyFields_map_field (fields : List (String × Json)) :
    prettyFields 1 (fields.map field) = fields.map fieldText := by
  induction fields with
  | nil => rw [List.map_nil, prettyFields, List.map_nil]
  | cons f rest ih => rw [List.map_cons, field, prettyFields, ih, List.map_cons, fieldText]

theorem toList_fieldText {f : String × Json} (h : ∀ c ∈ f.1.toList, isPlain c = true) :
    (fieldText f).toList = fieldChars f := by
  rw [fieldText, String.toList_append, String.toList_append, toList_quoted h]
  simp [fieldChars]

/-- The fields on their lines, two spaces in. -/
theorem toList_intercalate_fieldText {fields : List (String × Json)}
    (h : ∀ f ∈ fields, ∀ c ∈ f.1.toList, isPlain c = true) (hne : fields ≠ []) :
    (",\n".intercalate ((fields.map fieldText).map ("  " ++ ·))).toList =
      ' ' :: ' ' :: fieldsChars fields := by
  have hmember : ∀ f ∈ fields, ("  " ++ fieldText f).toList = ' ' :: ' ' :: fieldChars f :=
    fun f hf => by rw [String.toList_append, toList_fieldText (h f hf)]; rfl
  induction fields with
  | nil => exact absurd rfl hne
  | cons f rest ih =>
    have hf := hmember f List.mem_cons_self
    cases rest with
    | nil => simpa [fieldsChars] using hf
    | cons g more =>
      have hrest := ih (fun f' hf' => h f' (List.mem_cons_of_mem f hf')) (by simp)
        fun f' hf' => hmember f' (List.mem_cons_of_mem f hf')
      simp only [List.map_cons] at hrest ⊢
      rw [String.intercalate_cons_cons, String.toList_append, String.toList_append, hf, hrest]
      simp [fieldsChars]

/-- The lines of a flat object. -/
theorem toList_pretty {fields : List (String × Json)} (h : Flat fields) (hne : fields ≠ []) :
    ((obj (fields.map field)).pretty 0).toList =
      '\x7b' :: '\n' :: ' ' :: ' ' :: (fieldsChars fields ++ ['\n', '\x7d']) := by
  have hlines := toList_intercalate_fieldText h.plain hne
  have hsome : (fields.map fieldText).isEmpty = false := by simpa using hne
  rw [pretty, prettyFields_map_field, block, hsome]
  have hmargin : String.ofList (List.replicate (2 * 0) ' ') = "" := rfl
  simp only [Bool.false_eq_true, ↓reduceIte, hmargin, String.empty_append, String.toList_append,
    hlines]
  simp

theorem length_le_length_fieldsChars (fields : List (String × Json)) :
    fields.length ≤ (fieldsChars fields).length := by
  fun_induction fieldsChars fields with
  | case1 => exact Nat.le_refl _
  | case2 f => simp [fieldChars]
  | case3 f g rest ih =>
    simp only [List.length_cons, List.length_append, List.length_nil] at ih ⊢
    omega

/-- **A flat object is read back** from the lines that it is written on. -/
theorem read?_pretty {fields : List (String × Json)} (h : Flat fields) (hne : fields ≠ []) :
    read? ((obj (fields.map field)).pretty 0) = some (obj (fields.map field)) := by
  obtain ⟨f, rest, rfl⟩ := List.exists_cons_of_ne_nil hne
  obtain ⟨cs, hcs⟩ := start_fieldsChars f rest
  have hlen := length_le_length_fieldsChars (f :: rest)
  have hfields := splitFields_fieldsChars h hne ((fieldsChars (f :: rest)).length + 6)
    (by omega) [] (by simp) []
  have hspace : skipSpace ('\n' :: ' ' :: ' ' :: (fieldsChars (f :: rest) ++ ['\n', '\x7d'])) =
      fieldsChars (f :: rest) ++ ['\n', '\x7d'] := by
    rw [hcs]
    rfl
  have hvalue : ∀ n, n = (fieldsChars (f :: rest)).length + 6 →
      splitValue (n + 1) ('\x7b' :: '\n' :: ' ' :: ' ' ::
        (fieldsChars (f :: rest) ++ ['\n', '\x7d'])) =
      some (obj ((f :: rest).map field), []) := by
    rintro n rfl
    rw [hcs, List.cons_append] at hfields hspace ⊢
    simp only [splitValue, hspace]
    exact congrArg (Option.map fun r => (obj r.1, r.2)) hfields
  have hopen : ∀ cs, skipSpace ('\x7b' :: cs) = '\x7b' :: cs := skipSpace_cons (by decide)
  rw [read?, ofChars?, toList_pretty h hne, hopen, hvalue]
  · rfl
  · simp

end Json

end RobotPuzzle
