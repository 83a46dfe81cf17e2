import RobotPuzzle.Numeral.Integer

/-!
# Digits that are written are read back

* `ofDigits_toDigits`: the digits of a number spell it.
* `padded_injective`: numbers that are padded to the same width are told apart.
-/

namespace RobotPuzzle

namespace Numeral

open Text

theorem asciiDigit?_of_isDigit {c : Char} (h : c.isDigit = true) :
    asciiDigit? c = some (c.toNat - '0'.toNat) := by
  rw [asciiDigit?, if_pos h]

/-- The number that digit characters spell, in the reading of core. -/
theorem ofDigits_filterMap {cs : List Char} (h : ∀ c ∈ cs, c.isDigit = true) :
    ofDigits (cs.filterMap asciiDigit?) = Nat.ofDigitChars 10 cs 0 := by
  have hvalues : cs.filterMap asciiDigit? = cs.map fun c => c.toNat - '0'.toNat := by
    induction cs with
    | nil => rfl
    | cons c rest ih =>
      rw [List.filterMap_cons_some (asciiDigit?_of_isDigit (h c List.mem_cons_self)),
        ih fun c' hc => h c' (List.mem_cons_of_mem c hc)]
      rfl
  rw [hvalues, ofDigits, List.foldl_map]
  rfl

theorem isDigit_of_mem_toDigits {n : Nat} {c : Char} (h : c ∈ Nat.toDigits 10 n) :
    c.isDigit = true :=
  Nat.isDigit_of_mem_toDigits (by decide) (by decide) h

theorem isDigit_of_mem_replicate_toDigits {k n : Nat} {c : Char}
    (h : c ∈ List.replicate k '0' ++ Nat.toDigits 10 n) : c.isDigit = true := by
  rcases List.mem_append.mp h with h | h
  · rw [List.eq_of_mem_replicate h]
    rfl
  · exact isDigit_of_mem_toDigits h

/-- An integer is written as its sign and the digits of its magnitude. -/
theorem toList_toString (n : Int) :
    (toString n).toList = (if n < 0 then ['-'] else []) ++ Nat.toDigits 10 n.natAbs := by
  rw [Int.toString_eq_repr, Int.repr_eq_if]
  by_cases h : n < 0
  · have habs : (-n).toNat = n.natAbs := by omega
    rw [if_neg (by omega), if_pos h, habs, String.toList_append, Nat.toList_repr]
    rfl
  · have habs : n.toNat = n.natAbs := by omega
    rw [if_pos (by omega), if_neg h, habs, Nat.toList_repr]
    rfl

/-- The digits of a number spell it. -/
theorem ofDigits_toDigits (n : Nat) :
    ofDigits ((Nat.toDigits 10 n).filterMap asciiDigit?) = n := by
  rw [ofDigits_filterMap fun _ => isDigit_of_mem_toDigits]
  exact Nat.ofDigitChars_ten_toDigits

/-- Zeros in front do not change the number. -/
theorem ofDigits_replicate_toDigits (k n : Nat) :
    ofDigits ((List.replicate k '0' ++ Nat.toDigits 10 n).filterMap asciiDigit?) = n := by
  rw [ofDigits_filterMap fun _ => isDigit_of_mem_replicate_toDigits, Nat.ofDigitChars_append,
    Nat.ofDigitChars_replicate_zero, Nat.mul_zero]
  exact Nat.ofDigitChars_ten_toDigits

/-- A number other than zero is written without a zero in front. -/
theorem head?_toDigits_ne {n : Nat} (h : 0 < n) : (Nat.toDigits 10 n).head? ≠ some '0' := by
  induction n using Nat.strongRecOn with
  | _ n ih =>
    rw [Nat.toDigits_eq_if (by decide)]
    split
    · next hn =>
      intro hc
      have hzero : n.digitChar.toNat - 48 = '0'.toNat - 48 := by
        rw [Option.some.inj hc]
      rw [Nat.toNat_digitChar_sub_48_of_lt_ten hn] at hzero
      exact absurd hzero (Nat.ne_of_gt h)
    · next hn =>
      have hlt : n / 10 < n := Nat.div_lt_self h (by decide)
      rw [List.head?_append, Option.or_of_isSome (List.isSome_head?.mpr Nat.toDigits_ne_nil)]
      exact ih _ hlt (by omega)

theorem splitSign_of_isDigit {cs : List Char} (h : ∀ c ∈ cs, c.isDigit = true) :
    splitSign cs = (false, cs) := by
  unfold splitSign
  split
  · exact absurd (h _ List.mem_cons_self) (by decide)
  · exact absurd (h _ List.mem_cons_self) (by decide)
  · rfl

/-- The sign in front of a padded number, and what is behind it. -/
theorem splitSign_padded (width : Nat) (n : Int) :
    ∃ k, splitSign (padded width n).toList =
      (decide (n < 0), List.replicate k '0' ++ Nat.toDigits 10 n.natAbs) := by
  unfold padded
  by_cases h : n < 0
  · refine ⟨width - 1 - (Nat.toDigits 10 n.natAbs).length, ?_⟩
    simp only [h, ↓reduceIte, String.toList_ofList, decide_true]
    rfl
  · refine ⟨width - 0 - (Nat.toDigits 10 n.natAbs).length, ?_⟩
    simp only [h, ↓reduceIte, String.toList_ofList, decide_false]
    exact splitSign_of_isDigit fun _ => isDigit_of_mem_replicate_toDigits

/-- Numbers that are padded to the same width are told apart. -/
theorem padded_injective {width : Nat} {m n : Int} (h : padded width m = padded width n) :
    m = n := by
  obtain ⟨j, hm⟩ := splitSign_padded width m
  obtain ⟨k, hn⟩ := splitSign_padded width n
  rw [h, hn, Prod.mk.injEq] at hm
  obtain ⟨hsign, hdigits⟩ := hm
  have habs : m.natAbs = n.natAbs := by
    rw [← ofDigits_replicate_toDigits j m.natAbs, ← hdigits, ofDigits_replicate_toDigits]
  have hneg : n < 0 ↔ m < 0 := by simpa using hsign
  omega

end Numeral

end RobotPuzzle
