/-!
# Line breaks

A text file may end its lines with a line feed, a carriage return or both. Read as text, every line
break is a line feed.

* `not_mem_lineFed`: no carriage return is left.
* `lineFed_of_not_mem`: a text without carriage returns is read as it is.
-/

namespace RobotPuzzle

namespace Text

/-- Characters with every line break made a line feed. -/
def lineFed : List Char → List Char
  | [] => []
  | '\r' :: '\n' :: rest => '\n' :: lineFed rest
  | c :: rest => (if c = '\r' then '\n' else c) :: lineFed rest

theorem not_mem_lineFed (cs : List Char) : '\r' ∉ lineFed cs := by
  fun_induction lineFed cs with
  | case1 => simp
  | case2 rest ih => simpa using ih
  | case3 c rest _ ih =>
    intro h
    rcases List.mem_cons.mp h with h | h
    · split at h
      · simp at h
      · next hc => exact hc h.symm
    · exact ih h

theorem lineFed_of_not_mem {cs : List Char} (h : '\r' ∉ cs) : lineFed cs = cs := by
  fun_induction lineFed cs with
  | case1 => rfl
  | case2 rest ih => simp at h
  | case3 c rest _ ih =>
    have hc : c ≠ '\r' := fun e => h (by simp [e])
    rw [if_neg hc, ih fun hm => h (List.mem_cons_of_mem _ hm)]

end Text

end RobotPuzzle
