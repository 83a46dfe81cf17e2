import RobotPuzzle.Program.Block

/-!
# Unrolled programs

The stream of instructions that a program stands for: the blocks inside a loop come as often as the
loop runs. A `loop_start` reaches to the `loop_end` that closes it, or to the end of the program if
none does; a `loop_end` that closes nothing is dropped.

A stream is capped. Since every loop runs at least once, a loop's body is never longer than the
whole, and the cap may be tested inside it already.

* `length_splitLoop`: a loop's body and the rest are together no longer than what was split.
-/

namespace RobotPuzzle

namespace Unrolled

/-- Splits the blocks behind a `loop_start` into the loop's body and what follows its `loop_end`.
`depth` counts the loops that have been opened inside the body. -/
def splitLoop (depth : Nat) : List Block → List Block × List Block
  | [] => ([], [])
  | b :: rest =>
    if b.command = .loopEnd then
      match depth with
      | 0 => ([], rest)
      | depth + 1 => let (body, after) := splitLoop depth rest; (b :: body, after)
    else
      let (body, after) := splitLoop (if b.command = .loopStart then depth + 1 else depth) rest
      (b :: body, after)

theorem length_splitLoop (depth : Nat) (blocks : List Block) :
    (splitLoop depth blocks).1.length + (splitLoop depth blocks).2.length ≤ blocks.length := by
  induction blocks generalizing depth with
  | nil => simp [splitLoop]
  | cons b rest ih =>
    unfold splitLoop
    split
    · cases depth with
      | zero => simp
      | succ depth => have := ih depth; simp only [List.length_cons]; omega
    · have := ih (if b.command = .loopStart then depth + 1 else depth)
      simp only [List.length_cons]; omega

/-- A list, `n` times over. -/
def times {α : Type} (n : Nat) (xs : List α) : List α := (List.replicate n xs).flatten

/-- The stream of some blocks, in front of which `used` instructions stand already; none if together
they are more than `limit`. -/
def unrollFrom (limit : Int) (used : Nat) : List Block → Option (List Block)
  | [] => some []
  | b :: rest =>
    if b.command = .loopStart then
      let parts := splitLoop 0 rest
      match unrollFrom limit 0 parts.1 with
      | none => none
      | some body =>
        let loop := times b.repeats body
        if limit < used + loop.length then none
        else (unrollFrom limit (used + loop.length) parts.2).map (loop ++ ·)
    else if b.command = .loopEnd then unrollFrom limit used rest
    else if limit < used + 1 then none
    else (unrollFrom limit (used + 1) rest).map (b :: ·)
termination_by blocks => blocks.length
decreasing_by
  all_goals
    have := length_splitLoop 0 rest
    simp only [List.length_cons]
    omega

/-- The stream of a program; none if it is longer than `limit`. -/
def unroll (limit : Int) (blocks : List Block) : Option (List Block) :=
  unrollFrom limit 0 blocks

/-- The cap where none is given. -/
def standardLimit : Int := 1000

theorem length_times {α : Type} (n : Nat) (xs : List α) : (times n xs).length = n * xs.length := by
  simp [times]

theorem unrollFrom_nil (limit : Int) (used : Nat) : unrollFrom limit used [] = some [] := by
  rw [unrollFrom]

/-- What is refused has a block. -/
theorem ne_nil_of_unroll {limit : Int} {blocks : List Block} (h : unroll limit blocks = none) :
    blocks ≠ [] := by
  rintro rfl
  rw [unroll, unrollFrom_nil] at h
  cases h

end Unrolled

end RobotPuzzle
