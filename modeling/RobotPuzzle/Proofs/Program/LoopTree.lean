import RobotPuzzle.Run.Basic

/-!
# Programs as trees of loops

The structured reading of a program. Loops nest by their brackets: a `loop_start` opens a loop, the
next `loop_end` closes the innermost open one, and the end of the program closes those that are
still open. A `loop_end` where no loop is open is dropped. The stream of a tree is said by recursion
on it, without a cap.

* `readFrom_append`: how the innermost readings relate to the scan that looks for the end of a loop
  (`Unrolled.splitLoop`).
* `unroll_eq_streams_read`: the capped unrolling is exactly the stream of the tree, or a refusal when
  the stream is longer than the cap.
-/

namespace RobotPuzzle

/-- A block that is executed, or a loop around the trees of its body. -/
inductive LoopTree where
  | leaf (block : Block)
  | loop (start : Block) (body : List LoopTree)

/-- A loop that is open while a program is read: the trees in front of it, and its `loop_start`. -/
structure OpenLoop where
  before : List LoopTree
  start : Block

namespace OpenLoop

/-- The loop with the trees of its body, behind the trees in front of it. -/
def close (o : OpenLoop) (body : List LoopTree) : List LoopTree :=
  o.before ++ [.loop o.start body]

end OpenLoop

namespace LoopTree

mutual

/-- The stream of a tree: the body of a loop comes as often as the loop runs. -/
def stream : LoopTree → List Block
  | .leaf block => [block]
  | .loop start body => (List.replicate start.repeats (streams body)).flatten

/-- The streams of trees, one behind the other. -/
def streams : List LoopTree → List Block
  | [] => []
  | tree :: rest => stream tree ++ streams rest

end

/-- Reads blocks where `opened` are the open loops, the innermost first, and `trees` have been read
in the innermost one. -/
def readFrom (opened : List OpenLoop) (trees : List LoopTree) : List Block → List LoopTree
  | [] => opened.foldl (fun body o => o.close body) trees
  | b :: rest =>
    if b.command = .loopStart then readFrom (⟨trees, b⟩ :: opened) [] rest
    else if b.command = .loopEnd then
      match opened with
      | [] => readFrom [] trees rest
      | o :: outer => readFrom outer (o.close trees) rest
    else readFrom opened (trees ++ [.leaf b]) rest

/-- The trees of a program. -/
def read (blocks : List Block) : List LoopTree := readFrom [] [] blocks

/-! ## Streams -/

theorem streams_append (a b : List LoopTree) : streams (a ++ b) = streams a ++ streams b := by
  induction a with
  | nil => rfl
  | cons tree rest ih => simp [streams, ih]

theorem streams_close (o : OpenLoop) (body : List LoopTree) :
    streams (o.close body) =
      streams o.before ++ Unrolled.times o.start.repeats (streams body) := by
  simp [OpenLoop.close, streams_append, streams, stream, Unrolled.times]

/-! ## Reading and scanning -/

/-- The outermost open loop ends where the scan for its end says: its body is what the scan puts
inside, read below the loops that are open in it, and reading goes on behind it. -/
theorem readFrom_append (inner : List OpenLoop) (o : OpenLoop) (trees : List LoopTree)
    (blocks : List Block) :
    readFrom (inner ++ [o]) trees blocks =
      readFrom [] (o.close (readFrom inner trees (Unrolled.splitLoop inner.length blocks).1))
        (Unrolled.splitLoop inner.length blocks).2 := by
  induction blocks generalizing inner trees with
  | nil => simp [readFrom, Unrolled.splitLoop]
  | cons b rest ih =>
    by_cases hs : b.command = .loopStart
    · have h := ih (⟨trees, b⟩ :: inner) []
      simp only [List.cons_append, List.length_cons] at h
      simp [readFrom, Unrolled.splitLoop, hs, h]
    · by_cases he : b.command = .loopEnd
      · cases inner with
        | nil => simp [readFrom, Unrolled.splitLoop, he]
        | cons o' outer =>
          have h := ih outer (o'.close trees)
          simp [readFrom, Unrolled.splitLoop, he, h]
      · simp [readFrom, Unrolled.splitLoop, hs, he, ih]

theorem readFrom_singleton (o : OpenLoop) (blocks : List Block) :
    readFrom [o] [] blocks =
      readFrom [] (o.close (read (Unrolled.splitLoop 0 blocks).1))
        (Unrolled.splitLoop 0 blocks).2 :=
  readFrom_append [] o [] blocks

/-- What has been read outside of all loops stays in front. -/
theorem readFrom_nil (trees : List LoopTree) (blocks : List Block) :
    readFrom [] trees blocks = trees ++ read blocks := by
  induction h : blocks.length using Nat.strongRecOn generalizing trees blocks with
  | _ n ih =>
    cases blocks with
    | nil => simp [read, readFrom]
    | cons b rest =>
      have hrest : rest.length < n := by rw [← h]; exact Nat.lt_succ_self _
      by_cases hs : b.command = .loopStart
      · have hafter : (Unrolled.splitLoop 0 rest).2.length < n := by
          have := Unrolled.length_splitLoop 0 rest
          omega
        simp only [read, readFrom, hs, ↓reduceIte, readFrom_singleton]
        rw [ih _ hafter _ _ rfl, ih _ hafter (OpenLoop.close _ _) _ rfl]
        simp [OpenLoop.close]
      · by_cases he : b.command = .loopEnd
        · simp only [read, readFrom, he, reduceCtorEq, ↓reduceIte]
          exact ih _ hrest trees rest rfl
        · simp only [read, readFrom, hs, he, ↓reduceIte]
          rw [ih _ hrest _ rest rfl, ih _ hrest ([] ++ _) rest rfl]
          simp

/-- A loop is read as its body, by the scan for its end, and what follows. -/
theorem streams_read_loopStart {b : Block} (h : b.command = .loopStart) (rest : List Block) :
    streams (read (b :: rest)) =
      Unrolled.times b.repeats (streams (read (Unrolled.splitLoop 0 rest).1)) ++
        streams (read (Unrolled.splitLoop 0 rest).2) := by
  have hr : read (b :: rest) = readFrom [⟨[], b⟩] [] rest := by simp [read, readFrom, h]
  rw [hr, readFrom_singleton, readFrom_nil, streams_append, streams_close]
  simp [streams]

theorem streams_read_loopEnd {b : Block} (h : b.command = .loopEnd) (rest : List Block) :
    streams (read (b :: rest)) = streams (read rest) := by
  simp [read, readFrom, h]

theorem streams_read_leaf {b : Block} (hs : b.command ≠ .loopStart) (he : b.command ≠ .loopEnd)
    (rest : List Block) : streams (read (b :: rest)) = b :: streams (read rest) := by
  have hr : read (b :: rest) = readFrom [] [.leaf b] rest := by simp [read, readFrom, hs, he]
  rw [hr, readFrom_nil, streams_append]
  simp [streams, stream]

/-! ## Unrolling -/

/-- A stream behind `used` instructions, unless together they are more than `limit`. -/
def fitted (limit : Int) (used : Nat) (stream : List Block) : Option (List Block) :=
  if ((used + stream.length : Nat) : Int) ≤ limit then some stream else none

theorem fitted_natCast (limit : Nat) (stream : List Block) :
    fitted limit 0 stream = if stream.length ≤ limit then some stream else none := by
  simp [fitted]

theorem fitted_eq_none {limit : Int} {used : Nat} {stream : List Block} :
    fitted limit used stream = none ↔ limit < ((used + stream.length : Nat) : Int) := by
  simp [fitted]

theorem eq_of_fitted {limit : Int} {used : Nat} {stream found : List Block}
    (h : fitted limit used stream = some found) : found = stream := by
  unfold fitted at h
  split at h
  · exact (Option.some.inj h).symm
  · cases h

/-- What comes first is tested first. -/
theorem fitted_append (limit : Int) (used : Nat) (first rest : List Block) :
    fitted limit used (first ++ rest) =
      if limit < used + first.length then none
      else (fitted limit (used + first.length) rest).map (first ++ ·) := by
  unfold fitted
  rw [List.length_append, ← Nat.add_assoc]
  by_cases h : limit < used + first.length
  · rw [if_pos h, if_neg (by omega)]
  · rw [if_neg h]
    split <;> rfl

theorem fitted_cons (limit : Int) (used : Nat) (b : Block) (rest : List Block) :
    fitted limit used (b :: rest) =
      if limit < used + 1 then none else (fitted limit (used + 1) rest).map (b :: ·) :=
  fitted_append limit used [b] rest

/-- A loop runs at least once, so its body is no longer than it. -/
theorem length_le_length_times (b : Block) (body : List Block) :
    body.length ≤ (Unrolled.times b.repeats body).length := by
  rw [Unrolled.length_times]
  exact Nat.le_mul_of_pos_left _ b.one_le_repeats

/-- Unrolling behind `used` instructions is refused exactly when the whole does not fit. -/
theorem unrollFrom_eq_fitted {limit : Int} {used : Nat} (h : (used : Int) ≤ limit)
    (blocks : List Block) :
    Unrolled.unrollFrom limit used blocks = fitted limit used (streams (read blocks)) := by
  fun_induction Unrolled.unrollFrom limit used blocks with
  | case1 used => simp [read, readFrom, streams, fitted, h]
  | case2 used b rest hs parts hbody ih =>
    -- The body alone is too long, and the loop is no shorter.
    have hlong : fitted limit 0 (streams (read (Unrolled.splitLoop 0 rest).1)) = none :=
      (ih (by omega)).symm.trans hbody
    have hl := length_le_length_times b (streams (read (Unrolled.splitLoop 0 rest).1))
    rw [fitted_eq_none] at hlong
    rw [streams_read_loopStart hs, fitted_append, if_pos (by omega)]
  | case3 used b rest hs parts body hbody loop hl ih =>
    obtain rfl : body = streams (read parts.1) := eq_of_fitted (by rw [← ih (by omega), hbody])
    rw [streams_read_loopStart hs, fitted_append, if_pos hl]
  | case4 used b rest hs parts body hbody loop hl ih ih' =>
    obtain rfl : body = streams (read parts.1) := eq_of_fitted (by rw [← ih (by omega), hbody])
    rw [ih' (by omega), streams_read_loopStart hs, fitted_append, if_neg hl]
  | case5 used b rest hs he ih => rw [ih h, streams_read_loopEnd he]
  | case6 used b rest hs he hl => rw [streams_read_leaf hs he, fitted_cons, if_pos hl]
  | case7 used b rest hs he hl ih =>
    rw [ih (by omega), streams_read_leaf hs he, fitted_cons, if_neg hl]

/-- **Unrolling computes the stream of the tree, and its cap is exact.** For any program and any cap
that is not negative, the unrolling is the stream of the program's tree when that has at most
`limit` instructions, and is refused when it has more. A run with that cap starts with that stream
in the first case, and in the second is left without one by the fault that names the cap. -/
theorem unroll_eq_streams_read (limit : Nat) (blocks : List Block) :
    Unrolled.unroll limit blocks =
        (if (streams (read blocks)).length ≤ limit then some (streams (read blocks)) else none) ∧
      ∀ (r : Run) (clock : Clock),
        let turn := Run.start { r with limit := some (limit : Int) } blocks clock
        (turn.value, turn.run.stream) =
          if (streams (read blocks)).length ≤ limit then (.ok (), streams (read blocks))
          else (.error (.programTooLong limit), []) := by
  have hu : Unrolled.unroll limit blocks =
      if (streams (read blocks)).length ≤ limit then some (streams (read blocks)) else none := by
    rw [← fitted_natCast]
    exact unrollFrom_eq_fitted (Int.natCast_nonneg limit) blocks
  refine ⟨hu, fun r clock => ?_⟩
  have hcap : Run.cap { r with limit := some (limit : Int) } = limit := rfl
  simp only [Run.start, hcap, hu]
  by_cases h : (streams (read blocks)).length ≤ limit
  · simp only [if_pos h]
  · simp only [if_neg h]
    rfl

end LoopTree

end RobotPuzzle
