import RobotPuzzle.Proofs.Program.Depth
import RobotPuzzle.Proofs.Program.Editing
import RobotPuzzle.Proofs.Run.Reached

/-!
# What the indentation tells of loops

In a program that has been put together by edits, a block is shown as deep as there are loops around
it, unless conditions are ended that were not begun: every closer steps out, and so an `if_end` may
take back the indentation of a loop. How far it can is counted by the `if_end`s and `if_start`s
between the start of the outermost loop around the block and the block.

* `Nesting.le_behind`: the depth grows with each opener, and falls with no more than each closer.
* `Unrolled.length_openLoops_of_head`: the brackets behind the start of the outermost open loop.
* `Program.indented_history`: the depth of a block against the loops around it, and what is executed
  once.
* `crossed_brackets_hide_loop`: a block that is shown at the margin and executed twice.
-/

namespace RobotPuzzle

namespace Nesting

/-- Each opener steps in, and each closer steps out once at most. -/
theorem le_behind (depth : Nat) (blocks : List Block) :
    depth + (Command.tally .loopStart blocks + Command.tally .ifStart blocks) ≤
      behind depth blocks + (Command.tally .loopEnd blocks + Command.tally .ifEnd blocks) := by
  have hbehind := behind_eq_max depth (Nat.le_refl blocks.length)
  rw [List.take_length, rise, openers, closers] at hbehind
  omega

end Nesting

namespace Unrolled

open Pass

variable {blocks : List Block} {b : Block} {i j : Nat}

/-- From the outermost open loop on, the open loops are those of the blocks from there. -/
theorem openLoops_of_head {n : Nat} (hj : (openLoops blocks (j + n)).head? = some j) :
    openLoops blocks (j + n) = (openLoops (blocks.drop j) n).map (j + ·) := by
  rw [openLoops, List.head?_filter, List.find?_range_eq_some] at hj
  obtain ⟨-, -, hbefore⟩ := hj
  have hnone : (List.range j).filter (isOpenAt blocks (j + n)) = [] :=
    List.filter_eq_nil_iff.mpr fun k hk => by simpa using hbefore k (List.mem_range.mp hk)
  have hafter : isOpenAt blocks (j + n) ∘ (j + ·) = isOpenAt (blocks.drop j) n :=
    funext (isOpenAt_add blocks j n)
  rw [openLoops, List.range_add, List.filter_append, hnone, List.nil_append, List.filter_map,
    hafter]
  rfl

/-- No `loop_end` from the start of an open loop on closes a loop in front of it. -/
theorem strays_segment {n : Nat} (h : isOpenAt blocks (j + n) j = true) :
    strays (segment blocks j (j + n)) = 0 := by
  have hadd := isOpenAt_add blocks j n 0
  have hsegment := segment_add blocks j 0 n
  rw [Nat.add_zero] at hadd hsegment
  rw [h, eq_comm] at hadd
  rw [hsegment]
  cases hdrop : blocks.drop j with
  | nil => rfl
  | cons x rest =>
    rw [hdrop] at hadd
    obtain ⟨hx, hrest⟩ := (isOpenAt_zero x rest n).mp hadd
    rw [segment_zero, strays_loopStart hx, hrest]

/-- From the start of the outermost loop that is open at a block up to the block, as many more loops
are started than ended as are open at it. -/
theorem length_openLoops_of_head (hb : blocks[i]? = some b) (hs : b.command ≠ .loopStart)
    (hj : (openLoops blocks i).head? = some j) :
    (openLoops blocks i).length + Command.tally .loopEnd (segment blocks j i) =
      Command.tally .loopStart (segment blocks j i) := by
  have hmem : j ∈ openLoops blocks i := List.mem_of_head? hj
  obtain ⟨hlt, hopen⟩ := List.mem_filter.mp hmem
  obtain ⟨n, rfl⟩ := Nat.exists_eq_add_of_lt (List.mem_range.mp hlt)
  rw [Nat.add_assoc] at hb hj hopen ⊢
  have hdrop : (blocks.drop j)[n + 1]? = some b := by rw [List.getElem?_drop, hb]
  have hsegment : segment blocks j (j + (n + 1)) = (blocks.drop j).take (n + 1 + 1) := by
    rw [segment, show j + (n + 1) + 1 - j = n + 1 + 1 by omega]
  have hbrackets := length_opened_along (p := fresh) (strays_segment hopen).le
  rw [openLoops_of_head hj, List.length_map, length_openLoops hdrop hs, ← hsegment, hbrackets]
  exact Nat.zero_add _

/-- The blocks from the start of the outermost loop that is open at an index up to it; none where no
loop is open. -/
def sinceOutermost (blocks : List Block) (i : Nat) : List Block :=
  ((openLoops blocks i).head?.map fun j => segment blocks j i).getD []

/-- The depth of a block that is no marker makes up for the loops around it, but for the `if_end`s
that outnumber the `if_start`s inside of the outermost. -/
theorem length_openLoops_le (hb : blocks[i]? = some b) (hmarker : b.command.isMarker = false) :
    (openLoops blocks i).length + Command.tally .ifStart (sinceOutermost blocks i) ≤
      Nesting.behind 0 (blocks.take (i + 1)) + Command.tally .ifEnd (sinceOutermost blocks i) := by
  have hs : b.command ≠ .loopStart := (Command.isMarker_eq_false_iff.mp hmarker).1
  cases hj : (openLoops blocks i).head? with
  | none =>
    rw [List.head?_eq_none_iff] at hj
    simp [sinceOutermost, hj, Command.tally_nil]
  | some j =>
    have hloops := length_openLoops_of_head hb hs hj
    have hsince : sinceOutermost blocks i = segment blocks j i := by
      rw [sinceOutermost, hj]
      rfl
    have hlt : j < i := List.mem_range.mp (List.mem_filter.mp (List.mem_of_head? hj)).1
    have htake : blocks.take (i + 1) = blocks.take j ++ segment blocks j i := by
      rw [segment, ← List.take_add, show j + (i + 1 - j) = i + 1 by omega]
    have hdepth := Nesting.le_behind (Nesting.behind 0 (blocks.take j)) (segment blocks j i)
    rw [← Nesting.behind_append, ← htake] at hdepth
    rw [hsince]
    omega

end Unrolled

namespace Program

open Unrolled

/-- How a block that is no marker is shown, against how often it is executed. -/
structure Indented (blocks : List Block) (i : Nat) (b : Block) : Prop where
  /-- The stream repeats the block under the loops that are open at it. -/
  repeats : ∀ limit stream, unroll limit blocks = some stream →
    stream.filter (·.id == b.id) =
      List.replicate ((openLoops blocks i).map (repeatsAt blocks)).prod b
  /-- The depth makes up for these loops, but for the `if_end`s that outnumber the `if_start`s. -/
  depth : (openLoops blocks i).length + Command.tally .ifStart (sinceOutermost blocks i) ≤
    b.nest + Command.tally .ifEnd (sinceOutermost blocks i)
  /-- Where they do not, a block at the margin is executed once by every run that leaves out no
  instruction. -/
  once : Command.tally .ifEnd (sinceOutermost blocks i) ≤
      Command.tally .ifStart (sinceOutermost blocks i) →
    b.nest = 0 → ∀ (r r' : Run) (clock : Clock), (r.start blocks clock).value = .ok () →
      (r.start blocks clock).run.Onward r' → r'.isExhausted = true →
        r'.history.countP (·.blockId == b.id) = 1

/-- A run that has executed a whole program has executed each block as often as the stream has
it. -/
theorem countP_history {r r' : Run} {blocks : List Block} {clock : Clock}
    (hstart : (r.start blocks clock).value = .ok ()) (h : (r.start blocks clock).run.Onward r')
    (hall : r'.isExhausted = true) (id : Text) :
    ∃ stream, unroll r.cap blocks = some stream ∧
      r'.history.countP (·.blockId == id) = (stream.filter (·.id == id)).length := by
  obtain ⟨stream, hstream, heq⟩ := Run.start_eq hstart
  have hstarted := Run.started_start hstart
  obtain ⟨horder, hsame⟩ :=
    Run.inOrder_onward (Run.inOrder_of_fresh hstarted.history hstarted.cursor) h
  have hids : r'.history.map Step.blockId = stream.map Block.id := by
    rw [Run.map_blockId_of_isExhausted horder hall, hsame, heq]
  refine ⟨stream, hstream, ?_⟩
  calc r'.history.countP (·.blockId == id)
      = (r'.history.map Step.blockId).countP (· == id) := by rw [List.countP_map]; rfl
    _ = (stream.map Block.id).countP (· == id) := by rw [hids]
    _ = stream.countP (·.id == id) := by rw [List.countP_map]; rfl
    _ = (stream.filter (·.id == id)).length := List.countP_eq_length_filter

/-- **The indentation of an edited program against its loops.** After any edits of the empty program
that give no id twice, the depth of a block that is no marker is at least the number of the loops
that repeat it, less the number by which `if_end`s outnumber `if_start`s from the start of the
outermost of these loops on. -/
theorem indented_history (level : Level) (hlevel : 0 ≤ level.maxBlocks) (edits : List Edit)
    (hissued : ((empty level).issuedBy edits).Nodup) :
    let blocks := ((empty level).history edits).blocks
    ∀ i b, blocks[i]? = some b → b.command.isMarker = false → Indented blocks i b := by
  intro blocks i b hb hmarker
  obtain ⟨-, hlegal⟩ := @legal_history (empty level) edits (.nil hlevel) hissued
  have hnested : Nesting.nested blocks = blocks := nested_history rfl edits
  obtain ⟨hs, he, -⟩ := Command.isMarker_eq_false_iff.mp hmarker
  have hrepeats : ∀ limit stream, unroll limit blocks = some stream → _ := fun limit stream hfits =>
    filter_stream hlegal.distinct hfits hb hs he
  have hdepth := length_openLoops_le hb hmarker
  have hnest : b.nest = Nesting.behind 0 (blocks.take (i + 1)) := by
    have hshown := Nesting.nest_nested hb hmarker
    rw [hnested, hb, Option.some.injEq] at hshown
    exact congrArg Block.nest hshown
  rw [← hnest] at hdepth
  refine ⟨hrepeats, hdepth, fun hconditions hmargin r r' clock hstart honward hall => ?_⟩
  obtain ⟨stream, hfits, hcount⟩ := countP_history hstart honward hall b.id
  have hnone : openLoops blocks i = [] := List.length_eq_zero_iff.mp (by omega)
  rw [hcount, hrepeats _ _ hfits, hnone]
  rfl

end Program

/-! ## Samples -/

/-- The corridor, with conditions among its commands. -/
def forkedCorridor : Level :=
  { corridor with commands := [.moveForward, .loopStart, .ifStart] }

open Program in
/-- A loop around a condition around a move. -/
def nestedEdits : List Edit :=
  [.add .loopStart .unnamed 1, .add .ifStart .unnamed 2, .add .moveForward .unnamed 3,
    .add .ifEnd .unnamed 4, .add .loopEnd .unnamed 5]

open Program in
/-- A move in a loop, behind an `if_end` without an `if_start`. -/
def crossedEdits : List Edit :=
  [.add .loopStart .unnamed 1, .add .ifEnd .unnamed 2, .add .moveForward .unnamed 3,
    .add .loopEnd .unnamed 4]

open Program in
theorem indented_nestedEdits :
    let blocks := ((empty forkedCorridor).history nestedEdits).blocks
    let move : Block := ⟨.moveForward, Block.freshId 3, 2, none⟩
    (0 ≤ forkedCorridor.maxBlocks ∧ ((empty forkedCorridor).issuedBy nestedEdits).Nodup ∧
      blocks[2]? = some move ∧ move.command.isMarker = false) ∧
      Unrolled.openLoops blocks 2 = [0] ∧ Indented blocks 2 move := by
  intro blocks move
  have hissued : ((empty forkedCorridor).issuedBy nestedEdits).Nodup := by decide +kernel
  have hmove : blocks[2]? = some move := by decide +kernel
  exact ⟨⟨by decide, hissued, hmove, rfl⟩, by decide +kernel,
    indented_history forkedCorridor (by decide) nestedEdits hissued 2 move hmove rfl⟩

open Program in
/-- The indentation may hide a loop: the move is shown at the margin, as if no loop were around it,
and is in one that runs twice. -/
theorem crossed_brackets_hide_loop :
    let blocks := ((empty forkedCorridor).history crossedEdits).blocks
    let move : Block := ⟨.moveForward, Block.freshId 3, 0, none⟩
    let condition : Block := ⟨.ifEnd, Block.freshId 2, 0, none⟩
    ((empty forkedCorridor).issuedBy crossedEdits).Nodup ∧ blocks[2]? = some move ∧
      move.command.isMarker = false ∧ Unrolled.openLoops blocks 2 = [0] ∧
      ¬ (Unrolled.openLoops blocks 2).length ≤ move.nest ∧
      Unrolled.unroll 1000 blocks = some [condition, move, condition, move] := by
  decide +kernel

end RobotPuzzle
