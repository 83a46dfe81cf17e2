import Mathlib.Data.List.Nodup
import Mathlib.Tactic.Ring
import RobotPuzzle.Proofs.Program.Unrolling
import RobotPuzzle.Program.Nesting

/-!
# Open loops

The loops around a block can be read off the places of the brackets alone: a `loop_start` is open at
a block if, from it on, loops have always been started more often than ended. The stream has a block
once for each combination of rounds of the loops that are open at it, and in a program without
conditions its depth is their number.

* `Pass.countP_finish_next`: what an instruction adds to the stream.
* `Pass.starts_along`: the loops that some blocks leave open.
* `Unrolled.map_repeats_lasting`: they are those that are open by the places of the brackets.
* `Nesting.behind_opened`: the depth without conditions is the number of open loops.
* `Unrolled.copies_of_unroll`: how often a block comes in the stream.
-/

namespace RobotPuzzle

namespace Command

/-- Whether a command belongs to a condition. -/
def isCondition : Command → Bool
  | .ifStart | .ifElse | .ifEnd => true
  | _ => false

/-- The markers are the brackets of loops and what belongs to conditions. -/
theorem isMarker_eq_false_iff {command : Command} : command.isMarker = false ↔
    command ≠ .loopStart ∧ command ≠ .loopEnd ∧ command.isCondition = false := by
  cases command <;> decide

end Command

namespace Pass

open LoopTree

variable {q : Block → Bool} {b : Block}

/-! ## How often an instruction is written -/

/-- How often what is written comes in the stream once the open loops are closed. -/
def rounds (p : Pass) : Nat := (p.opened.map fun o => o.start.repeats).prod

theorem countP_times (q : Block → Bool) (n : Nat) (blocks : List Block) :
    (Unrolled.times n blocks).countP q = n * blocks.countP q := by
  simp [Unrolled.times, List.countP_flatten]

/-- What has been written comes once in each round of the open loops, and what is in front of these
does not depend on it. -/
theorem countP_finish (q : Block → Bool) (opened : List Pending) (written : List Block) :
    (finish ⟨opened, written⟩).countP q =
      (finish ⟨opened, []⟩).countP q + rounds ⟨opened, written⟩ * written.countP q := by
  induction opened generalizing written with
  | nil => simp [finish, rounds]
  | cons o outer ih =>
    have hclose : ∀ body, finish ⟨o :: outer, body⟩ = finish ⟨outer, o.close body⟩ := fun _ => rfl
    rw [hclose, hclose, ih (o.close written), ih (o.close [])]
    simp only [Pending.close, List.countP_append, countP_times, rounds, List.map_cons,
      List.prod_cons, List.countP_nil]
    ring

/-- An instruction is added once for each round. -/
theorem countP_finish_next (q : Block → Bool) (hs : b.command ≠ .loopStart)
    (he : b.command ≠ .loopEnd) (p : Pass) :
    (p.next b).finish.countP q = p.finish.countP q + if q b then p.rounds else 0 := by
  obtain ⟨opened, written⟩ := p
  rw [next_leaf hs he, countP_finish, countP_finish q opened written, List.countP_append,
    List.countP_singleton]
  simp only [rounds]
  split <;> ring

/-- Blocks of which no instruction is counted add nothing. -/
theorem countP_finish_along {blocks : List Block}
    (h : ∀ b ∈ blocks, b.command ≠ .loopStart → b.command ≠ .loopEnd → q b = false) (p : Pass) :
    (p.along blocks).finish.countP q = p.finish.countP q := by
  induction blocks generalizing p with
  | nil => rfl
  | cons b rest ih =>
    rw [along_cons, ih fun x hx => h x (List.mem_cons_of_mem _ hx)]
    by_cases hbracket : b.command = .loopStart ∨ b.command = .loopEnd
    · rw [finish_next_of_bracket hbracket]
    · obtain ⟨hs, he⟩ := not_or.mp hbracket
      rw [countP_finish_next q hs he, h b List.mem_cons_self hs he]
      rfl

/-- An instruction that alone is counted comes once in each round of the loops that are open at
it. -/
theorem countP_streams {front rest : List Block} (hs : b.command ≠ .loopStart)
    (he : b.command ≠ .loopEnd) (hb : q b = true) (hfront : ∀ x ∈ front, q x = false)
    (hrest : ∀ x ∈ rest, q x = false) :
    (streams (read (front ++ b :: rest))).countP q = (fresh.along front).rounds := by
  rw [← finish_along_fresh, along_append, along_cons,
    countP_finish_along fun x hx _ _ => hrest x hx, countP_finish_next q hs he,
    countP_finish_along fun x hx _ _ => hfront x hx, if_pos hb]
  exact Nat.zero_add _

/-- A stream has no brackets of loops, and nothing that the program has not. -/
theorem mem_of_mem_streams {blocks : List Block} (h : b ∈ streams (read blocks)) :
    b ∈ blocks ∧ b.command ≠ .loopStart ∧ b.command ≠ .loopEnd := by
  by_contra hnot
  have hzero : (streams (read blocks)).countP (· = b) = 0 := by
    rw [← finish_along_fresh]
    refine countP_finish_along (fun x hx hs he => decide_eq_false fun hxb => ?_) fresh
    exact hnot (hxb ▸ ⟨hx, hs, he⟩)
  exact List.countP_eq_zero.mp hzero b h (decide_eq_true rfl)

/-! ## The loops that blocks leave open -/

/-- The starts of the loops that blocks start and do not end. -/
def lasting : List Block → List Block
  | [] => []
  | b :: rest =>
    if b.command = .loopStart ∧ strays rest = 0 then b :: lasting rest else lasting rest

theorem lasting_loopStart (h : b.command = .loopStart) (rest : List Block) :
    lasting (b :: rest) = if strays rest = 0 then b :: lasting rest else lasting rest := by
  simp [lasting, h]

theorem lasting_of_ne (h : b.command ≠ .loopStart) (rest : List Block) :
    lasting (b :: rest) = lasting rest := by
  simp [lasting, h]

/-- Behind some blocks those loops are open that they leave open, and those of the loops around them
that none of their `loop_end`s has closed. -/
theorem starts_along (p : Pass) (blocks : List Block) :
    (p.along blocks).opened.map Pending.start =
      (lasting blocks).reverse ++ (p.opened.map Pending.start).drop (strays blocks) := by
  induction blocks generalizing p with
  | nil => rfl
  | cons b rest ih =>
    obtain ⟨opened, written⟩ := p
    rw [along_cons, ih]
    by_cases hs : b.command = .loopStart
    · rw [next_loopStart hs, lasting_loopStart hs, strays_loopStart hs, List.map_cons]
      cases strays rest with
      | zero => simp
      | succ n => simp
    · rw [lasting_of_ne hs]
      by_cases he : b.command = .loopEnd
      · rw [strays_loopEnd he]
        cases opened with
        | nil => simp [next_stray he]
        | cons o outer => simp [next_loopEnd he]
      · rw [strays_leaf hs he, next_leaf hs he]

theorem starts_along_fresh (blocks : List Block) :
    (fresh.along blocks).opened.map Pending.start = (lasting blocks).reverse := by
  simpa [fresh] using starts_along fresh blocks

theorem length_lasting (blocks : List Block) :
    (lasting blocks).length = (fresh.along blocks).opened.length := by
  simpa using (congrArg List.length (starts_along_fresh blocks)).symm

theorem rounds_along_fresh (blocks : List Block) :
    (fresh.along blocks).rounds = ((lasting blocks).map Block.repeats).prod := by
  have hmap := congrArg (List.map Block.repeats) (starts_along_fresh blocks)
  rw [List.map_map] at hmap
  rw [rounds, show (fun o : Pending => o.start.repeats) = Block.repeats ∘ Pending.start from rfl,
    hmap, List.map_reverse, List.prod_reverse]

end Pass

namespace Unrolled

open Pass

/-! ## The places of the brackets -/

/-- The blocks from an index to another one. -/
def segment (blocks : List Block) (j k : Nat) : List Block := (blocks.drop j).take (k + 1 - j)

/-- Whether a loop that starts at `j` is open at `i`: wherever one stops between them, more loops
have been started than ended. -/
def isOpenAt (blocks : List Block) (i j : Nat) : Bool :=
  ∀ k ≤ i, j ≤ k →
    Command.tally .loopEnd (segment blocks j k) < Command.tally .loopStart (segment blocks j k)

/-- The loops that are open at an index, by the indices of their starts. -/
def openLoops (blocks : List Block) (i : Nat) : List Nat :=
  (List.range i).filter (isOpenAt blocks i)

/-- How often the loop runs that starts at an index. -/
def repeatsAt (blocks : List Block) (j : Nat) : Nat := (blocks[j]?.map Block.repeats).getD 1

variable {blocks : List Block} {b : Block}

theorem segment_add (blocks : List Block) (n j k : Nat) :
    segment blocks (n + j) (n + k) = segment (blocks.drop n) j k := by
  rw [segment, segment, List.drop_drop, show n + k + 1 - (n + j) = k + 1 - j by omega]

theorem segment_zero (b : Block) (rest : List Block) (k : Nat) :
    segment (b :: rest) 0 k = b :: rest.take k := by
  simp [segment]

/-- Whether a loop is open does not depend on what stands in front of it. -/
theorem isOpenAt_add (blocks : List Block) (n i j : Nat) :
    isOpenAt blocks (n + i) (n + j) = isOpenAt (blocks.drop n) i j := by
  simp only [isOpenAt, ← segment_add, decide_eq_decide]
  constructor
  · intro h k hk hj
    exact h (n + k) (by omega) (by omega)
  · intro h k hk hj
    have := h (k - n) (by omega) (by omega)
    rwa [show n + (k - n) = k by omega] at this

theorem isOpenAt_succ (b : Block) (rest : List Block) (i j : Nat) :
    isOpenAt (b :: rest) (i + 1) (j + 1) = isOpenAt rest i j := by
  rw [Nat.add_comm i 1, Nat.add_comm j 1, isOpenAt_add]
  rfl

/-- The first block starts a loop that is open if no `loop_end` behind it closes it. -/
theorem isOpenAt_zero (b : Block) (rest : List Block) (i : Nat) :
    isOpenAt (b :: rest) i 0 = true ↔ b.command = .loopStart ∧ strays (rest.take i) = 0 := by
  simp only [isOpenAt, decide_eq_true_eq, Nat.zero_le, forall_const, segment_zero,
    Command.tally_cons]
  rw [← Nat.le_zero, strays_le_iff]
  constructor
  · intro h
    have hs : b.command = .loopStart := by
      have := h 0 (Nat.zero_le i)
      by_contra hs
      simp [hs, Command.tally_nil] at this
    refine ⟨hs, fun front hfront => ?_⟩
    have hlength : front.length ≤ i := hfront.length_le.trans (List.length_take_le _ _)
    have hfront' : rest.take front.length = front :=
      (List.prefix_iff_eq_take.mp (hfront.trans (List.take_prefix _ _))).symm
    have := h front.length hlength
    rw [hfront'] at this
    simp only [hs, reduceCtorEq, ↓reduceIte] at this
    omega
  · rintro ⟨hs, h⟩ k hk
    have := h (rest.take k) (List.take_prefix_take_left hk)
    simp only [hs, reduceCtorEq, ↓reduceIte]
    omega

/-- A block that is no `loop_start` starts no loop. -/
theorem isOpenAt_self {i : Nat} (h : blocks[i]? = some b) (hs : b.command ≠ .loopStart) :
    isOpenAt blocks i i = false := by
  obtain ⟨hi, rfl⟩ := List.getElem?_eq_some_iff.mp h
  have hadd := isOpenAt_add blocks i 0 0
  rw [Nat.add_zero, List.drop_eq_getElem_cons hi] at hadd
  rw [hadd, Bool.eq_false_iff]
  exact fun hopen => hs ((isOpenAt_zero _ _ _).mp hopen).1

/-- **The loops that blocks leave open are those that are open by the places of the brackets.** -/
theorem map_repeats_lasting (blocks : List Block) (i : Nat) :
    (lasting (blocks.take (i + 1))).map Block.repeats =
      ((List.range (i + 1)).filter (isOpenAt blocks i)).map (repeatsAt blocks) := by
  induction blocks generalizing i with
  | nil =>
    have hnone : (List.range (i + 1)).filter (isOpenAt [] i) = [] := by
      refine List.filter_eq_nil_iff.mpr fun j hj hopen => ?_
      have := of_decide_eq_true hopen j (Nat.le_of_lt_succ (List.mem_range.mp hj)) (Nat.le_refl j)
      simp [segment, Command.tally_nil] at this
    rw [hnone]
    rfl
  | cons b rest ih =>
    have hrest : (lasting (rest.take i)).map Block.repeats =
        (((List.range i).map Nat.succ).filter (isOpenAt (b :: rest) i)).map
          (repeatsAt (b :: rest)) := by
      cases i with
      | zero => rfl
      | succ i =>
        have hsucc : isOpenAt (b :: rest) (i + 1) ∘ Nat.succ = isOpenAt rest i :=
          funext (isOpenAt_succ b rest i)
        rw [ih, List.filter_map, List.map_map, hsucc]
        rfl
    rw [List.take_succ_cons, List.range_succ_eq_map, List.filter_cons]
    by_cases hopen : isOpenAt (b :: rest) i 0
    · obtain ⟨hs, hstrays⟩ := (isOpenAt_zero b rest i).mp hopen
      rw [lasting_loopStart hs, if_pos hstrays, if_pos hopen, List.map_cons, List.map_cons, hrest]
      rfl
    · have hlasting : lasting (b :: rest.take i) = lasting (rest.take i) :=
        if_neg (mt (isOpenAt_zero b rest i).mpr hopen)
      rw [hlasting, if_neg hopen, hrest]

/-- At a block that starts no loop, the open loops are those of the pass up to it. -/
theorem map_repeats_openLoops {i : Nat} (h : blocks[i]? = some b) (hs : b.command ≠ .loopStart) :
    (openLoops blocks i).map (repeatsAt blocks) =
      (lasting (blocks.take (i + 1))).map Block.repeats := by
  rw [map_repeats_lasting, List.range_succ, List.filter_append, openLoops]
  simp [isOpenAt_self h hs]

theorem length_openLoops {i : Nat} (h : blocks[i]? = some b) (hs : b.command ≠ .loopStart) :
    (openLoops blocks i).length = (fresh.along (blocks.take (i + 1))).opened.length := by
  have := congrArg List.length (map_repeats_openLoops h hs)
  rwa [List.length_map, List.length_map, length_lasting] at this

end Unrolled

/-! ## Depths -/

namespace Nesting

open Pass

/-- The depth behind some blocks. -/
def behind (depth : Nat) (blocks : List Block) : Nat :=
  blocks.foldl (fun depth b => (step depth b.command).2) depth

theorem behind_append (depth : Nat) (a b : List Block) :
    behind depth (a ++ b) = behind (behind depth a) b :=
  List.foldl_append

/-- Each block is shown at the depth behind those in front of it, or one step further out. -/
theorem getElem?_nestFrom (depth : Nat) (blocks : List Block) (i : Nat) :
    (nestFrom depth blocks)[i]? =
      blocks[i]?.map fun b =>
        { b with nest := (step (behind depth (blocks.take i)) b.command).1 } := by
  induction blocks generalizing depth i with
  | nil => rfl
  | cons b rest ih =>
    cases i with
    | zero => rfl
    | succ i => exact ih (step depth b.command).2 i

/-- A block that is no marker stands at the depth of what is behind it. -/
theorem step_of_not_isMarker {command : Command} (h : command.isMarker = false) (depth : Nat) :
    step depth command = (depth, depth) := by
  cases command <;> first | rfl | cases h

/-- Such a block is shown at the depth behind it. -/
theorem nest_nested {blocks : List Block} {b : Block} {i : Nat} (h : blocks[i]? = some b)
    (hmarker : b.command.isMarker = false) :
    (nested blocks)[i]? = some { b with nest := behind 0 (blocks.take (i + 1)) } := by
  have hplain := step_of_not_isMarker hmarker (behind 0 (blocks.take i))
  have hbehind : behind 0 (blocks.take (i + 1)) = behind 0 (blocks.take i) := by
    rw [List.take_add_one, h, behind_append]
    exact congrArg Prod.snd hplain
  rw [nested, getElem?_nestFrom, h, Option.map_some, hplain, hbehind]

/-- Without conditions the depth is the number of open loops. -/
theorem behind_opened {blocks : List Block} (h : ∀ b ∈ blocks, b.command.isCondition = false)
    (p : Pass) : behind p.opened.length blocks = (p.along blocks).opened.length := by
  induction blocks generalizing p with
  | nil => rfl
  | cons b rest ih =>
    have hcondition := h b List.mem_cons_self
    have hnext : (step p.opened.length b.command).2 = (p.next b).opened.length := by
      obtain ⟨opened, written⟩ := p
      by_cases hs : b.command = .loopStart
      · rw [next_loopStart hs, hs]
        rfl
      · by_cases he : b.command = .loopEnd
        · cases opened with
          | nil => rw [next_stray he, he]; rfl
          | cons o outer => rw [next_loopEnd he, he]; rfl
        · have hmarker := Command.isMarker_eq_false_iff.mpr ⟨hs, he, hcondition⟩
          rw [next_leaf hs he, step_of_not_isMarker hmarker]
    rw [along_cons, ← ih (fun x hx => h x (List.mem_cons_of_mem _ hx)) (p.next b), ← hnext]
    rfl

end Nesting

namespace Unrolled

open Pass

/-- What is not refused is the stream of the tree, whatever the cap. -/
theorem eq_streams_of_unrollFrom {limit : Int} {used : Nat} {blocks stream : List Block}
    (h : unrollFrom limit used blocks = some stream) :
    stream = LoopTree.streams (LoopTree.read blocks) := by
  fun_induction unrollFrom limit used blocks generalizing stream with
  | case1 used => exact (Option.some.inj h).symm
  | case2 | case3 | case6 => cases h
  | case4 used b rest hs parts body hbody loop hl ih =>
    rename_i ih'
    obtain ⟨more, hmore, rfl⟩ := Option.map_eq_some_iff.mp h
    rw [LoopTree.streams_read_loopStart hs, ← ih hbody, ← ih' hmore]
  | case5 used b rest hs he ih => rw [ih h, LoopTree.streams_read_loopEnd he]
  | case7 used b rest hs he hl ih =>
    obtain ⟨more, hmore, rfl⟩ := Option.map_eq_some_iff.mp h
    rw [LoopTree.streams_read_leaf hs he, ← ih hmore]

/-- Of distinct ids, an instruction comes in the stream once for each round of the loops that are
open at it. -/
theorem filter_stream {limit : Int} {blocks stream : List Block} {b : Block} {i : Nat}
    (hdistinct : (blocks.map Block.id).Nodup) (hfits : unroll limit blocks = some stream)
    (hb : blocks[i]? = some b) (hs : b.command ≠ .loopStart) (he : b.command ≠ .loopEnd) :
    stream.filter (·.id == b.id) =
      List.replicate ((openLoops blocks i).map (repeatsAt blocks)).prod b := by
  have hstream := eq_streams_of_unrollFrom hfits
  have hsame : ∀ x ∈ blocks, x.id = b.id → x = b := fun x hx hid =>
    List.inj_on_of_nodup_map hdistinct hx (List.mem_of_getElem? hb) hid
  obtain ⟨hi, hget⟩ := List.getElem?_eq_some_iff.mp hb
  have hsplit : blocks = blocks.take i ++ b :: blocks.drop (i + 1) := by
    rw [← hget, ← List.drop_eq_getElem_cons hi, List.take_append_drop]
  -- The other blocks have other ids.
  have hothers : ∀ x ∈ blocks.take i ++ blocks.drop (i + 1), (x.id == b.id) = false := by
    rw [hsplit, List.map_append, List.map_cons] at hdistinct
    have hnot := (List.nodup_middle.mp hdistinct).notMem
    rw [← List.map_append] at hnot
    intro x hx
    exact beq_eq_false_iff_ne.mpr fun hid => hnot (List.mem_map.mpr ⟨x, hx, hid⟩)
  have hcount : stream.countP (·.id == b.id) = (fresh.along (blocks.take i)).rounds := by
    rw [hstream]
    conv_lhs => rw [hsplit]
    exact countP_streams hs he (beq_self_eq_true b.id)
      (fun x hx => hothers x (List.mem_append_left _ hx))
      fun x hx => hothers x (List.mem_append_right _ hx)
  have hrounds :
      (fresh.along (blocks.take i)).rounds = (fresh.along (blocks.take (i + 1))).rounds := by
    rw [List.take_add_one, hb, along_append, Option.toList_some, along_cons, along_nil,
      next_leaf hs he]
    rfl
  refine List.eq_replicate_iff.mpr ⟨?_, fun x hx => ?_⟩
  · rw [← List.countP_eq_length_filter, hcount, hrounds, rounds_along_fresh,
      map_repeats_openLoops hb hs]
  · obtain ⟨hx, hid⟩ := List.mem_filter.mp hx
    rw [hstream] at hx
    exact hsame x (mem_of_mem_streams hx).1 (eq_of_beq hid)

/-- **How often a block comes in the stream.** If a program of distinct ids fits the cap, its stream
has no brackets of loops, and has each other block as often as the counts of the loops that are open
at it multiply to. Without conditions the block's depth is the number of these loops. -/
theorem copies_of_unroll {limit : Int} {blocks stream : List Block}
    (hdistinct : (blocks.map Block.id).Nodup) (hfits : unroll limit blocks = some stream) :
    (∀ b ∈ stream, b.command ≠ .loopStart ∧ b.command ≠ .loopEnd) ∧
      ∀ i b, blocks[i]? = some b → b.command ≠ .loopStart → b.command ≠ .loopEnd →
        stream.filter (·.id == b.id) =
            List.replicate ((openLoops blocks i).map (repeatsAt blocks)).prod b ∧
          ((∀ x ∈ blocks, x.command.isCondition = false) →
            (Nesting.nested blocks)[i]? = some { b with nest := (openLoops blocks i).length }) := by
  refine ⟨fun b hb => ?_, fun i b hb hs he => ⟨filter_stream hdistinct hfits hb hs he,
    fun hplain => ?_⟩⟩
  · rw [eq_streams_of_unrollFrom hfits] at hb
    exact (mem_of_mem_streams hb).2
  · have hmarker : b.command.isMarker = false :=
      Command.isMarker_eq_false_iff.mpr ⟨hs, he, hplain b (List.mem_of_getElem? hb)⟩
    have htake : ∀ x ∈ blocks.take (i + 1), x.command.isCondition = false := fun x hx =>
      hplain x (List.mem_of_mem_take hx)
    rw [Nesting.nest_nested hb hmarker, length_openLoops hb hs, ← Nesting.behind_opened htake fresh]
    rfl

/-- Behind a `loop_end` that closes nothing, a loop that is never closed has a move, a loop of three
turns, and a rest. -/
def tangle : List Block :=
  [⟨.loopEnd, "1", 0, none⟩, ⟨.loopStart, "2", 0, some (.clamp 2)⟩, ⟨.moveForward, "3", 0, none⟩,
    ⟨.loopStart, "4", 0, some (.clamp 3)⟩, ⟨.turnLeft, "5", 0, none⟩, ⟨.loopEnd, "6", 0, none⟩,
    ⟨.wait, "7", 0, none⟩]

/-- The turn comes six times in a stream that just fits the cap, and is shown at depth two. -/
theorem copies_tangle :
    let turn : Block := ⟨.turnLeft, "5", 0, none⟩
    (tangle.map Block.id).Nodup ∧ ∃ stream, unroll 10 tangle = some stream ∧
      openLoops tangle 4 = [1, 3] ∧ stream.filter (·.id == turn.id) = List.replicate 6 turn ∧
      (Nesting.nested tangle)[4]? = some { turn with nest := 2 } := by
  intro turn
  have hdistinct : (tangle.map Block.id).Nodup := by decide +kernel
  have hsome : (unroll 10 tangle).isSome := by decide +kernel
  have hopen : openLoops tangle 4 = [1, 3] := by decide +kernel
  have hrounds : ([1, 3].map (repeatsAt tangle)).prod = 6 := by decide +kernel
  obtain ⟨stream, hfits⟩ := Option.isSome_iff_exists.mp hsome
  obtain ⟨hcopies, hnest⟩ :=
    (copies_of_unroll hdistinct hfits).2 4 turn rfl (by decide) (by decide)
  rw [hopen] at hcopies hnest
  rw [hrounds] at hcopies
  exact ⟨hdistinct, stream, hfits, hopen, hcopies, hnest (by decide +kernel)⟩

end Unrolled

end RobotPuzzle
