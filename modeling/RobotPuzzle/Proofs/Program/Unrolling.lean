import Mathlib.Data.List.Infix
import RobotPuzzle.Proofs.Program.LoopTree

/-!
# Unrolling in one pass

A program can be unrolled in one pass that keeps the open loops on a stack. If all of them are
closed after some blocks, the stream of these blocks has been written. So a bracket as such writes
nothing, and a body whose brackets are balanced is written at one place, whatever is open around it:
a loop may be replaced by the copies of its body.

* `Pass.finish_along_fresh`: the pass writes the stream of the program's tree.
* `Pass.finish_next_of_bracket`: a bracket writes nothing.
* `Pass.along_onto`: blocks that close only what they open leave the loops around them alone.
* `Unrolled.unroll_by_hand`: a loop is as good as the copies of its body, in any program.
-/

namespace RobotPuzzle

namespace Command

/-- How many of some blocks have a command. -/
def tally (command : Command) (blocks : List Block) : Nat :=
  blocks.countP (·.command = command)

theorem tally_nil (command : Command) : command.tally [] = 0 := rfl

theorem tally_cons (command : Command) (b : Block) (rest : List Block) :
    command.tally (b :: rest) = command.tally rest + if b.command = command then 1 else 0 := by
  simp [tally, List.countP_cons]

end Command

/-- A loop that is open in a pass: what was written in front of it, and its `loop_start`. -/
structure Pending where
  before : List Block
  start : Block

namespace Pending

/-- What has been written when the loop is closed: the copies of its body, behind what was there. -/
def close (o : Pending) (body : List Block) : List Block :=
  o.before ++ Unrolled.times o.start.repeats body

theorem close_nil (o : Pending) : o.close [] = o.before := by
  simp [close, Unrolled.times]

end Pending

/-- An open loop of a reading as a pass has it, with streams in the place of trees. -/
def OpenLoop.pending (o : OpenLoop) : Pending := ⟨LoopTree.streams o.before, o.start⟩

/-- A moment of a pass: the loops that are open, the innermost first, and what has been written
inside the innermost. -/
structure Pass where
  opened : List Pending
  written : List Block

namespace Pass

/-- The pass before the first block. -/
def fresh : Pass := ⟨[], []⟩

/-- The pass after one more block. A `loop_end` where no loop is open is dropped. -/
def next (p : Pass) (b : Block) : Pass :=
  if b.command = .loopStart then ⟨⟨p.written, b⟩ :: p.opened, []⟩
  else if b.command = .loopEnd then
    match p.opened with
    | [] => p
    | o :: outer => ⟨outer, o.close p.written⟩
  else { p with written := p.written ++ [b] }

/-- The pass after more blocks. -/
def along (p : Pass) (blocks : List Block) : Pass := blocks.foldl next p

/-- What has been written when all loops are closed. -/
def finish (p : Pass) : List Block := p.opened.foldl (fun body o => o.close body) p.written

variable {p : Pass} {b : Block}

theorem along_nil (p : Pass) : p.along [] = p := rfl

theorem along_cons (p : Pass) (b : Block) (rest : List Block) :
    p.along (b :: rest) = (p.next b).along rest := rfl

theorem along_append (p : Pass) (a b : List Block) : p.along (a ++ b) = (p.along a).along b :=
  List.foldl_append

theorem next_loopStart (h : b.command = .loopStart) (p : Pass) :
    p.next b = ⟨⟨p.written, b⟩ :: p.opened, []⟩ := by
  simp [next, h]

theorem next_loopEnd (h : b.command = .loopEnd) (o : Pending) (outer : List Pending)
    (written : List Block) : next ⟨o :: outer, written⟩ b = ⟨outer, o.close written⟩ := by
  simp [next, h]

theorem next_stray (h : b.command = .loopEnd) (written : List Block) :
    next ⟨[], written⟩ b = ⟨[], written⟩ := by
  simp [next, h]

theorem next_leaf (hs : b.command ≠ .loopStart) (he : b.command ≠ .loopEnd) (p : Pass) :
    p.next b = { p with written := p.written ++ [b] } := by
  simp [next, hs, he]

/-- A bracket writes nothing. -/
theorem finish_next_of_bracket (h : b.command = .loopStart ∨ b.command = .loopEnd) (p : Pass) :
    (p.next b).finish = p.finish := by
  obtain ⟨opened, written⟩ := p
  rcases h with h | h
  · simp [next_loopStart h, finish, Pending.close_nil]
  · cases opened with
    | nil => rw [next_stray h]
    | cons o outer => simp [next_loopEnd h, finish]

/-! ## The stream of the tree -/

open LoopTree

theorem foldl_close (opened : List OpenLoop) (trees : List LoopTree) :
    streams (opened.foldl (fun body o => o.close body) trees) =
      finish ⟨opened.map OpenLoop.pending, streams trees⟩ := by
  induction opened generalizing trees with
  | nil => rfl
  | cons o outer ih =>
    rw [List.foldl_cons, ih, streams_close]
    rfl

/-- Where a reading has the trees, a pass has their streams. -/
theorem finish_along_pending (opened : List OpenLoop) (trees : List LoopTree)
    (blocks : List Block) :
    (along ⟨opened.map OpenLoop.pending, streams trees⟩ blocks).finish =
      streams (readFrom opened trees blocks) := by
  induction blocks generalizing opened trees with
  | nil => exact (foldl_close opened trees).symm
  | cons b rest ih =>
    rw [along_cons]
    by_cases hs : b.command = .loopStart
    · simp only [readFrom, hs, ↓reduceIte, next_loopStart hs, ← ih]
      rfl
    · by_cases he : b.command = .loopEnd
      · cases opened with
        | nil =>
          simp only [readFrom, he, reduceCtorEq, ↓reduceIte, next_stray he, List.map_nil, ← ih]
        | cons o outer =>
          simp only [readFrom, he, reduceCtorEq, ↓reduceIte, List.map_cons, next_loopEnd he, ← ih,
            streams_close]
          rfl
      · simp only [readFrom, hs, he, ↓reduceIte, next_leaf hs he, ← ih, streams_append]
        rfl

/-- **A pass over a program writes the stream of its tree.** -/
theorem finish_along_fresh (blocks : List Block) :
    (fresh.along blocks).finish = streams (read blocks) :=
  finish_along_pending [] [] blocks

/-! ## What is open around some blocks -/

/-- A pass that has begun at another one: what is open and written there stands around and in front
of what is open and written here. -/
def onto (p : Pass) : List Pending → List Block → Pass
  | [], written => ⟨p.opened, p.written ++ written⟩
  | o :: outer, written =>
    let front := p.onto outer o.before
    ⟨⟨front.written, o.start⟩ :: front.opened, written⟩

theorem onto_append (p : Pass) (opened : List Pending) (a b : List Block) :
    p.onto opened (a ++ b) =
      { p.onto opened a with written := (p.onto opened a).written ++ b } := by
  cases opened <;> simp [onto]

/-- How many `loop_end`s close no loop that is started in front of them. -/
def strays : List Block → Nat
  | [] => 0
  | b :: rest =>
    if b.command = .loopStart then strays rest - 1
    else if b.command = .loopEnd then strays rest + 1
    else strays rest

theorem strays_loopStart (h : b.command = .loopStart) (rest : List Block) :
    strays (b :: rest) = strays rest - 1 := by
  simp [strays, h]

theorem strays_loopEnd (h : b.command = .loopEnd) (rest : List Block) :
    strays (b :: rest) = strays rest + 1 := by
  simp [strays, h]

theorem strays_leaf (hs : b.command ≠ .loopStart) (he : b.command ≠ .loopEnd)
    (rest : List Block) : strays (b :: rest) = strays rest := by
  simp [strays, hs, he]

/-- There are at most `n` strays if nowhere more than `n` more loops have been closed than
started. -/
theorem strays_le_iff {blocks : List Block} {n : Nat} :
    strays blocks ≤ n ↔ ∀ front, front <+: blocks →
      Command.tally .loopEnd front ≤ Command.tally .loopStart front + n := by
  induction blocks generalizing n with
  | nil => simp [strays, Command.tally_nil]
  | cons b rest ih =>
    have hcons : (∀ front, front <+: b :: rest →
          Command.tally .loopEnd front ≤ Command.tally .loopStart front + n) ↔
        ∀ front, front <+: rest →
          Command.tally .loopEnd (b :: front) ≤ Command.tally .loopStart (b :: front) + n := by
      constructor
      · intro h front hfront
        exact h _ (List.cons_prefix_cons.mpr ⟨rfl, hfront⟩)
      · intro h front hfront
        rcases List.prefix_cons_iff.mp hfront with rfl | ⟨more, rfl, hmore⟩
        · exact Nat.zero_le _
        · exact h more hmore
    rw [hcons]
    by_cases hs : b.command = .loopStart
    · rw [strays_loopStart hs, Nat.sub_le_iff_le_add, ih]
      simp only [Command.tally_cons, hs, reduceCtorEq, ↓reduceIte]
      exact forall₂_congr fun front _ => by omega
    · by_cases he : b.command = .loopEnd
      · rw [strays_loopEnd he]
        simp only [Command.tally_cons, he, reduceCtorEq, ↓reduceIte]
        cases n with
        | zero =>
          refine ⟨fun h => absurd h (Nat.not_succ_le_zero _), fun h => ?_⟩
          have := h [] List.nil_prefix
          simp only [Command.tally_nil] at this
          omega
        | succ n =>
          rw [Nat.add_le_add_iff_right, ih]
          exact forall₂_congr fun front _ => by omega
      · rw [strays_leaf hs he, ih]
        simp only [Command.tally_cons, hs, he, ↓reduceIte, Nat.add_zero]

/-- The loops that are left open are those that were open and those that were started, less those
that were closed. -/
theorem length_opened_along {blocks : List Block} (h : strays blocks ≤ p.opened.length) :
    (p.along blocks).opened.length + Command.tally .loopEnd blocks =
      p.opened.length + Command.tally .loopStart blocks := by
  induction blocks generalizing p with
  | nil => rfl
  | cons b rest ih =>
    obtain ⟨opened, written⟩ := p
    simp only [along_cons, Command.tally_cons]
    by_cases hs : b.command = .loopStart
    · rw [strays_loopStart hs] at h
      rw [next_loopStart hs]
      have := ih (p := ⟨⟨written, b⟩ :: opened, []⟩) (by simp only [List.length_cons] at h ⊢; omega)
      simp only [hs, List.length_cons, reduceCtorEq, ↓reduceIte] at this ⊢
      omega
    · by_cases he : b.command = .loopEnd
      · rw [strays_loopEnd he] at h
        cases opened with
        | nil => exact absurd h (Nat.not_succ_le_zero _)
        | cons o outer =>
          rw [next_loopEnd he]
          have := ih (p := ⟨outer, o.close written⟩) (Nat.le_of_succ_le_succ h)
          simp only [he, List.length_cons, reduceCtorEq, ↓reduceIte] at this ⊢
          omega
      · rw [strays_leaf hs he] at h
        rw [next_leaf hs he]
        have := ih (p := ⟨opened, written ++ [b]⟩) h
        simpa only [hs, he, ↓reduceIte, Nat.add_zero] using this

/-- Blocks that close no loop around them are passed as they would be by themselves. -/
theorem along_onto (p : Pass) {opened : List Pending} {blocks : List Block}
    (h : strays blocks ≤ opened.length) (written : List Block) :
    (p.onto opened written).along blocks =
      let q := along ⟨opened, written⟩ blocks
      p.onto q.opened q.written := by
  induction blocks generalizing opened written with
  | nil => rfl
  | cons b rest ih =>
    simp only [along_cons]
    by_cases hs : b.command = .loopStart
    · rw [strays_loopStart hs] at h
      rw [next_loopStart hs, next_loopStart hs]
      exact @ih (⟨written, b⟩ :: opened) (by rw [List.length_cons]; omega) []
    · by_cases he : b.command = .loopEnd
      · rw [strays_loopEnd he] at h
        cases opened with
        | nil => exact absurd h (Nat.not_succ_le_zero _)
        | cons o outer =>
          rw [onto, next_loopEnd he, next_loopEnd he, ← ih (Nat.le_of_succ_le_succ h)]
          simp only [Pending.close, onto_append]
      · rw [strays_leaf hs he] at h
        rw [next_leaf hs he, next_leaf hs he, ← ih h, onto_append]

/-- Blocks whose loops are all closed, and closed in them, and that close no others. -/
structure Balanced (blocks : List Block) : Prop where
  opens : ∀ front, front <+: blocks →
    Command.tally .loopEnd front ≤ Command.tally .loopStart front
  closes : Command.tally .loopStart blocks = Command.tally .loopEnd blocks

instance (blocks : List Block) : Decidable (Balanced blocks) :=
  decidable_of_iff
    ((∀ front ∈ blocks.inits, Command.tally .loopEnd front ≤ Command.tally .loopStart front) ∧
      Command.tally .loopStart blocks = Command.tally .loopEnd blocks)
    ⟨fun ⟨h, h'⟩ => ⟨fun front hfront => h front ((List.mem_inits _ _).mpr hfront), h'⟩,
      fun ⟨h, h'⟩ => ⟨fun front hfront => h front ((List.mem_inits _ _).mp hfront), h'⟩⟩

/-- **Balanced blocks write their own stream**, wherever they stand. -/
theorem along_of_balanced {body : List Block} (h : Balanced body) (p : Pass) :
    p.along body = { p with written := p.written ++ streams (read body) } := by
  have hstrays : strays body ≤ 0 := strays_le_iff.mpr h.opens
  have hopened : (fresh.along body).opened = [] := by
    have := length_opened_along (p := fresh) hstrays
    have hfresh : fresh.opened.length = 0 := rfl
    have := h.closes
    exact List.length_eq_zero_iff.mp (by omega)
  have hwritten : (fresh.along body).written = streams (read body) := by
    rw [← finish_along_fresh, finish, hopened]
    rfl
  have hp : p.onto [] [] = p := by simp [onto]
  have halong := @along_onto p [] body hstrays []
  rw [hp] at halong
  rw [halong]
  change p.onto (fresh.along body).opened (fresh.along body).written = _
  rw [hopened, hwritten, onto]

/-- Copies of balanced blocks write the copies of their stream. -/
theorem along_times {body : List Block} (h : Balanced body) (n : Nat) (p : Pass) :
    p.along (Unrolled.times n body) =
      { p with written := p.written ++ Unrolled.times n (streams (read body)) } := by
  induction n generalizing p with
  | zero => simp [Unrolled.times, along_nil]
  | succ n ih =>
    have hsucc : ∀ xs : List Block, Unrolled.times (n + 1) xs = xs ++ Unrolled.times n xs :=
      fun xs => by simp [Unrolled.times, List.replicate_succ]
    rw [hsucc, hsucc, along_append, along_of_balanced h, ih, List.append_assoc]

/-- A loop around balanced blocks writes what their copies write. -/
theorem along_loop {start stop : Block} {body : List Block} (hstart : start.command = .loopStart)
    (hstop : stop.command = .loopEnd) (hbody : Balanced body) (p : Pass) :
    p.along ([start] ++ body ++ [stop]) = p.along (Unrolled.times start.repeats body) := by
  have hopen : p.along [start] = ⟨⟨p.written, start⟩ :: p.opened, []⟩ := next_loopStart hstart p
  rw [along_append, along_append, hopen, along_of_balanced hbody, along_times hbody]
  exact next_loopEnd hstop _ _ _

end Pass

namespace Unrolled

/-- **A loop may be unrolled by hand.** Wherever a loop around a balanced body stands, in front of
any blocks and behind any, also inside loops that are never closed, the program has the same stream
as with the copies of the body in the loop's stead, and is refused with the same caps. -/
theorem unroll_by_hand {start stop : Block} {body : List Block}
    (hstart : start.command = .loopStart) (hstop : stop.command = .loopEnd)
    (hbody : Pass.Balanced body) (limit : Nat) (front rest : List Block) :
    unroll limit (front ++ [start] ++ body ++ [stop] ++ rest) =
      unroll limit (front ++ times start.repeats body ++ rest) := by
  have hstreams : LoopTree.streams (LoopTree.read (front ++ [start] ++ body ++ [stop] ++ rest)) =
      LoopTree.streams (LoopTree.read (front ++ times start.repeats body ++ rest)) := by
    have happend : front ++ [start] ++ body ++ [stop] ++ rest =
        front ++ ([start] ++ body ++ [stop]) ++ rest := by simp
    rw [happend, ← Pass.finish_along_fresh, ← Pass.finish_along_fresh]
    simp only [Pass.along_append _ (front ++ _), Pass.along_append _ front,
      Pass.along_loop hstart hstop hbody]
  have hlimit : ((0 : Nat) : Int) ≤ limit := Int.natCast_nonneg limit
  rw [unroll, unroll, LoopTree.unrollFrom_eq_fitted hlimit, LoopTree.unrollFrom_eq_fitted hlimit,
    hstreams]

/-- Three moves, as a loop around a loop that runs once, behind a `loop_end` that closes nothing and
inside a loop that is never closed. Written out, the three moves come in each of its rounds. -/
theorem unroll_by_hand_tangled :
    let front : List Block := [⟨.loopEnd, "1", 0, none⟩, ⟨.loopStart, "2", 0, none⟩]
    let start : Block := ⟨.loopStart, "3", 1, some (.clamp 3)⟩
    let move : Block := ⟨.moveForward, "5", 3, none⟩
    let body : List Block := [⟨.loopStart, "4", 2, some (.clamp 1)⟩, move, ⟨.loopEnd, "6", 2, none⟩]
    let stop : Block := ⟨.loopEnd, "7", 1, none⟩
    let turn : Block := ⟨.turnLeft, "8", 1, none⟩
    (start.command = .loopStart ∧ stop.command = .loopEnd ∧ Pass.Balanced body) ∧
      unroll 8 (front ++ [start] ++ body ++ [stop] ++ [turn]) =
        unroll 8 (front ++ times start.repeats body ++ [turn]) ∧
      unroll 8 (front ++ [start] ++ body ++ [stop] ++ [turn]) =
        some [move, move, move, turn, move, move, move, turn] := by
  intro front start move body stop turn
  have hbody : Pass.Balanced body := by decide +kernel
  exact ⟨⟨rfl, rfl, hbody⟩, unroll_by_hand rfl rfl hbody 8 front [turn], by decide +kernel⟩

end Unrolled

end RobotPuzzle
