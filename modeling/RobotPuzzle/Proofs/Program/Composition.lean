import RobotPuzzle.Proofs.Program.OpenLoops

/-!
# Programs put together

What two programs that are put one behind the other unroll to. Ends of loops at the end of a program
are as good as none: those that close a loop close it where the end of the program would, and the
others are dropped. Behind blocks that leave no loop open, a program unrolls as it does by itself.

* `Unrolled.HasStream`: the stream of some blocks, under any cap.
* `Pass.lasting_eq_nil_iff`: which blocks leave no loop open, by the places of their brackets.
* `LoopTree.streams_read_append_of_ends`, `LoopTree.streams_read_append`: the two laws for streams.
* `Unrolled.streams_compose`: the two laws with caps and faults.
-/

namespace RobotPuzzle

namespace Unrolled

/-- Blocks that leave no loop open: from any of them on, at least as many loops are ended as are
started. A `loop_end` may close nothing. -/
def Closed (blocks : List Block) : Prop :=
  ∀ back, back <:+ blocks → Command.tally .loopStart back ≤ Command.tally .loopEnd back

instance (blocks : List Block) : Decidable (Closed blocks) :=
  decidable_of_iff
    (∀ back ∈ blocks.tails, Command.tally .loopStart back ≤ Command.tally .loopEnd back)
    (forall_congr' fun back => imp_congr_left (List.mem_tails back blocks))

theorem closed_nil : Closed [] := fun back h => by
  rw [List.suffix_nil.mp h, Command.tally_nil]
  exact Nat.zero_le _

theorem closed_cons {b : Block} {rest : List Block} :
    Closed (b :: rest) ↔
      Command.tally .loopStart (b :: rest) ≤ Command.tally .loopEnd (b :: rest) ∧ Closed rest := by
  simp only [Closed, List.suffix_cons_iff, forall_eq_or_imp]

/-- Some blocks have a stream: with a cap that is no less than its length they unroll to it, and
with any other cap they are refused, and a run of them is not started. -/
structure HasStream (blocks stream : List Block) : Prop where
  unrolls (cap : Nat) : unroll cap blocks = if stream.length ≤ cap then some stream else none
  starts (r : Run) (clock : Clock) (cap : Nat) : r.cap = cap → (r.start blocks clock).value =
    if stream.length ≤ cap then .ok () else .error (.programTooLong cap)

end Unrolled

namespace Pass

open Unrolled

/-- Of the loops that some blocks start, those last that none of their `loop_end`s closes. -/
theorem length_lasting_add (blocks : List Block) :
    (lasting blocks).length + Command.tally .loopEnd blocks =
      strays blocks + Command.tally .loopStart blocks := by
  induction blocks with
  | nil => rfl
  | cons b rest ih =>
    simp only [Command.tally_cons]
    by_cases hs : b.command = .loopStart
    · rw [lasting_loopStart hs, strays_loopStart hs]
      simp only [hs, reduceCtorEq, ↓reduceIte]
      split
      · rw [List.length_cons]
        omega
      · omega
    · rw [lasting_of_ne hs]
      by_cases he : b.command = .loopEnd
      · rw [strays_loopEnd he]
        simp only [he, reduceCtorEq, ↓reduceIte]
        omega
      · rw [strays_leaf hs he]
        simpa only [hs, he, ↓reduceIte, Nat.add_zero] using ih

/-- A loop that is not left open behind the first block is not left open. -/
theorem lasting_rest {b : Block} {rest : List Block} (h : lasting (b :: rest) = []) :
    lasting rest = [] := by
  rw [lasting] at h
  split at h
  · cases h
  · exact h

/-- **Closed blocks are those that leave no loop open.** -/
theorem lasting_eq_nil_iff {blocks : List Block} : lasting blocks = [] ↔ Closed blocks := by
  induction blocks with
  | nil => exact iff_of_true rfl closed_nil
  | cons b rest ih =>
    have hlength := length_lasting_add (b :: rest)
    rw [closed_cons, ← ih]
    constructor
    · intro h
      rw [h, List.length_nil] at hlength
      exact ⟨by omega, lasting_rest h⟩
    · rintro ⟨htally, hrest⟩
      have hlength' := length_lasting_add rest
      rw [hrest, List.length_nil] at hlength'
      -- Only a `loop_start` behind which there are no strays would be left open.
      refine if_neg ?_ |>.trans hrest
      rintro ⟨hs, hstrays⟩
      simp only [Command.tally_cons, hs, reduceCtorEq, ↓reduceIte] at htally
      omega

/-- The pass over closed blocks has written their stream, and no loop is open behind them. -/
theorem along_fresh_of_closed {blocks : List Block} (h : Closed blocks) :
    fresh.along blocks = ⟨[], LoopTree.streams (LoopTree.read blocks)⟩ := by
  have hopened : (fresh.along blocks).opened = [] := by
    rw [← List.length_eq_zero_iff, ← length_lasting, lasting_eq_nil_iff.mpr h, List.length_nil]
  rw [← finish_along_fresh, finish, hopened, List.foldl_nil, ← hopened]

/-- Ends of loops write nothing. -/
theorem finish_along_of_ends {ends : List Block} (h : ∀ e ∈ ends, e.command = .loopEnd) (p : Pass) :
    (p.along ends).finish = p.finish := by
  induction ends generalizing p with
  | nil => rfl
  | cons e rest ih =>
    obtain ⟨he, hrest⟩ := List.forall_mem_cons.mp h
    rw [along_cons, ih hrest, finish_next_of_bracket (.inr he)]

end Pass

namespace LoopTree

open Unrolled Pass

/-- **Ends of loops at the end** leave the stream as it is. -/
theorem streams_read_append_of_ends {ends : List Block} (h : ∀ e ∈ ends, e.command = .loopEnd)
    (blocks : List Block) : streams (read (blocks ++ ends)) = streams (read blocks) := by
  rw [← finish_along_fresh, ← finish_along_fresh, along_append, finish_along_of_ends h]

/-- **Behind closed blocks** a program has the stream that it has by itself. -/
theorem streams_read_append {a : List Block} (h : Closed a) (b : List Block) :
    streams (read (a ++ b)) = streams (read a) ++ streams (read b) := by
  rw [← finish_along_fresh, along_append, along_fresh_of_closed h, ← streams_append,
    ← readFrom_nil]
  exact finish_along_pending [] (read a) b

end LoopTree

namespace Unrolled

open LoopTree

variable {blocks stream : List Block}

/-- Whether a run of some blocks is started only depends on their unrolling. -/
theorem hasStream_of_unrolls
    (h : ∀ cap : Nat, unroll cap blocks = if stream.length ≤ cap then some stream else none) :
    HasStream blocks stream where
  unrolls := h
  starts r clock cap hcap := by
    rw [Run.start, hcap, h]
    by_cases hfits : stream.length ≤ cap
    · rw [if_pos hfits, if_pos hfits]
    · rw [if_neg hfits, if_neg hfits]

/-- Blocks have the stream of their tree. -/
theorem hasStream_streams (blocks : List Block) : HasStream blocks (streams (read blocks)) :=
  hasStream_of_unrolls fun cap => by
    rw [← fitted_natCast]
    exact unrollFrom_eq_fitted (Int.natCast_nonneg cap) blocks

/-- Blocks have one stream. -/
theorem HasStream.eq_of_unroll (h : HasStream blocks stream) {cap : Nat} {found : List Block}
    (hfound : unroll cap blocks = some found) : found = stream := by
  rw [h.unrolls] at hfound
  split at hfound
  · exact (Option.some.inj hfound).symm
  · cases hfound

theorem hasStream_iff : HasStream blocks stream ↔ stream = streams (read blocks) := by
  constructor
  · intro h
    have hunrolls := h.unrolls stream.length
    rw [if_pos (Nat.le_refl _)] at hunrolls
    exact (hasStream_streams blocks).eq_of_unroll hunrolls
  · rintro rfl
    exact hasStream_streams blocks

/-- **Programs compose.** All blocks have a stream. Ends of loops that are put behind some blocks
leave them their stream, whether they close a loop or nothing. Behind blocks that leave no loop open,
any blocks have their own stream: together they unroll to both streams, one behind the other, where
these fit the cap, and are refused where they do not. -/
theorem streams_compose :
    (∀ blocks, ∃ stream, HasStream blocks stream) ∧
    (∀ blocks stream ends, (∀ e ∈ ends, e.command = .loopEnd) → HasStream blocks stream →
      HasStream (blocks ++ ends) stream) ∧
    ∀ a b s t, Closed a → HasStream a s → HasStream b t → HasStream (a ++ b) (s ++ t) := by
  refine ⟨fun blocks => ⟨_, hasStream_streams blocks⟩, ?_, ?_⟩
  · intro blocks stream ends hends hstream
    rw [hasStream_iff] at hstream ⊢
    rw [hstream, streams_read_append_of_ends hends]
  · intro a b s t hclosed hs ht
    rw [hasStream_iff] at hs ht ⊢
    rw [hs, ht, streams_read_append hclosed]

/-- A `loop_end` that closes nothing, and a loop around a loop around a move. -/
def closedLoops : List Block :=
  [⟨.loopEnd, "1", 0, none⟩, ⟨.loopStart, "2", 0, some (.clamp 2)⟩,
    ⟨.loopStart, "3", 1, some (.clamp 1)⟩, ⟨.moveForward, "4", 2, none⟩, ⟨.loopEnd, "5", 1, none⟩,
    ⟨.loopEnd, "6", 0, none⟩]

/-- Two loops around a turn that are not closed. -/
def openedLoops : List Block :=
  [⟨.loopStart, "7", 0, some (.clamp 1)⟩, ⟨.loopStart, "8", 1, some (.clamp 3)⟩,
    ⟨.turnLeft, "9", 2, none⟩]

/-- Two moves and three turns, which just fit the cap. Of three more ends of loops, two close a
loop. -/
theorem streams_compose_loops :
    let move : Block := ⟨.moveForward, "4", 2, none⟩
    let turn : Block := ⟨.turnLeft, "9", 2, none⟩
    let ends : List Block := [⟨.loopEnd, "a", 0, none⟩, ⟨.loopEnd, "b", 0, none⟩,
      ⟨.loopEnd, "c", 0, none⟩]
    Closed closedLoops ∧ (∀ e ∈ ends, e.command = .loopEnd) ∧
      unroll 5 (closedLoops ++ openedLoops ++ ends) = some [move, move, turn, turn, turn] ∧
      unroll 4 (closedLoops ++ openedLoops ++ ends) = none := by
  intro move turn ends
  obtain ⟨hexists, hends, happend⟩ := streams_compose
  have hclosed : Closed closedLoops := by decide +kernel
  have hloopEnds : ∀ e ∈ ends, e.command = .loopEnd := by decide
  obtain ⟨s, hs⟩ := hexists closedLoops
  obtain ⟨t, ht⟩ := hexists openedLoops
  obtain rfl : [move, move] = s :=
    hs.eq_of_unroll (show unroll (2 : Nat) closedLoops = _ by decide +kernel)
  obtain rfl : [turn, turn, turn] = t :=
    ht.eq_of_unroll (show unroll (3 : Nat) openedLoops = _ by decide +kernel)
  have htogether := hends _ _ ends hloopEnds (happend _ _ _ _ hclosed hs ht)
  exact ⟨hclosed, hloopEnds, htogether.unrolls 5, htogether.unrolls 4⟩

end Unrolled

end RobotPuzzle
