import Mathlib.Algebra.Order.Group.Finset
import RobotPuzzle.Proofs.Program.OpenLoops

/-!
# Depths in closed form

The depth is counted block by block and never falls below zero, so a closer that ends nothing is
forgotten, and the depth is not by how many the openers in front of a block outnumber the closers.
It is the greatest of these numbers over all stretches of blocks that end in front of the block. All
that the depths depend on can be seen from there.

* `Nesting.rise`: by how many openers outnumber closers, and `Nesting.depthAt`, its greatest value.
* `Nesting.depthAt_add_one`: one more block changes the greatest rise as it changes the depth.
* `Nesting.behind_eq_max`: the depth behind some blocks, from any depth on.
* `Nesting.behind_of_balanced`: balanced blocks lead back to the depth in front of them.
* `Nesting.charted`: the depths of all blocks, and what leaves them alone.
-/

namespace RobotPuzzle

namespace Nesting

/-- How many blocks open a loop or a condition. -/
def openers (blocks : List Block) : Nat :=
  Command.tally .loopStart blocks + Command.tally .ifStart blocks

/-- How many blocks close one. -/
def closers (blocks : List Block) : Nat :=
  Command.tally .loopEnd blocks + Command.tally .ifEnd blocks

/-- By how many the openers outnumber the closers. -/
def rise (blocks : List Block) : Int := openers blocks - closers blocks

/-- The greatest rise from any index up to a given one. From this one itself it is zero. -/
def depthAt (blocks : List Block) (i : Nat) : Int :=
  (Finset.range (i + 1)).sup' Finset.nonempty_range_add_one fun j => rise (blocks.extract j i)

/-- Blocks that close just as many brackets as they open, and nowhere have closed more. -/
structure Balanced (blocks : List Block) : Prop where
  opens : ∀ front, front <+: blocks → closers front ≤ openers front
  closes : openers blocks = closers blocks

instance (blocks : List Block) : Decidable (Balanced blocks) :=
  decidable_of_iff
    ((∀ front ∈ blocks.inits, closers front ≤ openers front) ∧ openers blocks = closers blocks)
    ⟨fun ⟨h, h'⟩ => ⟨fun front hfront => h front ((List.mem_inits _ _).mpr hfront), h'⟩,
      fun ⟨h, h'⟩ => ⟨fun front hfront => h front ((List.mem_inits _ _).mp hfront), h'⟩⟩

/-- What the nesting of some blocks makes of each of them. -/
structure Charted (blocks : List Block) : Prop where
  length : (nested blocks).length = blocks.length
  /-- A block keeps its place and all that is on it. It is shown at the greatest rise up to it, or
  one step further out, but not below zero, if it is a closer or an `if_else`. -/
  shown : ∀ i b, blocks[i]? = some b → ∃ depth : Nat,
    (nested blocks)[i]? = some { b with nest := depth } ∧
      (depth : Int) = if b.command ∈ [.loopEnd, .ifEnd, .ifElse] then max 0 (depthAt blocks i - 1)
        else depthAt blocks i
  /-- Its depth depends on the commands up to it alone. -/
  commands : ∀ other i,
    (other.take (i + 1)).map Block.command = (blocks.take (i + 1)).map Block.command →
      (nested other)[i]?.map Block.nest = (nested blocks)[i]?.map Block.nest
  /-- Where balanced blocks are put in, or taken out again, the other blocks stay as they are. -/
  stretches : ∀ front inner back, blocks = front ++ back → Balanced inner → ∃ a s c,
    a.length = front.length ∧ s.length = inner.length ∧ nested blocks = a ++ c ∧
      nested (front ++ inner ++ back) = a ++ s ++ c

variable {blocks : List Block} {b : Block} {i j : Nat}

/-! ## Rises -/

theorem rise_nil : rise [] = 0 := rfl

theorem rise_append (a b : List Block) : rise (a ++ b) = rise a + rise b := by
  simp only [rise, openers, closers, Command.tally, List.countP_append]
  omega

/-- A block moves the depth as it moves the rise, but not below zero. -/
theorem step_snd (depth : Nat) (b : Block) :
    ((step depth b.command).2 : Int) = max 0 (depth + rise [b]) := by
  simp only [rise, openers, closers, Command.tally_cons, Command.tally_nil]
  cases b.command <;>
    simp only [step, Command.isCloser, Command.isOpener, reduceCtorEq, ↓reduceIte,
      Bool.false_eq_true] <;> omega

/-- Closers and `if_else` are shown one step further out than what is met there else. -/
theorem step_fst (depth : Nat) (command : Command) :
    ((step depth command).1 : Int) =
      if command ∈ [.loopEnd, .ifEnd, .ifElse] then max 0 ((depth : Int) - 1) else depth := by
  cases command <;>
    simp only [step, Command.isCloser, List.mem_cons, List.not_mem_nil, reduceCtorEq, or_false,
      or_true, ↓reduceIte, Bool.false_eq_true] <;> omega

/-! ## The greatest rise -/

theorem le_depthAt (h : j ≤ i) : rise (blocks.extract j i) ≤ depthAt blocks i :=
  Finset.le_sup' (fun j => rise (blocks.extract j i)) (Finset.mem_range_succ_iff.mpr h)

theorem depthAt_zero (blocks : List Block) : depthAt blocks 0 = 0 := rfl

/-- One more block is added to all stretches but the empty one. -/
theorem extract_add_one (hb : blocks[i]? = some b) (h : j ≤ i) :
    blocks.extract j (i + 1) = blocks.extract j i ++ [b] := by
  rw [List.extract, List.extract, show i + 1 - j = i - j + 1 by omega, List.take_add_one,
    List.getElem?_drop, show j + (i - j) = i by omega, hb, Option.toList_some]

/-- **One more block** changes the greatest rise as it changes the depth. -/
theorem depthAt_add_one (hb : blocks[i]? = some b) :
    depthAt blocks (i + 1) = max 0 (depthAt blocks i + rise [b]) := by
  -- Only the empty stretch behind the block is new, and the others go on over it.
  have hlast : rise (blocks.extract (i + 1) (i + 1)) = 0 := by
    rw [List.extract, Nat.sub_self, List.take_zero, rise_nil]
  have hothers : ∀ j ∈ Finset.range (i + 1),
      rise (blocks.extract j (i + 1)) = rise (blocks.extract j i) + rise [b] := fun j hj => by
    rw [extract_add_one hb (Finset.mem_range_succ_iff.mp hj), rise_append]
  calc depthAt blocks (i + 1)
      = (insert (i + 1) (Finset.range (i + 1))).sup' (Finset.insert_nonempty _ _)
          fun j => rise (blocks.extract j (i + 1)) :=
        Finset.sup'_congr _ Finset.range_add_one fun _ _ => rfl
    _ = max 0 ((Finset.range (i + 1)).sup' Finset.nonempty_range_add_one
          fun j => rise (blocks.extract j (i + 1))) := by rw [Finset.sup'_insert, hlast]
    _ = max 0 (depthAt blocks i + rise [b]) := by
        rw [Finset.sup'_congr _ rfl hothers, depthAt, Finset.sup'_add]

/-! ## The depth behind blocks -/

/-- **The depth behind blocks** is the greatest rise up to there, where the depth in front of them
counts with the rise of all of them. -/
theorem behind_eq_max (depth : Nat) (h : i ≤ blocks.length) :
    (behind depth (blocks.take i) : Int) =
      max (depth + rise (blocks.take i)) (depthAt blocks i) := by
  -- Where a block leads to the margin, the empty stretch behind it takes over from both terms.
  induction i with
  | zero =>
    have hnil : behind depth (blocks.take 0) = depth := rfl
    rw [hnil, depthAt_zero, List.take_zero, rise_nil]
    omega
  | succ i ih =>
    have hb : blocks[i]? = some blocks[i] := List.getElem?_eq_getElem h
    have hlast : ∀ d, behind d [blocks[i]] = (step d blocks[i].command).2 := fun _ => rfl
    rw [List.take_add_one, hb, Option.toList_some, behind_append, hlast, step_snd,
      ih (Nat.le_of_succ_le h), rise_append, depthAt_add_one hb]
    omega

/-- From the margin, all of the blocks are but one of the stretches. -/
theorem behind_eq_depthAt (h : i ≤ blocks.length) :
    (behind 0 (blocks.take i) : Int) = depthAt blocks i := by
  have hall : rise (blocks.extract 0 i) ≤ depthAt blocks i := le_depthAt (Nat.zero_le i)
  have htake : blocks.extract 0 i = blocks.take i := rfl
  rw [htake] at hall
  rw [behind_eq_max 0 h]
  omega

/-- **Balanced blocks** lead back to the depth in front of them. -/
theorem behind_of_balanced (h : Balanced blocks) (depth : Nat) : behind depth blocks = depth := by
  have hrise : rise blocks = 0 := by
    have := h.closes
    rw [rise]
    omega
  have hdepth : depthAt blocks blocks.length ≤ 0 := Finset.sup'_le _ _ fun j _ => by
    -- What a stretch up to the end rises by, the blocks in front of it would have to fall by.
    have hsplit := rise_append (blocks.take j) (blocks.drop j)
    have hfront := h.opens _ (List.take_prefix j blocks)
    rw [List.take_append_drop, hrise] at hsplit
    rw [List.extract, List.take_of_length_le (List.length_drop).le]
    rw [rise] at hsplit
    omega
  have hbehind := behind_eq_max depth (Nat.le_refl blocks.length)
  rw [List.take_length, hrise] at hbehind
  omega

/-! ## What leaves depths alone -/

theorem nestFrom_append (depth : Nat) (a b : List Block) :
    nestFrom depth (a ++ b) = nestFrom depth a ++ nestFrom (behind depth a) b := by
  induction a generalizing depth with
  | nil => rfl
  | cons x rest ih => exact congrArg _ (ih (step depth x.command).2)

theorem behind_eq_foldl (depth : Nat) (blocks : List Block) :
    behind depth blocks =
      (blocks.map Block.command).foldl (fun depth command => (step depth command).2) depth := by
  rw [List.foldl_map]
  rfl

theorem map_nest_nested (blocks : List Block) (i : Nat) :
    (nested blocks)[i]?.map Block.nest =
      ((blocks.take (i + 1)).map Block.command)[i]?.map fun command =>
        (step (behind 0 (blocks.take i)) command).1 := by
  rw [nested, getElem?_nestFrom, List.getElem?_map, List.getElem?_take_of_lt (Nat.lt_succ_self i)]
  cases blocks[i]? <;> rfl

/-- **The depth of a block** depends on the commands up to it alone. -/
theorem map_nest_congr {other : List Block}
    (h : (other.take (i + 1)).map Block.command = (blocks.take (i + 1)).map Block.command) :
    (nested other)[i]?.map Block.nest = (nested blocks)[i]?.map Block.nest := by
  have hfront : (other.take i).map Block.command = (blocks.take i).map Block.command := by
    have htake := congrArg (List.take i) h
    rwa [← List.map_take, ← List.map_take, List.take_take, List.take_take,
      Nat.min_eq_left (Nat.le_succ i)] at htake
  rw [map_nest_nested, map_nest_nested, h, behind_eq_foldl, behind_eq_foldl, hfront]

/-- Between other blocks, balanced ones leave these as they are. -/
theorem nested_append_of_balanced {inner : List Block} (h : Balanced inner)
    (front back : List Block) :
    nested (front ++ inner ++ back) = nested front ++ nestFrom (behind 0 front) inner ++
      nestFrom (behind 0 front) back := by
  rw [nested, nestFrom_append, nestFrom_append, behind_append, behind_of_balanced h]
  rfl

/-- **The depths in closed form.** Nesting shows each block at the greatest number by which openers
outnumber closers in any stretch of blocks that ends in front of it, or one step further out, and
changes nothing else. So its depth depends on the commands up to it alone, and a balanced stretch
that is put in or taken out leaves the other blocks as they are. -/
theorem charted (blocks : List Block) : Charted blocks where
  length := length_nested blocks
  shown i b hb := by
    have hi : i ≤ blocks.length := (List.getElem?_eq_some_iff.mp hb).1.le
    refine ⟨(step (behind 0 (blocks.take i)) b.command).1, ?_, ?_⟩
    · rw [nested, getElem?_nestFrom, hb, Option.map_some]
    · rw [step_fst, behind_eq_depthAt hi]
  commands _ _ h := map_nest_congr h
  stretches front inner back hblocks h := by
    have hnested : nested blocks = nested front ++ nestFrom (behind 0 front) back := by
      rw [hblocks, nested, nestFrom_append]
      rfl
    exact ⟨nested front, nestFrom (behind 0 front) inner, nestFrom (behind 0 front) back,
      length_nested front, length_nestFrom _ inner, hnested,
      nested_append_of_balanced h front back⟩

/-- Behind an `if_end` and a `loop_end` that close nothing, a loop that is never closed has an
`if_else` and a turn. -/
def strayBrackets : List Block :=
  [⟨.ifEnd, "1", 0, none⟩, ⟨.loopEnd, "2", 0, none⟩, ⟨.loopStart, "3", 0, none⟩,
    ⟨.ifElse, "4", 0, none⟩, ⟨.turnLeft, "5", 0, none⟩]

/-- The turn is shown in the loop, although more blocks in front of it close than open, and it stays
there when a condition that a `loop_end` closes is put in front of it. -/
theorem charted_strayBrackets :
    let turn : Block := ⟨.turnLeft, "5", 0, none⟩
    let inner : List Block := [⟨.ifStart, "6", 0, none⟩, ⟨.loopEnd, "7", 0, none⟩]
    let front := strayBrackets.take 4
    (strayBrackets = front ++ [turn] ∧ Balanced inner) ∧
      rise front = -1 ∧ depthAt strayBrackets 4 = 1 ∧
      (nested strayBrackets)[4]? = some { turn with nest := 1 } ∧
      ∃ a s c, a.length = 4 ∧ s.length = 2 ∧ nested strayBrackets = a ++ c ∧
        nested (front ++ inner ++ [turn]) = a ++ s ++ c := by
  intro turn inner front
  have hinner : Balanced inner := by decide +kernel
  have hdepth : depthAt strayBrackets 4 = 1 := by decide +kernel
  have hcharted := charted strayBrackets
  obtain ⟨depth, hshown, hturn⟩ := hcharted.shown 4 turn rfl
  rw [if_neg (by decide), hdepth] at hturn
  obtain rfl : depth = 1 := by exact_mod_cast hturn
  exact ⟨⟨rfl, hinner⟩, by decide +kernel, hdepth, hshown,
    hcharted.stretches front inner [turn] rfl hinner⟩

end Nesting

end RobotPuzzle
