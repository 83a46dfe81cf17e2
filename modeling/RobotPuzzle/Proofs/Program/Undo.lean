import Mathlib.Data.List.InsertIdx
import RobotPuzzle.Proofs.Program.Editing

/-!
# Edits and their undoing

An edit is about one block. What the player has put on the others, and their order, stays as it is,
and the edit can be taken back: a block that was placed is removed, a block that was moved is moved
back. Although an edit shows blocks far from its own at other depths, taking it back restores the
depths as well, because they only depend on what is on the blocks (`Nesting.nested_eq_nested`).

* `Program.others_edited`: an edit leaves the blocks alone that it is not about.
* `Program.withBlocks_eq`: a program is restored where what is on its blocks is.
* `Program.move_eq`: where a move puts its block.
* `Program.granted_eq_false_iff`: which edits are refused.
* `Program.undoable_history`: all of this, of every program that edits lead to.
-/

namespace RobotPuzzle

namespace Program

open Nesting

/-- What is on the blocks of a program, in order. -/
def contents (p : Program) : List (Text × Command × Option Repeats) := p.blocks.map Block.content

/-- What is on the blocks with other ids than a given one, in order. -/
def others (p : Program) (id : Text) : List (Text × Command × Option Repeats) :=
  (p.blocks.filter (·.id != id)).map Block.content

/-- The index of a block that is nearest to a named one. -/
def place (p : Program) (j : Int) : Nat := (max 0 (min j (p.blocks.length - 1))).toNat

/-- The program with a block taken out and put at another place. -/
def relocated (p : Program) (i k : Nat) (block : Block) : Program :=
  p.withBlocks ((p.blocks.eraseIdx i).insertIdx k block)

/-- The id of the block that an edit is about; none for the one that is about all blocks. -/
def Edit.target? : Edit → Option Text
  | .add _ _ n => some (Block.freshId n)
  | .remove id | .move id _ | .setRepeats id _ => some id
  | .clear => none

/-- Whether an edit is granted, as the player is told. -/
def granted (p : Program) : Edit → Except Fault Bool
  | .add command spot n => (p.add command spot n).map fun r => r.1.isSome
  | .remove id => .ok (p.remove id).1
  | .move id spot => (p.move id spot).map Prod.fst
  | .setRepeats id count => (p.setRepeats id count).map Prod.fst
  | .clear => .ok true

/-- The edits that are against the rules: to place a block beyond the budget or with a command that
the level does not allow, to name no block, or to name one that is no loop where a loop is
needed. -/
def Forbids (p : Program) : Edit → Prop
  | .add command _ _ => p.isFull = true ∨ p.level.allows command = false
  | .remove id | .move id _ => id ∉ p.blocks.map Block.id
  | .setRepeats id _ => ∀ b ∈ p.blocks, b.id = id → b.command ≠ .loopStart
  | .clear => False

/-- What edits of a program leave alone, and how they are taken back. -/
structure Undoable (p : Program) : Prop where
  /-- The blocks that an edit is not about keep their ids, commands, counts and order. -/
  others : ∀ e id, e.target? = some id → (p.edited e).others id = p.others id
  /-- A block that is placed can be removed, if its id is a new one. -/
  added : ∀ command spot n block q, Block.freshId n ∉ p.blocks.map Block.id →
    p.add command spot n = .ok (some block, q) → q.remove block.id = (true, p)
  /-- A block that is moved stands at the index nearest to the named one, and can be moved
  back. -/
  moved : ∀ (i : Nat) (block : Block) (j : Int), p.blocks[i]? = some block →
    ∃ q, p.move block.id (.index j) = .ok (true, q) ∧
      q.contents[p.place j]? = some block.content ∧ q.move block.id (.index i) = .ok (true, p)
  /-- Just the edits that are against the rules are refused, -/
  refused : ∀ e, p.granted e = .ok false ↔ p.Forbids e
  /-- and they leave the program as it is. -/
  kept : ∀ e, p.Forbids e → p.edited e = p

variable {p q : Program} {blocks : List Block} {id : Text}

/-! ## What is on the blocks -/

theorem contents_withBlocks (p : Program) (blocks : List Block) :
    (p.withBlocks blocks).contents = blocks.map Block.content :=
  map_content_nested blocks

theorem others_eq (p : Program) (id : Text) : p.others id = p.contents.filter (·.1 != id) := by
  rw [contents, List.filter_map]
  rfl

theorem others_withBlocks (p : Program) (blocks : List Block) (id : Text) :
    (p.withBlocks blocks).others id = (blocks.filter (·.id != id)).map Block.content := by
  rw [others_eq, contents_withBlocks, List.filter_map]
  rfl

theorem others_of_not_mem (h : id ∉ p.blocks.map Block.id) : p.others id = p.contents := by
  have hall : p.blocks.filter (·.id != id) = p.blocks :=
    List.filter_eq_self.mpr fun b hb =>
      bne_iff_ne.mpr fun hid => h (hid ▸ List.mem_map_of_mem hb)
  rw [others, hall, contents]

/-- **A program is restored where what is on its blocks is**, if they are shown at their depths. -/
theorem withBlocks_eq (hlevel : q.level = p.level) (hnested : nested p.blocks = p.blocks)
    (h : blocks.map Block.content = p.contents) : q.withBlocks blocks = p := by
  have hblocks : nested blocks = p.blocks := (nested_eq_nested h).trans hnested
  cases p
  cases hlevel
  cases hblocks
  rfl

/-! ## The other blocks -/

theorem filter_insertIdx {block : Block} (h : block.id = id) (blocks : List Block) (i : Nat) :
    (blocks.insertIdx i block).filter (·.id != id) = blocks.filter (·.id != id) := by
  induction blocks generalizing i with
  | nil => cases i <;> simp [h]
  | cons b rest ih =>
    cases i with
    | zero => rw [List.insertIdx_zero, List.filter_cons_of_neg (by simp [h])]
    | succ i => rw [List.insertIdx_succ_cons, List.filter_cons, List.filter_cons, ih]

theorem filter_eraseIdx {block : Block} {i : Nat} (hi : blocks[i]? = some block)
    (h : block.id = id) :
    (blocks.eraseIdx i).filter (·.id != id) = blocks.filter (·.id != id) := by
  obtain ⟨hlt, rfl⟩ := List.getElem?_eq_some_iff.mp hi
  rw [← filter_insertIdx h (blocks.eraseIdx i) i, List.insertIdx_eraseIdx_getElem hlt]

/-- A new count is only put on blocks with the id. -/
theorem filter_map_counted (id : Text) (value : Repeats) (blocks : List Block) :
    (blocks.map (counted id value)).filter (·.id != id) = blocks.filter (·.id != id) := by
  induction blocks with
  | nil => rfl
  | cons b rest ih =>
    by_cases hid : b.id = id
    · have hb : (b.id != id) = false := bne_eq_false_iff_eq.mpr hid
      have hcounted : ((counted id value b).id != id) = false := by rw [id_counted, hb]
      simp only [List.map_cons, List.filter_cons, hb, hcounted, ih, Bool.false_eq_true, ↓reduceIte]
    · rw [List.map_cons, List.filter_cons, List.filter_cons, ih, counted, if_neg hid]

/-- **An edit leaves the blocks alone that it is not about.** -/
theorem others_edited {e : Edit} (h : e.target? = some id) :
    (p.edited e).others id = p.others id := by
  have hchange := p.change_edited e
  generalize p.edited e = q at hchange
  cases hchange with
  | refused e => rfl
  | added accepts within =>
    obtain rfl := Option.some.inj h
    rw [others_withBlocks, filter_insertIdx (Block.id_fresh _ _), others]
  | removed target =>
    obtain rfl := Option.some.inj h
    rw [others_withBlocks, List.filter_filter, others]
    simp only [Bool.and_self]
  | moved found named within =>
    obtain rfl := Option.some.inj h
    rw [others_withBlocks, filter_insertIdx named, filter_eraseIdx found named,
      others]
  | repeated value found loop =>
    obtain rfl := Option.some.inj h
    rw [others, filter_map_counted, others]
  | cleared => cases h

/-! ## Placing and removing -/

theorem remove_of_mem (h : id ∈ p.blocks.map Block.id) :
    p.remove id = (true, p.withBlocks (p.blocks.filter (·.id != id))) := by
  obtain ⟨b, hb, hid⟩ := List.mem_map.mp h
  have hany : p.blocks.any (·.id == id) = true :=
    List.any_eq_true.mpr ⟨b, hb, beq_iff_eq.mpr hid⟩
  rw [remove, if_pos hany]

theorem remove_of_not_mem (h : id ∉ p.blocks.map Block.id) : p.remove id = (false, p) := by
  have hany : ¬ p.blocks.any (·.id == id) = true := fun hany => by
    obtain ⟨b, hb, hid⟩ := List.any_eq_true.mp hany
    exact h (List.mem_map.mpr ⟨b, hb, beq_iff_eq.mp hid⟩)
  rw [remove, if_neg hany]

/-- A block that is placed stands in the program, with the id that it was to get. -/
theorem add_eq_some {command : Command} {spot : Spot} {n : Nat} {block : Block}
    (h : p.add command spot n = .ok (some block, q)) :
    block.id = Block.freshId n ∧ block ∈ q.blocks := by
  cases ha : p.accepts command with
  | false =>
    rw [add_of_not_accepts ha] at h
    cases h
  | true =>
    rw [add, if_pos ha] at h
    cases hi : spot.insertion p.blocks.length with
    | error fault =>
      rw [hi] at h
      cases h
    | ok i =>
      rw [hi] at h
      obtain ⟨hfound, rfl⟩ := Prod.mk.inj (Except.ok.inj h)
      have hid := List.find?_some hfound
      rw [Block.id_fresh] at hid
      exact ⟨beq_iff_eq.mp hid, List.mem_of_find?_eq_some hfound⟩

theorem remove_of_add {command : Command} {spot : Spot} {n : Nat} {block : Block}
    (hnested : nested p.blocks = p.blocks) (hnew : Block.freshId n ∉ p.blocks.map Block.id)
    (h : p.add command spot n = .ok (some block, q)) : q.remove block.id = (true, p) := by
  obtain ⟨hid, hmem⟩ := add_eq_some h
  have hedited : p.edited (.add command spot n) = q := by
    rw [edited, h]
    rfl
  rw [remove_of_mem (List.mem_map_of_mem hmem), hid]
  refine congrArg _ (withBlocks_eq (level_add h) hnested ?_)
  rw [← others, ← hedited, others_edited rfl, others_of_not_mem hnew]

/-! ## Moving -/

/-- Of distinct ids each is first found at its own block. -/
theorem findIdx?_of_distinct (hd : (p.blocks.map Block.id).Nodup) {i : Nat} {block : Block}
    (hi : p.blocks[i]? = some block) : p.blocks.findIdx? (·.id == block.id) = some i := by
  obtain ⟨hlt, rfl⟩ := List.getElem?_eq_some_iff.mp hi
  refine List.findIdx?_eq_some_iff_getElem.mpr ⟨hlt, beq_self_eq_true _, fun k hk hid => ?_⟩
  have hsame : (p.blocks.map Block.id)[k]? = (p.blocks.map Block.id)[i]? := by
    rw [List.getElem?_map, List.getElem?_map, List.getElem?_eq_getElem (by omega),
      List.getElem?_eq_getElem hlt, Option.map_some, Option.map_some, beq_iff_eq.mp hid]
  have hki : k = i := (List.getElem?_inj (by rw [List.length_map]; omega) hd).mp hsame
  omega

/-- **A move** puts its block at the place nearest to the named one. -/
theorem move_eq (hd : (p.blocks.map Block.id).Nodup) {i : Nat} {block : Block}
    (hi : p.blocks[i]? = some block) (spot : Spot) :
    p.move block.id spot = (spot.nearest (p.blocks.eraseIdx i).length).map fun k =>
      (true, p.relocated i k block) := by
  have hindex := findIdx?_of_distinct hd hi
  have hfind : p.find? block.id = some block := by
    rw [find?, List.find?_eq_bind_findIdx?_getElem?, hindex, Option.bind_some, hi]
  rw [move, hindex, hfind]
  simp only
  cases spot.nearest (p.blocks.eraseIdx i).length <;> rfl

/-- An index is always near some place. -/
theorem move_index (hd : (p.blocks.map Block.id).Nodup) {i : Nat} {block : Block}
    (hi : p.blocks[i]? = some block) (j : Int) :
    p.move block.id (.index j) = .ok (true, p.relocated i (p.place j) block) := by
  have hlt := (List.getElem?_eq_some_iff.mp hi).1
  have hnearest : (Spot.index j).nearest (p.blocks.eraseIdx i).length = .ok (p.place j) := by
    rw [Spot.nearest, List.length_eraseIdx_of_lt hlt, place]
    exact congrArg _ (by omega)
  rw [move_eq hd hi, hnearest]
  rfl

theorem move_of_not_mem (h : id ∉ p.blocks.map Block.id) (spot : Spot) :
    p.move id spot = .ok (false, p) := by
  have hindex : p.blocks.findIdx? (·.id == id) = none := by
    refine List.findIdx?_eq_none_iff.mpr fun b hb => beq_eq_false_iff_ne.mpr fun hid => h ?_
    exact List.mem_map.mpr ⟨b, hb, hid⟩
  rw [move, hindex]

theorem exists_getElem?_of_mem (h : id ∈ p.blocks.map Block.id) :
    ∃ (i : Nat) (block : Block), p.blocks[i]? = some block ∧ block.id = id := by
  obtain ⟨b, hb, hid⟩ := List.mem_map.mp h
  obtain ⟨i, hi⟩ := List.getElem?_of_mem hb
  exact ⟨i, b, hi, hid⟩

theorem contents_relocated (p : Program) (i k : Nat) (block : Block) :
    (p.relocated i k block).contents = (p.contents.eraseIdx i).insertIdx k block.content := by
  rw [relocated, contents_withBlocks, List.map_insertIdx, contents, List.eraseIdx_map]

theorem place_le {i : Nat} {block : Block} (hi : p.blocks[i]? = some block) (j : Int) :
    p.place j ≤ (p.blocks.eraseIdx i).length := by
  have hlt := (List.getElem?_eq_some_iff.mp hi).1
  rw [place, List.length_eraseIdx_of_lt hlt]
  omega

/-- A move keeps the ids, though not their order. -/
theorem ids_relocated_perm {i : Nat} {block : Block} (hi : p.blocks[i]? = some block) (j : Int) :
    ((p.relocated i (p.place j) block).blocks.map Block.id).Perm (p.blocks.map Block.id) := by
  rw [relocated, withBlocks, map_id_nested]
  exact (perm_of_moved hi (place_le hi j)).map Block.id

/-- The block stands where it has been put, with the same on it. -/
theorem exists_getElem?_relocated {i : Nat} {block : Block} (hi : p.blocks[i]? = some block)
    (j : Int) : ∃ b, (p.relocated i (p.place j) block).blocks[p.place j]? = some b ∧
      b.content = block.content := by
  have hat : (p.relocated i (p.place j) block).contents[p.place j]? = some block.content := by
    rw [contents_relocated, List.getElem?_insertIdx_self, contents, List.eraseIdx_map,
      List.length_map, if_pos (place_le hi j)]
  rwa [contents, List.getElem?_map, Option.map_eq_some_iff] at hat

/-- **A block that has been moved is moved back**, whatever place was named. -/
theorem relocated_relocated (hnested : nested p.blocks = p.blocks) {i k : Nat}
    {block block' : Block} (hi : p.blocks[i]? = some block)
    (hcontent : block'.content = block.content) :
    (p.relocated i k block).relocated k i block' = p := by
  obtain ⟨hlt, rfl⟩ := List.getElem?_eq_some_iff.mp hi
  refine withBlocks_eq (p := p) rfl hnested ?_
  rw [List.map_insertIdx, ← List.eraseIdx_map, ← contents, contents_relocated, hcontent,
    List.eraseIdx_insertIdx_self, contents, List.eraseIdx_map, ← List.map_insertIdx,
    List.insertIdx_eraseIdx_getElem hlt]

theorem move_of_move (hd : (p.blocks.map Block.id).Nodup) (hnested : nested p.blocks = p.blocks)
    {i : Nat} {block : Block} (hi : p.blocks[i]? = some block) (j : Int) :
    ∃ q, p.move block.id (.index j) = .ok (true, q) ∧
      q.contents[p.place j]? = some block.content ∧
      q.move block.id (.index i) = .ok (true, p) := by
  have hlt := (List.getElem?_eq_some_iff.mp hi).1
  have hperm := ids_relocated_perm hi j
  obtain ⟨block', hblock', hcontent⟩ := exists_getElem?_relocated hi j
  refine ⟨p.relocated i (p.place j) block, move_index hd hi j, ?_, ?_⟩
  · rw [contents, List.getElem?_map, hblock', Option.map_some, hcontent]
  · have hid : block'.id = block.id := congrArg Prod.fst hcontent
    have hback : (p.relocated i (p.place j) block).place i = i := by
      have hlength := hperm.length_eq
      rw [List.length_map, List.length_map] at hlength
      rw [place, hlength]
      omega
    rw [← hid, move_index (hperm.nodup_iff.mpr hd) hblock', hback,
      relocated_relocated hnested hi hcontent]

/-! ## Edits that are refused -/

theorem accepts_eq_false_iff {command : Command} :
    p.accepts command = false ↔ p.isFull = true ∨ p.level.allows command = false := by
  rw [accepts, Bool.and_eq_false_iff, Bool.not_eq_false']

/-- Where an edit that answers false has done nothing, the program stays as it is. -/
theorem getD_of_map {α : Type} {r : Except Fault (α × Program)} {answer : α × Program → Bool}
    (hrefused : r.map answer = .ok false)
    (hr : ∀ a q, r = .ok (a, q) → answer (a, q) = false → q = p) :
    (r.toOption.map Prod.snd).getD p = p := by
  cases r with
  | error fault => rfl
  | ok r => exact hr r.1 r.2 rfl (Except.ok.inj hrefused)

/-- An edit that is refused leaves the program as it is. -/
theorem edited_of_refused {e : Edit} (h : p.granted e = .ok false) : p.edited e = p := by
  cases e with
  | add command spot n =>
    refine getD_of_map h fun block q hadd hnone => ?_
    obtain rfl : block = none := by simpa using hnone
    exact (eq_of_add_none hadd).2
  | remove id => exact eq_of_remove_false (Prod.ext (Except.ok.inj h) rfl)
  | move id spot =>
    refine getD_of_map h fun answer q hmove hfalse => ?_
    obtain rfl : answer = false := hfalse
    exact eq_of_move_false hmove
  | setRepeats id count =>
    refine getD_of_map h fun answer q hset hfalse => ?_
    obtain rfl : answer = false := hfalse
    exact eq_of_setRepeats_false hset
  | clear => cases h

theorem granted_add_iff {command : Command} {spot : Spot} {n : Nat} :
    p.granted (.add command spot n) = .ok false ↔ p.accepts command = false := by
  constructor
  · intro h
    rw [granted] at h
    rcases hadd : p.add command spot n with fault | ⟨_ | block, q⟩
    · rw [hadd] at h
      cases h
    · exact (eq_of_add_none hadd).1
    · rw [hadd] at h
      cases h
  · intro h
    rw [granted, add_of_not_accepts h]
    rfl

theorem granted_remove_iff : p.granted (.remove id) = .ok false ↔ id ∉ p.blocks.map Block.id := by
  by_cases hid : id ∈ p.blocks.map Block.id
  · rw [granted, remove_of_mem hid]
    simp [hid]
  · rw [granted, remove_of_not_mem hid]
    simp [hid]

theorem granted_move_iff (hd : (p.blocks.map Block.id).Nodup) {spot : Spot} :
    p.granted (.move id spot) = .ok false ↔ id ∉ p.blocks.map Block.id := by
  by_cases hid : id ∈ p.blocks.map Block.id
  · refine iff_of_false (fun h => ?_) (not_not_intro hid)
    obtain ⟨i, block, hi, rfl⟩ := exists_getElem?_of_mem hid
    rw [granted, move_eq hd hi] at h
    generalize spot.nearest (p.blocks.eraseIdx i).length = k at h
    cases k <;> cases h
  · rw [granted, move_of_not_mem hid]
    exact iff_of_true rfl hid

theorem granted_setRepeats_iff (hd : (p.blocks.map Block.id).Nodup) {count : Except Fault Int} :
    p.granted (.setRepeats id count) = .ok false ↔
      ∀ b ∈ p.blocks, b.id = id → b.command ≠ .loopStart := by
  rw [granted, setRepeats]
  cases hfind : p.find? id with
  | none =>
    refine iff_of_true rfl fun b hb hid => ?_
    exact absurd (beq_iff_eq.mpr hid) (List.find?_eq_none.mp hfind b hb)
  | some block =>
    have hmem := List.mem_of_find?_eq_some hfind
    have hid : block.id = id := by simpa using List.find?_some hfind
    simp only
    by_cases hloop : block.command = .loopStart
    · rw [if_pos hloop]
      refine iff_of_false (fun h => ?_) fun hnone => hnone block hmem hid hloop
      cases count <;> cases h
    · rw [if_neg hloop]
      exact iff_of_true rfl fun b hb hb' => eq_of_find? hd hfind hb hb' ▸ hloop

/-- **Just the edits that are against the rules are refused.** -/
theorem granted_eq_false_iff (hd : (p.blocks.map Block.id).Nodup) (e : Edit) :
    p.granted e = .ok false ↔ p.Forbids e := by
  cases e with
  | add command spot n => exact granted_add_iff.trans accepts_eq_false_iff
  | remove id => exact granted_remove_iff
  | move id spot => exact granted_move_iff hd
  | setRepeats id count => exact granted_setRepeats_iff hd
  | clear => exact iff_of_false nofun id

/-! ## Histories -/

/-- **Edits touch only their block and can be undone.** Of every program that edits lead to from the
empty one, if its ids are distinct: any further edit leaves the other blocks alone, what is placed
can be removed and what is moved can be moved back, which restores the program with its depths, a
moved block stands at the index nearest to the named one, and just the edits that are against the
rules are refused, and change nothing. -/
theorem undoable_history (level : Level) (edits : List Edit)
    (hdistinct : (((empty level).history edits).blocks.map Block.id).Nodup) :
    ((empty level).history edits).Undoable := by
  have hnested := nested_history (p := empty level) rfl edits
  exact
    { others := fun _ _ htarget => others_edited htarget
      added := fun _ _ _ _ _ hnew hadd => remove_of_add hnested hnew hadd
      moved := fun _ _ j hi => move_of_move hdistinct hnested hi j
      refused := granted_eq_false_iff hdistinct
      kept := fun e he => edited_of_refused ((granted_eq_false_iff hdistinct e).mpr he) }

end Program

open Program in
/-- The move in front of the loop is moved into it, where it is shown further in, and out again. -/
theorem undoable_corridorEdits :
    let p := (empty corridor).history corridorEdits
    (p.blocks.map Block.id).Nodup ∧ p.Undoable ∧
      ∃ q, p.move (Block.freshId 2) (.index 1) = .ok (true, q) ∧
        q.blocks = [⟨.loopStart, Block.freshId 1, 0, some (.clamp 10)⟩,
          ⟨.moveForward, Block.freshId 2, 1, none⟩, ⟨.loopEnd, Block.freshId 4, 0, none⟩] ∧
        q.move (Block.freshId 2) (.index 0) = .ok (true, p) := by
  intro p
  have hdistinct : (p.blocks.map Block.id).Nodup := by decide +kernel
  have hundoable := undoable_history corridor corridorEdits hdistinct
  have hat : p.blocks[0]? = some ⟨.moveForward, Block.freshId 2, 0, none⟩ := by decide +kernel
  obtain ⟨q, hmove, -, hback⟩ := hundoable.moved 0 _ 1 hat
  have hblocks : (p.move (Block.freshId 2) (.index 1)).toOption.map (fun r => r.2.blocks) =
      some [⟨.loopStart, Block.freshId 1, 0, some (.clamp 10)⟩,
        ⟨.moveForward, Block.freshId 2, 1, none⟩, ⟨.loopEnd, Block.freshId 4, 0, none⟩] := by
    decide +kernel
  rw [hmove] at hblocks
  exact ⟨hdistinct, hundoable, q, hmove, Option.some.inj hblocks, hback⟩

end RobotPuzzle
