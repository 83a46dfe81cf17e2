import Mathlib.Data.List.Nodup
import Mathlib.Data.List.Perm.Basic
import RobotPuzzle.Program.Record
import RobotPuzzle.Proofs.Program.Edits
import RobotPuzzle.Proofs.Run.Fold

/-!
# Edit histories

What holds of a program however it has been edited.

* `Nesting.nested_eq_nested`: the depths of blocks only depend on what is on them (`Block.content`),
  so nesting twice is nesting once (`Nesting.nested_nested`).
* `Block.check_toJson`: every block passes the check of its record.
* `Program.change_edited`: all that an edit can do to a program, one case for each kind of edit.
* `Program.legal_of_change`: an edit keeps the blocks legal, if the id that it gives is a new one.
* `Program.nested_history`, `Program.legal_history`: what a whole history keeps.
* `Program.wellFormed_history`: every moment of every history of edits from the empty program.
-/

namespace RobotPuzzle

/-! ## What is on a block -/

/-- What the player has put on a block: its id, its command and its count. -/
def Block.content (b : Block) : Text × Command × Option Repeats := (b.id, b.command, b.value)

namespace Nesting

theorem map_content_nestFrom (depth : Nat) (blocks : List Block) :
    (nestFrom depth blocks).map Block.content = blocks.map Block.content := by
  induction blocks generalizing depth with
  | nil => rfl
  | cons b rest ih => simp [nestFrom, ih, Block.content]

/-- Nesting changes nothing but depths. -/
theorem map_content_nested (blocks : List Block) :
    (nested blocks).map Block.content = blocks.map Block.content :=
  map_content_nestFrom 0 blocks

theorem nestFrom_eq_nestFrom {a b : List Block} (h : a.map Block.content = b.map Block.content)
    (depth : Nat) : nestFrom depth a = nestFrom depth b := by
  induction a generalizing b depth with
  | nil => rw [List.map_eq_nil_iff.mp h.symm]
  | cons x rest ih =>
    obtain ⟨y, more, rfl, hxy, hrest⟩ := List.map_eq_cons_iff.mp h.symm
    obtain ⟨hid, hcommand, hvalue⟩ : y.id = x.id ∧ y.command = x.command ∧ y.value = x.value := by
      simpa [Block.content] using hxy
    simp only [nestFrom, ih hrest.symm, hid, hcommand, hvalue]

/-- Depths depend on nothing but what is on the blocks. -/
theorem nested_eq_nested {a b : List Block} (h : a.map Block.content = b.map Block.content) :
    nested a = nested b :=
  nestFrom_eq_nestFrom h 0

/-- Blocks that are shown at their depths are so again. -/
theorem nested_nested (blocks : List Block) : nested (nested blocks) = nested blocks :=
  nested_eq_nested (map_content_nested blocks)

/-- What is done to each block without regard to its depth can be done before or after nesting. -/
theorem nestFrom_map {f : Block → Block} (hcommand : ∀ b, (f b).command = b.command)
    (hnest : ∀ (b : Block) (nest : Nat), f { b with nest } = { f b with nest }) (depth : Nat)
    (blocks : List Block) : nestFrom depth (blocks.map f) = (nestFrom depth blocks).map f := by
  induction blocks generalizing depth with
  | nil => rfl
  | cons b rest ih =>
    have hb := hnest b (step depth b.command).1
    simp only [List.map_cons, nestFrom, hcommand, ih, hb]

theorem nested_map {f : Block → Block} (hcommand : ∀ b, (f b).command = b.command)
    (hnest : ∀ (b : Block) (nest : Nat), f { b with nest } = { f b with nest })
    (blocks : List Block) : nested (blocks.map f) = (nested blocks).map f :=
  nestFrom_map hcommand hnest 0 blocks

end Nesting

/-! ## Records of blocks -/

/-- The count of a loop is within its bounds already. -/
theorem Repeats.clamp_count (r : Repeats) : clamp r.count = r := by
  obtain ⟨count, h, h'⟩ := r
  simp only [clamp, mk.injEq]
  omega

namespace Block

/-- A new block has the id that it is made with. -/
theorem id_fresh (n : Nat) (command : Command) : (fresh n command).id = freshId n := by
  rw [fresh]

theorem nullable_valueJson (b : Block) :
    Field.nullable (Field.between 1 10) b.valueJson =
      .good (b.value.map fun r => (r.count : Int)) := by
  unfold valueJson
  cases b.value with
  | none => rfl
  | some r =>
    have hr : Field.between 1 10 (.int r.count) = .good (r.count : Int) :=
      Field.between_int (by exact_mod_cast r.one_le_count) (by exact_mod_cast r.count_le_ten)
    simp [Json.orNull, Field.nullable, hr, Checked.map]

/-- The record of a block is a good one, and it is the block's. -/
theorem check_toJson (b : Block) : check b.toJson = .good b := by
  have hnest : Field.atLeast 0 (.int b.nest) = .good (b.nest : Int) :=
    Field.atLeast_int.mpr ⟨rfl, Int.natCast_nonneg _⟩
  have hvalue : (b.value.map fun r => (r.count : Int)).map Repeats.clamp = b.value := by
    cases b.value with
    | none => rfl
    | some r => simp [Repeats.clamp_count]
  simp [check, toJson, Field.record, Fields.required, Fields.optional, Fields.get?,
    Field.word_of_spelling, Field.text_str, hnest, nullable_valueJson, hvalue, Checked.under,
    Seq.seq, Functor.map, Checked.seq, Checked.map]

end Block

/-- The place nearest to a named one is never behind the end. -/
theorem Spot.le_of_nearest {s : Spot} {n j : Nat} (h : s.nearest n = .ok j) : j ≤ n := by
  unfold nearest at h
  repeat' split at h
  all_goals first | contradiction | (cases h; omega)

namespace Program

open Nesting

/-! ## Edits -/

/-- An edit that a player may ask for. The id of a block that it places is the `n`-th one. -/
inductive Edit where
  | add (command : Command) (spot : Spot) (n : Nat)
  | remove (id : Text)
  | move (id : Text) (spot : Spot)
  | setRepeats (id : Text) (count : Except Fault Int)
  | clear

/-- The program after an edit. Where the edit faults, the program stays as it is. -/
def edited (p : Program) : Edit → Program
  | .add command spot n => ((p.add command spot n).toOption.map Prod.snd).getD p
  | .remove id => (p.remove id).2
  | .move id spot => ((p.move id spot).toOption.map Prod.snd).getD p
  | .setRepeats id count => ((p.setRepeats id count).toOption.map Prod.snd).getD p
  | .clear => p.clear

/-- The ids that an edit gives to new blocks. -/
def issued (p : Program) : Edit → List Text
  | .add command _ n => if p.accepts command then [Block.freshId n] else []
  | _ => []

/-- The program after edits. -/
def history (p : Program) (edits : List Edit) : Program := edits.foldl edited p

/-- The ids that edits give to new blocks, in order. -/
def issuedBy (p : Program) : List Edit → List Text
  | [] => []
  | e :: rest => p.issued e ++ (p.edited e).issuedBy rest

/-- The blocks with an id get a new count. -/
def counted (id : Text) (value : Repeats) (b : Block) : Block :=
  if b.id = id then { b with value := some value } else b

theorem id_counted (id : Text) (value : Repeats) (b : Block) : (counted id value b).id = b.id := by
  unfold counted
  split <;> rfl

theorem command_counted (id : Text) (value : Repeats) (b : Block) :
    (counted id value b).command = b.command := by
  unfold counted
  split <;> rfl

theorem counted_nest (id : Text) (value : Repeats) (b : Block) (nest : Nat) :
    counted id value { b with nest } = { counted id value b with nest } := by
  unfold counted
  split <;> rfl

theorem map_id_counted (id : Text) (value : Repeats) (blocks : List Block) :
    (blocks.map (counted id value)).map Block.id = blocks.map Block.id := by
  simp [Function.comp_def, id_counted]

/-- What an edit can do to a program. -/
inductive Change (p : Program) : Edit → Program → Prop
  /-- An edit that is refused, or that a fault stops, changes nothing. -/
  | refused (e : Edit) : Change p e p
  | added {command : Command} {spot : Spot} {n i : Nat} (accepts : p.accepts command = true)
      (within : i ≤ p.blocks.length) :
      Change p (.add command spot n) (p.withBlocks (p.blocks.insertIdx i (.fresh n command)))
  | removed (id : Text) : Change p (.remove id) (p.withBlocks (p.blocks.filter (·.id != id)))
  | moved {id : Text} {spot : Spot} {i j : Nat} {block : Block} (found : p.blocks[i]? = some block)
      (named : block.id = id) (within : j ≤ (p.blocks.eraseIdx i).length) :
      Change p (.move id spot) (p.withBlocks ((p.blocks.eraseIdx i).insertIdx j block))
  | repeated {id : Text} {count : Except Fault Int} {block : Block} (value : Repeats)
      (found : p.find? id = some block) (loop : block.command = .loopStart) :
      Change p (.setRepeats id count)
        { p with blocks := p.blocks.map (counted id value) }
  | cleared : Change p .clear p.clear

theorem change_add (p : Program) (command : Command) (spot : Spot) (n : Nat) :
    Change p (.add command spot n) (p.edited (.add command spot n)) := by
  by_cases ha : p.accepts command
  · cases hi : spot.insertion p.blocks.length with
    | error fault =>
      have h : p.edited (.add command spot n) = p := by
        simp [edited, add, ha, hi, bind, Except.bind, Except.toOption]
      rw [h]
      exact .refused _
    | ok i =>
      have h : p.edited (.add command spot n) =
          p.withBlocks (p.blocks.insertIdx i (.fresh n command)) := by
        simp [edited, add, ha, hi, bind, Except.bind, pure, Except.pure, Except.toOption]
      rw [h]
      exact .added ha (Spot.le_of_insertion hi)
  · have h : p.edited (.add command spot n) = p := by simp [edited, add, ha, Except.toOption]
    rw [h]
    exact .refused _

theorem change_remove (p : Program) (id : Text) :
    Change p (.remove id) (p.edited (.remove id)) := by
  simp only [edited, remove]
  split
  · exact .removed id
  · exact .refused _

theorem change_move (p : Program) (id : Text) (spot : Spot) :
    Change p (.move id spot) (p.edited (.move id spot)) := by
  simp only [edited, move]
  split
  · next i block hi hb =>
    -- The first block with the id stands where the id is first found.
    have hat : p.blocks[i]? = some block := by
      rw [find?, List.find?_eq_bind_findIdx?_getElem?, hi] at hb
      exact hb
    have hid : block.id = id := by simpa using List.find?_some hb
    cases hj : spot.nearest (p.blocks.eraseIdx i).length with
    | error fault => exact .refused _
    | ok j => exact .moved hat hid (Spot.le_of_nearest hj)
  · exact .refused _

theorem change_setRepeats (p : Program) (id : Text) (count : Except Fault Int) :
    Change p (.setRepeats id count) (p.edited (.setRepeats id count)) := by
  simp only [edited, setRepeats]
  split
  · exact .refused _
  · next block hb =>
    split
    · next hl =>
      cases count with
      | error fault => exact .refused _
      | ok n => exact .repeated _ hb hl
    · exact .refused _

/-- **What an edit does to a program.** -/
theorem change_edited (p : Program) (e : Edit) : Change p e (p.edited e) := by
  cases e with
  | add command spot n => exact p.change_add command spot n
  | remove id => exact p.change_remove id
  | move id spot => exact p.change_move id spot
  | setRepeats id count => exact p.change_setRepeats id count
  | clear => exact .cleared

/-! ## Legal blocks -/

/-- Blocks that a level lets stand in a program, however deep they are shown. -/
structure Legal (level : Level) (blocks : List Block) : Prop where
  within : (blocks.length : Int) ≤ level.maxBlocks
  distinct : (blocks.map Block.id).Nodup
  allowed : ∀ b ∈ blocks, b.command ∈ level.allowed
  valued : ∀ b ∈ blocks, b.value.isSome ↔ b.command = .loopStart

variable {level : Level} {blocks other : List Block}

theorem Legal.nil (h : 0 ≤ level.maxBlocks) : Legal level [] where
  within := h
  distinct := List.nodup_nil
  allowed _ hb := by simp at hb
  valued _ hb := by simp at hb

/-- Whether blocks are legal depends on what is on them alone. -/
theorem Legal.of_content (h : Legal level blocks)
    (hc : other.map Block.content = blocks.map Block.content) : Legal level other := by
  have hlength : other.length = blocks.length := by simpa using congrArg List.length hc
  have hids : other.map Block.id = blocks.map Block.id := by
    simpa [Function.comp_def, Block.content] using congrArg (List.map Prod.fst) hc
  have hmem : ∀ b ∈ other, ∃ a ∈ blocks, a.command = b.command ∧ a.value = b.value := by
    intro b hb
    obtain ⟨a, ha, hab⟩ := List.mem_map.mp (hc ▸ List.mem_map_of_mem hb)
    simp only [Block.content, Prod.mk.injEq] at hab
    exact ⟨a, ha, hab.2⟩
  refine ⟨hlength ▸ h.within, hids ▸ h.distinct, fun b hb => ?_, fun b hb => ?_⟩
  all_goals obtain ⟨a, ha, hcommand, hvalue⟩ := hmem b hb
  · exact hcommand ▸ h.allowed a ha
  · exact hcommand ▸ hvalue ▸ h.valued a ha

theorem Legal.nested (h : Legal level blocks) : Legal level (nested blocks) :=
  h.of_content (map_content_nested blocks)

theorem Legal.perm (h : Legal level blocks) (hp : other.Perm blocks) : Legal level other where
  within := hp.length_eq ▸ h.within
  distinct := (hp.map Block.id).nodup_iff.mpr h.distinct
  allowed b hb := h.allowed b (hp.mem_iff.mp hb)
  valued b hb := h.valued b (hp.mem_iff.mp hb)

theorem Legal.sublist (h : Legal level blocks) (hs : other.Sublist blocks) : Legal level other where
  within := by
    have := hs.length_le
    have := h.within
    omega
  distinct := h.distinct.sublist (hs.map Block.id)
  allowed b hb := h.allowed b (hs.subset hb)
  valued b hb := h.valued b (hs.subset hb)

/-- A block that is accepted may stand with the others if its id is a new one. -/
theorem Legal.cons_fresh {p : Program} {command : Command} {n : Nat} (h : Legal p.level p.blocks)
    (ha : p.accepts command = true) (hn : Block.freshId n ∉ p.blocks.map Block.id) :
    Legal p.level (.fresh n command :: p.blocks) := by
  obtain ⟨hroom, hallows⟩ : (p.blocks.length : Int) < p.level.maxBlocks ∧
      p.level.allows command = true := by
    simpa [accepts, isFull] using ha
  have hmem : command ∈ p.level.allowed := by
    simp only [Level.allowed, List.mem_filter, hallows, and_true]
    cases command <;> decide
  refine ⟨?_, ?_, fun b hb => ?_, fun b hb => ?_⟩
  · rw [List.length_cons]
    omega
  · rw [List.map_cons, List.nodup_cons, Block.id_fresh]
    exact ⟨hn, h.distinct⟩
  all_goals rcases List.mem_cons.mp hb with rfl | hb
  · exact hmem
  · exact h.allowed b hb
  · simp [Block.fresh]
  · exact h.valued b hb

/-! ## One edit -/

/-- Of distinct ids each is found at its own block. -/
theorem eq_of_find? {p : Program} (hd : (p.blocks.map Block.id).Nodup) {id : Text}
    {block b : Block} (hf : p.find? id = some block) (hb : b ∈ p.blocks) (hid : b.id = id) :
    b = block := by
  have hblock : block.id = id := by simpa using List.find?_some hf
  exact List.inj_on_of_nodup_map hd hb (List.mem_of_find?_eq_some hf) (hid.trans hblock.symm)

theorem Legal.counted {p : Program} (h : Legal p.level p.blocks) {id : Text} {block : Block}
    (hf : p.find? id = some block) (hl : block.command = .loopStart) (value : Repeats) :
    Legal p.level (p.blocks.map (Program.counted id value)) where
  within := by
    rw [List.length_map]
    exact h.within
  distinct := by
    rw [map_id_counted]
    exact h.distinct
  allowed c hc := by
    obtain ⟨b, hb, rfl⟩ := List.mem_map.mp hc
    rw [command_counted]
    exact h.allowed b hb
  valued c hc := by
    obtain ⟨b, hb, rfl⟩ := List.mem_map.mp hc
    by_cases hid : b.id = id
    · have hb' : b.command = .loopStart := eq_of_find? h.distinct hf hb hid ▸ hl
      simp [Program.counted, hid, hb']
    · simpa [Program.counted, hid] using h.valued b hb

theorem level_change {p q : Program} {e : Edit} (h : Change p e q) : q.level = p.level := by
  cases h <;> rfl

/-- The blocks that a move leaves are those that were there. -/
theorem perm_of_moved {i j : Nat} {block : Block} (hi : blocks[i]? = some block)
    (hj : j ≤ (blocks.eraseIdx i).length) :
    ((blocks.eraseIdx i).insertIdx j block).Perm blocks := by
  obtain ⟨hlt, rfl⟩ := List.getElem?_eq_some_iff.mp hi
  exact (List.perm_insertIdx _ _ hj).trans (List.getElem_cons_eraseIdx_perm hlt)

/-- Every id of an edited program was there before, or has been given to a new block. -/
theorem ids_subset_of_change {p q : Program} {e : Edit} (h : Change p e q) :
    q.blocks.map Block.id ⊆ p.blocks.map Block.id ++ p.issued e := by
  have hkept : ∀ {ids : List Text}, ids ⊆ p.blocks.map Block.id →
      ids ⊆ p.blocks.map Block.id ++ p.issued e :=
    fun h => List.subset_append_of_subset_left _ h
  cases h with
  | refused e => exact hkept (List.Subset.refl _)
  | @added command spot n i accepts within =>
    rw [withBlocks, map_id_nested,
      ((List.perm_insertIdx _ _ within).map Block.id).subset_congr_left]
    simp [issued, accepts, Block.fresh, List.cons_subset]
  | removed id =>
    rw [withBlocks, map_id_nested]
    exact hkept (List.filter_sublist.map Block.id).subset
  | moved found named within =>
    rw [withBlocks, map_id_nested]
    exact hkept ((perm_of_moved found within).map Block.id).subset
  | @repeated id count block value found loop =>
    exact hkept (by simp only [map_id_counted, List.Subset.refl])
  | cleared => exact List.nil_subset _

/-- **An edit keeps the blocks legal**, if the id that it gives to a block is a new one. -/
theorem legal_of_change {p q : Program} {e : Edit} (h : Change p e q)
    (hp : Legal p.level p.blocks) (hnew : ∀ id ∈ p.issued e, id ∉ p.blocks.map Block.id) :
    Legal q.level q.blocks := by
  cases h with
  | refused e => exact hp
  | @added command spot n i accepts within =>
    have hn : Block.freshId n ∉ p.blocks.map Block.id := hnew _ (by simp [issued, accepts])
    exact ((hp.cons_fresh accepts hn).perm (List.perm_insertIdx _ _ within)).nested
  | removed id => exact (hp.sublist List.filter_sublist).nested
  | moved found named within => exact (hp.perm (perm_of_moved found within)).nested
  | repeated value found loop => exact hp.counted found loop value
  | cleared => exact hp.sublist (List.nil_sublist _)

/-- **An edit keeps the depths those of the blocks**, whichever of them it moves. -/
theorem nested_of_change {p q : Program} {e : Edit} (h : Change p e q)
    (hp : nested p.blocks = p.blocks) : nested q.blocks = q.blocks := by
  cases h with
  | refused e => exact hp
  | added accepts within => exact nested_nested _
  | removed id => exact nested_nested _
  | moved found named within => exact nested_nested _
  | @repeated id count block value found loop =>
    exact (nested_map (command_counted id value) (counted_nest id value) p.blocks).trans
      (congrArg _ hp)
  | cleared => rfl

/-! ## Histories -/

/-- What holds of a program at every moment. -/
structure WellFormed (p : Program) : Prop where
  /-- The block budget is kept. -/
  within : (p.blocks.length : Int) ≤ p.level.maxBlocks
  distinct : (p.blocks.map Block.id).Nodup
  allowed : ∀ b ∈ p.blocks, b.command ∈ p.level.allowed
  /-- The blocks that start loops say how often they run, and no other blocks do. -/
  valued : ∀ b ∈ p.blocks, b.value.isSome ↔ b.command = .loopStart
  bounded : ∀ b ∈ p.blocks, ∀ r ∈ b.value, 1 ≤ r.count ∧ r.count ≤ 10
  /-- Each block is shown at its depth, so showing them anew changes nothing. -/
  nested : nested p.blocks = p.blocks
  /-- Each block passes the check of its record. -/
  checked : ∀ b ∈ p.blocks, Block.check b.toJson = .good b

theorem Legal.wellFormed {p : Program} (h : Legal p.level p.blocks)
    (hn : Nesting.nested p.blocks = p.blocks) : p.WellFormed where
  within := h.within
  distinct := h.distinct
  allowed := h.allowed
  valued := h.valued
  bounded _ _ r _ := ⟨r.one_le_count, r.count_le_ten⟩
  nested := hn
  checked b _ := b.check_toJson

theorem issuedBy_append (p : Program) (a b : List Edit) :
    p.issuedBy (a ++ b) = p.issuedBy a ++ (p.history a).issuedBy b := by
  induction a generalizing p with
  | nil => rfl
  | cons e rest ih => simp [issuedBy, ih, history]

/-- Programs that edits lead to are shown at their depths. -/
theorem nested_history {p : Program} (hp : nested p.blocks = p.blocks) (edits : List Edit) :
    nested (p.history edits).blocks = (p.history edits).blocks := by
  induction edits generalizing p with
  | nil => exact hp
  | cons e rest ih => exact ih (nested_of_change (p.change_edited e) hp)

/-- The invariant of a history: the blocks are legal, and none of their ids is given again. -/
theorem legal_history {p : Program} {edits : List Edit} (hp : Legal p.level p.blocks)
    (hd : (p.blocks.map Block.id ++ p.issuedBy edits).Nodup) :
    (p.history edits).level = p.level ∧ Legal p.level (p.history edits).blocks := by
  induction edits generalizing p with
  | nil => exact ⟨rfl, hp⟩
  | cons e rest ih =>
    have hc := p.change_edited e
    have hlevel := level_change hc
    rw [issuedBy, ← List.append_assoc] at hd
    have hnew : ∀ id ∈ p.issued e, id ∉ p.blocks.map Block.id := fun id he hid =>
      (List.disjoint_of_nodup_append (List.nodup_append.mp hd).1) hid he
    have hedited := legal_of_change hc hp hnew
    have hd' : ((p.edited e).blocks.map Block.id ++ (p.edited e).issuedBy rest).Nodup := by
      have hdisjoint : ((p.edited e).blocks.map Block.id).Disjoint ((p.edited e).issuedBy rest) :=
        fun id hid => List.disjoint_of_nodup_append hd (ids_subset_of_change hc hid)
      exact hedited.distinct.append (List.nodup_append.mp hd).2.1 hdisjoint
    have := ih hedited hd'
    rwa [hlevel] at this

/-- **Every program that edits lead to is well-formed.** From the empty program, at every moment of
every sequence of edits that gives no id twice, the blocks keep to the level's budget and commands,
have distinct ids, counts on loops alone and in their bounds, and are shown at their depths. -/
theorem wellFormed_history (level : Level) (hlevel : 0 ≤ level.maxBlocks) (edits : List Edit)
    (hissued : ((empty level).issuedBy edits).Nodup) :
    ∀ moment, moment <+: edits →
      let p := (empty level).history moment
      p.level = level ∧ p.WellFormed := by
  rintro moment ⟨rest, rfl⟩
  rw [issuedBy_append] at hissued
  have hd := (List.nodup_append.mp hissued).1
  obtain ⟨hl, hp⟩ := @legal_history (empty level) moment (.nil hlevel) hd
  exact ⟨hl, Legal.wellFormed (hl.symm ▸ hp) (nested_history rfl moment)⟩

end Program

/-! ## A sample -/

open Program in
/-- A loop around a move is put together. The condition is refused, the count is capped, and the
move, put in front of the loop, stands outside of it. -/
def corridorEdits : List Edit :=
  [.add .loopStart .unnamed 1, .add .moveForward (.index 7) 2, .add .ifStart .unnamed 3,
    .add .loopEnd .unnamed 4, .setRepeats (Block.freshId 1) (.ok 99),
    .move (Block.freshId 2) (.index (-4))]

open Program in
theorem wellFormed_corridorEdits :
    let p := (empty corridor).history corridorEdits
    p.blocks =
        [⟨.moveForward, Block.freshId 2, 0, none⟩,
          ⟨.loopStart, Block.freshId 1, 0, some (.clamp 10)⟩,
          ⟨.loopEnd, Block.freshId 4, 0, none⟩] ∧
      p.level = corridor ∧ p.WellFormed := by
  have hissued : ((empty corridor).issuedBy corridorEdits).Nodup := by decide +kernel
  exact ⟨by decide +kernel,
    wellFormed_history corridor (by decide) corridorEdits hissued _ (List.prefix_refl _)⟩

end RobotPuzzle
