import RobotPuzzle.Program.Basic

/-!
# Edits of a program

What the edits of a program have in common.

* `Program.level_add`, `Program.level_remove`, `Program.level_move`, `Program.level_setRepeats`: a
  program stays one for its level.
* `Program.eq_of_add_none`, `Program.eq_of_remove_false`, `Program.eq_of_move_false`,
  `Program.eq_of_setRepeats_false`: an edit that is refused leaves the program as it is.
-/

namespace RobotPuzzle

namespace Program

open Nesting

theorem level_add {p : Program} {command : Command} {spot : Spot} {n : Nat}
    {r : Option Block × Program} (h : p.add command spot n = .ok r) : r.2.level = p.level := by
  simp only [add, bind, Except.bind] at h
  repeat' split at h
  all_goals cases h
  all_goals rfl

theorem level_remove (p : Program) (id : Text) : (p.remove id).2.level = p.level := by
  unfold remove
  split <;> rfl

theorem level_move {p : Program} {id : Text} {spot : Spot} {r : Bool × Program}
    (h : p.move id spot = .ok r) : r.2.level = p.level := by
  simp only [move, bind, Except.bind] at h
  repeat' split at h
  all_goals cases h
  all_goals rfl

theorem level_setRepeats {p : Program} {id : Text} {count : Except Fault Int} {r : Bool × Program}
    (h : p.setRepeats id count = .ok r) : r.2.level = p.level := by
  simp only [setRepeats, bind, Except.bind] at h
  repeat' split at h
  all_goals cases h
  all_goals rfl

/-! ## Edits that are refused -/

theorem isSome_find? {p : Program} {id : Text} (h : id ∈ p.blocks.map Block.id) :
    (p.find? id).isSome = true := by
  obtain ⟨b, hb, hid⟩ := List.mem_map.mp h
  exact List.find?_isSome.mpr ⟨b, hb, by simpa using hid⟩

/-- A block that is inserted stands in the program. -/
theorem isSome_find?_insert (p : Program) {i : Nat} (hi : i ≤ p.blocks.length) (block : Block) :
    ((p.withBlocks (p.blocks.insertIdx i block)).find? block.id).isSome = true := by
  refine isSome_find? ?_
  show block.id ∈ (nested (p.blocks.insertIdx i block)).map Block.id
  rw [map_id_nested]
  exact List.mem_map_of_mem ((List.mem_insertIdx hi).mpr (.inl rfl))

/-- A block that is not placed is not accepted. -/
theorem eq_of_add_none {p q : Program} {command : Command} {spot : Spot} {n : Nat}
    (h : p.add command spot n = .ok (none, q)) : p.accepts command = false ∧ q = p := by
  cases ha : p.accepts command with
  | false =>
    rw [add_of_not_accepts ha] at h
    cases h
    exact ⟨rfl, rfl⟩
  | true =>
    unfold add at h
    rw [if_pos ha] at h
    cases hi : spot.insertion p.blocks.length with
    | error fault =>
      rw [hi] at h
      cases h
    | ok i =>
      have hfound := isSome_find?_insert p (Spot.le_of_insertion hi) (.fresh n command)
      rw [hi] at h
      rw [(Prod.mk.inj (Except.ok.inj h)).1] at hfound
      cases hfound

theorem eq_of_remove_false {p q : Program} {id : Text} (h : p.remove id = (false, q)) : q = p := by
  unfold remove at h
  split at h <;> cases h
  rfl

theorem eq_of_move_false {p q : Program} {id : Text} {spot : Spot}
    (h : p.move id spot = .ok (false, q)) : q = p := by
  simp only [move, bind, Except.bind] at h
  repeat' split at h
  all_goals cases h
  rfl

theorem eq_of_setRepeats_false {p q : Program} {id : Text} {count : Except Fault Int}
    (h : p.setRepeats id count = .ok (false, q)) : q = p := by
  simp only [setRepeats, bind, Except.bind] at h
  repeat' split at h
  all_goals cases h
  all_goals rfl

end Program

end RobotPuzzle
