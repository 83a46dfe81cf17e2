import RobotPuzzle.Proofs.Run.Rating

/-!
# The order of instructions

A run executes the instructions of its stream one after the other, each one once: a step executes
the one under the cursor and moves the cursor on by one, or executes nothing.

* `Run.step_executes`: what a step executes.
* `Run.InOrder`: what has been executed are the first instructions of the stream.
-/

namespace RobotPuzzle

namespace Run

/-- A run has executed one more instruction, the one that was next. -/
structure Executes (r r' : Run) : Prop where
  history : ∃ block step, r.stream[r.cursor]? = some block ∧ step.blockId = block.id ∧
    step.command = block.command ∧ r'.history = r.history ++ [step]
  cursor : r'.cursor = r.cursor + 1
  stream : r'.stream = r.stream

/-- A run has executed nothing. -/
structure Rests (r r' : Run) : Prop where
  history : r'.history = r.history
  cursor : r'.cursor = r.cursor
  stream : r'.stream = r.stream

/-- What has been executed are the first instructions of the stream, each one once. -/
structure InOrder (r : Run) : Prop where
  blocks : r.history.map (fun s => (s.blockId, s.command)) =
    (r.stream.take r.cursor).map fun b => (b.id, b.command)
  cursor_le : r.cursor ≤ r.stream.length

theorem rests_self (r : Run) : r.Rests r := ⟨rfl, rfl, rfl⟩

/-- Ending a run does not touch what it has executed. -/
theorem run_finish_eq (r : Run) (step : Option Step) (reason : Option Text) (clock : Clock) :
    ∃ outcome, (r.finish step reason clock).run = { r with outcome } := by
  rcases r.finish_cases step reason clock with ⟨o, -, -, h⟩ | ⟨fault, -, h⟩
  · exact ⟨some o, h⟩
  · exact ⟨r.outcome, h⟩

/-- A step executes the next instruction or none, and may come to an outcome. -/
theorem run_step_cases (r : Run) (clock : Clock) :
    (∃ outcome, (r.step clock).run = { r with outcome }) ∨
      ∃ block outcome, r.stream[r.cursor]? = some block ∧
        (r.step clock).run = { (r.execute block).2 with outcome } := by
  unfold step
  split
  · exact .inl ⟨r.outcome, rfl⟩
  · split
    · exact .inl (r.run_finish_eq none (judgement r.level r.world) clock)
    · next block hblock =>
      refine .inr ⟨block, ?_⟩
      simp only
      split
      · exact ⟨r.outcome, hblock, rfl⟩
      · obtain ⟨outcome, h⟩ := (r.execute block).2.run_finish_eq (some (r.execute block).1)
          (some (reasonOf (r.execute block).1)) clock
        exact ⟨outcome, hblock, h⟩

/-- A step executes the instruction that is next, or nothing. -/
theorem step_executes (r : Run) (clock : Clock) :
    r.Rests (r.step clock).run ∨ r.Executes (r.step clock).run := by
  rcases r.run_step_cases clock with ⟨outcome, h⟩ | ⟨block, outcome, hblock, h⟩
  · rw [h]
    exact .inl ⟨rfl, rfl, rfl⟩
  · rw [h]
    exact .inr ⟨⟨block, (r.execute block).1, hblock, rfl, rfl, rfl⟩, rfl, rfl⟩

theorem inOrder_of_fresh {r : Run} (hh : r.history = []) (hc : r.cursor = 0) : r.InOrder := by
  refine ⟨?_, ?_⟩
  · rw [hh, hc, List.take_zero]
    rfl
  · rw [hc]
    exact Nat.zero_le _

theorem inOrder_of_rests {r r' : Run} (hr : r.InOrder) (h : r.Rests r') : r'.InOrder := by
  refine ⟨?_, ?_⟩
  · rw [h.history, h.cursor, h.stream]
    exact hr.blocks
  · rw [h.cursor, h.stream]
    exact hr.cursor_le

theorem inOrder_of_executes {r r' : Run} (hr : r.InOrder) (h : r.Executes r') : r'.InOrder := by
  obtain ⟨block, step, hblock, hid, hcommand, hhistory⟩ := h.history
  refine ⟨?_, ?_⟩
  · rw [hhistory, h.cursor, h.stream, List.take_add_one, hblock, List.map_append, List.map_append,
      hr.blocks]
    simp [hid, hcommand]
  · rw [h.cursor, h.stream]
    exact (List.getElem?_eq_some_iff.mp hblock).1

/-- A step keeps the order. -/
theorem inOrder_step {r : Run} (h : r.InOrder) (clock : Clock) : (r.step clock).run.InOrder := by
  rcases r.step_executes clock with hrests | hexecutes
  · exact inOrder_of_rests h hrests
  · exact inOrder_of_executes h hexecutes

end Run

end RobotPuzzle
