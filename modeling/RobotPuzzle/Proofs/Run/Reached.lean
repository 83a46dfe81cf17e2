import RobotPuzzle.Proofs.Run.Fold
import RobotPuzzle.Proofs.Run.Instruction
import RobotPuzzle.Proofs.Run.Order

/-!
# The moments of a run

A run of a level may be started and reset at any time, with any programs, clocks and caps. What its
history and its world have in common at every moment is proved once, for one instruction.

* `Run.Reached`: the runs of a level, at any moment.
* `Run.holds_of_reached`: what the level's initial world has, and every instruction keeps, holds at
  every moment.
* `Run.landings`: the cells that a run has landed on.
* `Run.history_onward`: until a run is started again or reset, its history only grows.
-/

namespace RobotPuzzle

/-- The cells that a run has landed on, in order. -/
def Run.landings (r : Run) : List Position := r.history.filterMap Step.landing?

namespace Run

/-- The runs of a level, with any programs, clocks and caps, at any moment. -/
inductive Reached (level : Level) : Run → Prop where
  | fresh (limit : Option Int) : Reached level (.fresh level limit)
  | start {r : Run} (h : Reached level r) (blocks : List Block) (clock : Clock) :
      Reached level (r.start blocks clock).run
  | reset {r : Run} (h : Reached level r) : Reached level r.reset
  | step {r : Run} (h : Reached level r) (clock : Clock) : Reached level (r.step clock).run

/-- The later moments of a run, until it is started again or reset. -/
inductive Onward (r : Run) : Run → Prop where
  | here : Onward r r
  | step {r' : Run} (h : Onward r r') (clock : Clock) : Onward r (r'.step clock).run

/-- What is true of a history and a world at first, and stays true when an instruction is executed
in the world and entered into the history, is true at every moment of a run. -/
theorem holds_of_reached {level : Level} {P : List Step → World → Prop}
    (hfirst : P [] level.initialWorld)
    (hnext : ∀ history world block isLast, P history world →
      let step := { Step.execute block world.robot world.tiles level.size with isLast }
      P (history ++ [step]) (step.commit world))
    {r : Run} (hr : Reached level r) : r.level = level ∧ P r.history r.world := by
  have hreset : ∀ {r : Run}, r.level = level → P r.reset.history r.reset.world := by
    rintro r rfl
    exact hfirst
  induction hr with
  | fresh limit => exact ⟨rfl, hfirst⟩
  | start h blocks clock ih =>
    unfold start
    split
    · exact ⟨ih.1, hreset ih.1⟩
    · exact ⟨ih.1, hreset ih.1⟩
  | reset h ih => exact ⟨ih.1, hreset ih.1⟩
  | @step r h clock ih =>
    obtain ⟨rfl, hp⟩ := ih
    rcases r.run_step_cases clock with ⟨outcome, hrun⟩ | ⟨block, outcome, -, hrun⟩ <;> rw [hrun]
    · exact ⟨rfl, hp⟩
    · exact ⟨rfl, hnext r.history r.world block _ hp⟩

theorem reached_onward {level : Level} {r r' : Run} (hr : Reached level r) (h : r.Onward r') :
    Reached level r' := by
  induction h with
  | here => exact hr
  | step h clock ih => exact ih.step clock

/-- What has been executed stays in the history. -/
theorem history_onward {r r' : Run} (h : r.Onward r') : r.history <+: r'.history := by
  induction h with
  | here => exact List.prefix_refl _
  | @step r' h clock ih =>
    rcases r'.step_executes clock with hrests | hexecutes
    · rw [hrests.history]
      exact ih
    · obtain ⟨_, step, -, -, -, hhistory⟩ := hexecutes.history
      rw [hhistory]
      exact ih.trans (List.prefix_append _ _)

/-- A run that is in order stays so, with the same stream. -/
theorem inOrder_onward {r r' : Run} (hr : r.InOrder) (h : r.Onward r') :
    r'.InOrder ∧ r'.stream = r.stream := by
  induction h with
  | here => exact ⟨hr, rfl⟩
  | @step r' h clock ih =>
    refine ⟨inOrder_step ih.1 clock, ?_⟩
    rcases r'.step_executes clock with hrests | hexecutes
    · exact hrests.stream.trans ih.2
    · exact hexecutes.stream.trans ih.2

/-- A run with no instruction left has executed its whole stream, each instruction once. -/
theorem map_blockId_of_isExhausted {r : Run} (hr : r.InOrder) (h : r.isExhausted = true) :
    r.history.map Step.blockId = r.stream.map Block.id := by
  have hlength : r.stream.length ≤ r.cursor := of_decide_eq_true h
  have hblocks := hr.blocks
  rw [List.take_of_length_le hlength] at hblocks
  simpa [Function.comp_def] using congrArg (List.map Prod.fst) hblocks

/-- What has been landed on stays so. -/
theorem landings_onward {r r' : Run} (h : r.Onward r') : r.landings <+: r'.landings :=
  (history_onward h).filterMap Step.landing?

/-- The run is at one of its moments with each call of `step`. -/
theorem reached_turn {level : Level} {r : Run} (hr : Reached level r) (clock : Clock) (n : Nat) :
    Reached level (r.turn clock n).run := by
  induction n with
  | zero => exact hr.step clock
  | succ n ih => exact ih.step _

end Run

end RobotPuzzle
