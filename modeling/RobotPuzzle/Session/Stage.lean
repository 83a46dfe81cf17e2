import RobotPuzzle.Word

/-!
# Stages of a session

A session is always in one of eight stages. `Stage.next` is the table of the moves between them.

* `not_mem_next_self`, `next_ne_nil`: every stage can be left, and only for another one.
-/

namespace RobotPuzzle

/-- Where a session stands. -/
inductive Stage where
  | menu
  | levelSelect
  | countdown
  | building
  | executing
  | paused
  | results
  | failed
  deriving DecidableEq, Repr

namespace Stage

instance : Word Stage where
  all := [.menu, .levelSelect, .countdown, .building, .executing, .paused, .results, .failed]
  spelling
    | .menu => "menu"
    | .levelSelect => "level_select"
    | .countdown => "countdown"
    | .building => "building"
    | .executing => "executing"
    | .paused => "paused"
    | .results => "results"
    | .failed => "failed"

/-- The name of a stage. -/
def name (s : Stage) : String := Word.spelling s

/-- The stages that a stage may be left for, in the order of their names. -/
def next : Stage → List Stage
  | .menu => [.levelSelect]
  | .levelSelect => [.countdown, .menu]
  | .countdown => [.building]
  | .building => [.executing, .paused]
  | .executing => [.building, .failed, .paused, .results]
  | .paused => [.building, .executing]
  | .results => [.building, .countdown, .levelSelect]
  | .failed => [.building, .countdown, .levelSelect]

/-- Whether a run has ended in the stage. -/
def isOver (s : Stage) : Bool := s == .results || s == .failed

/-- No stage may be left for itself. -/
theorem not_mem_next_self (s : Stage) : s ∉ s.next := by cases s <;> decide

/-- Every stage can be left. -/
theorem next_ne_nil (s : Stage) : s.next ≠ [] := by cases s <;> decide

end Stage

end RobotPuzzle
