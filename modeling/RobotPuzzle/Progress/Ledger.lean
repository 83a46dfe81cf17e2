import RobotPuzzle.Progress.Basic

/-!
# Ledgers in memory

The progress on the levels that have some, in ascending order of their ids.

* `get?_save_self`, `get?_save_of_ne`: what is found after a save.
-/

namespace RobotPuzzle

/-- Progress records in ascending order of their level ids. -/
structure Ledger where
  entries : List Progress
  deriving DecidableEq, Repr

namespace Ledger

/-- A ledger without records. -/
def empty : Ledger := ⟨[]⟩

/-- The record of a level. -/
def get? (l : Ledger) (id : Int) : Option Progress :=
  l.entries.find? (·.levelId == id)

/-- Puts a record in its place, in the stead of one for the same level. -/
def insert (p : Progress) : List Progress → List Progress
  | [] => [p]
  | q :: rest =>
    if p.levelId < q.levelId then p :: q :: rest
    else if p.levelId = q.levelId then p :: rest
    else q :: insert p rest

/-- Saves a record. -/
def save (l : Ledger) (p : Progress) : Ledger := ⟨insert p l.entries⟩

theorem get?_save_self (l : Ledger) (p : Progress) : (l.save p).get? p.levelId = some p := by
  unfold get? save
  induction l.entries with
  | nil => simp [insert]
  | cons q rest ih =>
    unfold insert
    split
    · simp
    · split
      · simp
      · next h =>
        have hq : (q.levelId == p.levelId) = false := by simpa using fun e => h e.symm
        simpa [List.find?_cons, hq] using ih

theorem get?_save_of_ne {p : Progress} {id : Int} (h : id ≠ p.levelId) (l : Ledger) :
    (l.save p).get? id = l.get? id := by
  have hp : (p.levelId == id) = false := by simpa using h.symm
  unfold get? save
  induction l.entries with
  | nil => simp [insert, hp]
  | cons q rest ih =>
    unfold insert
    split
    · simp [List.find?_cons, hp]
    · split
      · next e => simp [hp, ← e]
      · simp only [List.find?_cons]; split <;> simp_all

end Ledger

end RobotPuzzle
