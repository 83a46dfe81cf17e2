import RobotPuzzle.Json.Comparison
import RobotPuzzle.Progress.Folder
import RobotPuzzle.Progress.Ledger

/-!
# Progress stores

Progress is kept in memory or in a folder. What the stores have in common is said once, over the
three operations `get`, `save` and `all`: recording an outcome merges it and, if the level was
completed, unlocks the level that follows; level one is always open, and every other level is open
when its record says so or the level with the id before it has been completed.

* `isUnlocked_of_le_one`: level one is always open.
* `find_int`, `isOpen_int`: an integer names the level with the id.
-/

namespace RobotPuzzle

/-- Where progress is kept. -/
inductive Store where
  | memory (ledger : Ledger)
  | files (folder : Folder)
  deriving DecidableEq, Repr

namespace Store

/-- The record of a level. -/
def get (s : Store) (id : Int) : Except Fault (Option Progress) :=
  match s with
  | .memory ledger => .ok (ledger.get? id)
  | .files folder => folder.get id

/-- Saves a record. -/
def save (s : Store) (p : Progress) : Store :=
  match s with
  | .memory ledger => .memory (ledger.save p)
  | .files folder => .files (folder.save p)

/-- All records, in ascending order of their level ids. -/
def all (s : Store) : Except Fault (List Progress) :=
  match s with
  | .memory ledger => .ok ledger.entries
  | .files folder => folder.all

/-- Makes the store ready for use. -/
def prepare (s : Store) : Store :=
  match s with
  | .memory ledger => .memory ledger
  | .files folder => .files folder.create

/-- The level that every player may start with. -/
def firstLevel : Int := 1

/-- Opens a level, keeping what it has. -/
def unlock (s : Store) (id : Int) : Except Fault Store := do
  match ← s.get id with
  | none => pure (s.save (.opened id))
  | some p => pure (if p.unlocked then s else s.save { p with unlocked := true })

/-- Records an outcome, and unlocks a level after a completed one. The store is returned also when a
fault comes up on the way. -/
def recordThen (s : Store) (o : Outcome) (unlockNext : Store → Except Fault Store) :
    Except Fault Progress × Store :=
  match s.get o.levelId with
  | .error fault => (.error fault, s)
  | .ok current =>
    let updated := Progress.mergeInto current o
    let saved := s.save updated
    if o.completed then
      match unlockNext saved with
      | .ok opened => (.ok updated, opened)
      | .error fault => (.error fault, saved)
    else (.ok updated, saved)

/-- Records an outcome, and unlocks the next level after a completed one: the level with the given
id, or the one with the next id. -/
def record (s : Store) (o : Outcome) (next : Option Int) : Except Fault Progress × Store :=
  s.recordThen o fun saved => saved.unlock (next.getD (o.levelId + 1))

/-- Whether a level may be played. -/
def isUnlocked (s : Store) (id : Int) : Except Fault Bool :=
  if id ≤ firstLevel then .ok true
  else do
    if (← s.get id).any (·.unlocked) then pure true
    else pure ((← s.get (id - 1)).any (·.completed))

/-- The stars of all levels together. -/
def totalStars (s : Store) : Except Fault Int := do
  pure ((← s.all).foldr (fun p total => p.stars + total) 0)

/-! ## Asking by a JSON value

A level may be asked for by any JSON value. A number that is equal to an id names the level with the
id. A ledger in memory knows of no level by other values, except that arrays and objects cannot be
looked up at all; files can only be numbered with integers. -/

/-- The record of the level that a value names. -/
def find (s : Store) (key : Json) : Except Fault (Option Progress) :=
  match s with
  | .memory ledger =>
    if key.isKey then .ok (key.whole?.bind ledger.get?) else .error .wrongKind
  | .files folder =>
    match key with
    | .int id => folder.get id
    | .bool b => folder.get (if b then 1 else 0)
    | .real _ | .str _ => .error (.badFileNumber key)
    | .null | .arr _ | .obj _ => .error .wrongKind

/-- Whether the level that a number names may be played. -/
def isOpen (s : Store) (key : Json) : Except Fault Bool :=
  match key.isAtMost? firstLevel with
  | none => .error .wrongKind
  | some true => .ok true
  | some false => do
    if (← s.find key).any (·.unlocked) then pure true
    else pure ((← s.find key.pred).any (·.completed))

/-- Opens the level that a value names, keeping what it has. A value that names no level with a
record has to be the id of one. -/
def openNamed (s : Store) (key : Json) : Except Fault Store := do
  match ← s.find key with
  | none => do
    let id ← ((Field.integer key).under "level_id").result
    pure (s.save (.opened id))
  | some p => pure (if p.unlocked then s else s.save { p with unlocked := true })

/-- Records an outcome, and opens the level that a value names after a completed one. -/
def recordNaming (s : Store) (o : Outcome) (next : Json) : Except Fault Progress × Store :=
  s.recordThen o fun saved => saved.openNamed next

theorem find_int (s : Store) (id : Int) : s.find (.int id) = s.get id := by
  cases s <;> rfl

theorem isOpen_int (s : Store) (id : Int) : s.isOpen (.int id) = s.isUnlocked id := by
  by_cases h : id ≤ firstLevel <;>
    simp [isOpen, isUnlocked, Json.isAtMost?_int, Json.pred, find_int, h]

theorem isUnlocked_of_le_one {id : Int} (h : id ≤ 1) (s : Store) : s.isUnlocked id = .ok true := by
  simp [isUnlocked, firstLevel, h]

end Store

end RobotPuzzle
