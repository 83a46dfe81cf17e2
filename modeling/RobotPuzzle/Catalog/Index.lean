import RobotPuzzle.Json.Comparison
import RobotPuzzle.Level.Basic

/-!
# Indexes of levels

The levels of a catalog in ascending order of their ids, and what can be asked of them: a level by
its id, the level that follows an id, the levels of a chapter, and the chapters.

* `lt_of_next?`: the level that follows an id has a greater one.
* `mem_insert`: what is in an index after a level has been put in.
-/

namespace RobotPuzzle

/-- Levels in ascending order of their ids. -/
abbrev LevelIndex := List Level

/-- What a chapter is called and which levels it has. -/
structure Chapter where
  number : Int
  name : Text
  levels : List Int
  deriving DecidableEq, Repr

namespace LevelIndex

/-- The level with an id. -/
def get? (index : LevelIndex) (id : Int) : Option Level := index.find? (·.id == id)

/-- Puts a level in its place. -/
def insert (level : Level) : LevelIndex → LevelIndex
  | [] => [level]
  | other :: rest =>
    if level.id < other.id then level :: other :: rest else other :: insert level rest

/-- The ids of the levels. -/
def ids (index : LevelIndex) : List Int := index.map Level.id

/-- The level with the least id above a given one. -/
def next? (index : LevelIndex) (id : Int) : Option Level := index.find? fun level => id < level.id

/-- The level with the least id above a number; none unless a number is given. -/
def nextAfter? (index : LevelIndex) (key : Json) : Option Level :=
  index.find? fun level => (key.isBelow? level.id).getD false

/-- The levels of a chapter. -/
def ofChapter (index : LevelIndex) (chapter : Int) : LevelIndex :=
  index.filter (·.chapter == chapter)

/-- The chapter with a number. It is called what its first level calls it. -/
def chapter (index : LevelIndex) (number : Int) : Chapter :=
  let levels := index.ofChapter number
  ⟨number, (levels.head?.map Level.chapterName).getD "", ids levels⟩

/-- The chapters in ascending order. -/
def chapters (index : LevelIndex) : List Chapter :=
  let numbers := (index.map Level.chapter).eraseDups.mergeSort fun a b => a ≤ b
  numbers.map index.chapter

theorem lt_of_next? {index : LevelIndex} {id : Int} {level : Level}
    (h : index.next? id = some level) : id < level.id := by
  simpa using List.find?_some h

theorem mem_insert {level other : Level} {index : LevelIndex} :
    other ∈ insert level index ↔ other = level ∨ other ∈ index := by
  induction index with
  | nil => simp [insert]
  | cons l rest ih =>
    unfold insert
    split
    · simp
    · simp only [List.mem_cons, ih]
      exact or_left_comm

end LevelIndex

end RobotPuzzle
