import RobotPuzzle.Catalog.Basic

/-!
# Records of catalogs

The JSON records in which chapters and levels are listed.
-/

namespace RobotPuzzle

/-- The record of a chapter. -/
def Chapter.toJson (c : Chapter) : Json :=
  .obj [("chapter", .int c.number), ("name", .str c.name), ("levels", .arr (c.levels.map .int))]

/-- What is shown of a level in a list. -/
def Level.summary (level : Level) : Json :=
  .obj [("id", .int level.id), ("name", .str level.name), ("chapter", .int level.chapter),
    ("chapter_name", .str level.chapterName),
    ("difficulty", .str (Word.spelling level.difficulty)), ("max_blocks", .int level.maxBlocks),
    ("goal_type", .str (Word.spelling level.goal))]

end RobotPuzzle
