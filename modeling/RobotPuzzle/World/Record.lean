import RobotPuzzle.Record.Field
import RobotPuzzle.World.Basic

/-!
# Records of the world

The JSON records of cells, grids, tiles, tile changes, robots and worlds, and how they are checked.

* `Position.check_toJson`, `GridSize.check_toJson`: what is written reads back.
-/

namespace RobotPuzzle

namespace Position

/-- The record of a cell. -/
def toJson (p : Position) : Json := .obj [("row", .int p.row), ("col", .int p.col)]

/-- Checks the record of a cell. -/
def check : Field.Check Position := Field.record fun f =>
  mk <$> f.required "row" Field.integer <*> f.required "col" Field.integer

theorem check_toJson (p : Position) : check p.toJson = .good p := rfl

end Position

namespace GridSize

/-- The record of a grid's extent. -/
def toJson (size : GridSize) : Json := .obj [("rows", .int size.rows), ("cols", .int size.cols)]

/-- Checks the record of a grid's extent: there is a row and a column. -/
def check : Field.Check GridSize := Field.record fun f =>
  mk <$> f.required "rows" (Field.atLeast 1) <*> f.required "cols" (Field.atLeast 1)

theorem check_toJson {size : GridSize} (hr : 1 ≤ size.rows) (hc : 1 ≤ size.cols) :
    check size.toJson = .good size := by
  simp [check, toJson, Field.record, Fields.required, Fields.get?, Field.atLeast, Field.integer,
    Checked.andThen, Checked.under, hr, hc, Seq.seq, Functor.map, Checked.seq, Checked.map]

end GridSize

namespace Tile

/-- The record of a tile. Of its annotations numbers that are not finite are left out. -/
def toJson (t : Tile) : Json :=
  .obj [("id", .str t.id), ("type", .str (Word.spelling t.kind)), ("position", t.position.toJson),
    ("is_active", t.active.finite), ("linked_to", t.link.finite)]

/-- Checks the record of a tile. -/
def check : Field.Check Tile := Field.record fun f =>
  mk <$> f.required "id" Field.text
    <*> f.required "type" Field.word
    <*> f.required "position" Position.check
    <*> (Json.orNull Json.bool <$> f.optional "is_active" none (Field.nullable Field.boolean))
    <*> (Json.orNull Json.str <$> f.optional "linked_to" none (Field.nullable Field.text))

end Tile

/-- The records of tiles. -/
def Tiles.toJson (tiles : Tiles) : Json := .arr (tiles.map Tile.toJson)

namespace TileChange

/-- The record of a tile change. -/
def toJson (c : TileChange) : Json :=
  .obj [("id", .str c.id), ("type", Json.orNull (fun k => .str (Word.spelling k)) c.kind),
    ("is_active", Json.orNull .bool c.active)]

/-- Checks the record of a tile change. -/
def check : Field.Check TileChange := Field.record fun f =>
  mk <$> f.required "id" Field.text
    <*> f.optional "type" none (Field.nullable Field.word)
    <*> f.optional "is_active" none (Field.nullable Field.boolean)

end TileChange

namespace Robot

/-- The record of a robot. -/
def toJson (r : Robot) : Json :=
  .obj [("position", r.position.toJson), ("direction", .str (Word.spelling r.direction)),
    ("is_jumping", .bool r.jumping), ("is_moving", .bool r.moving), ("coins", .int r.coins),
    ("gems", .int r.gems), ("energy", .int r.energy)]

/-- Checks the record of a robot. -/
def check : Field.Check Robot := Field.record fun f =>
  mk <$> f.required "position" Position.check
    <*> f.optional "direction" .right Field.word
    <*> f.optional "is_jumping" false Field.boolean
    <*> f.optional "is_moving" false Field.boolean
    <*> f.optional "coins" 0 Field.integer
    <*> f.optional "gems" 0 Field.integer
    <*> f.optional "energy" 100 Field.integer

end Robot

namespace World

/-- The record of a world. -/
def toJson (w : World) : Json :=
  .obj [("grid_size", w.size.toJson), ("tiles", w.tiles.toJson), ("robot", w.robot.toJson)]

/-- Checks the record of a world. -/
def check : Field.Check World := Field.record fun f =>
  mk <$> f.required "grid_size" GridSize.check
    <*> f.optional "tiles" [] (Field.list Tile.check)
    <*> f.required "robot" Robot.check

end World

end RobotPuzzle
