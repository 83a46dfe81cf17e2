import RobotPuzzle.Json.Basic
import RobotPuzzle.Word
import RobotPuzzle.World.Grid

/-!
# Tiles

What lies on the cells of a level. A level's tiles are a list; every search takes the first tile
that fits, and a cell without a tile is a hole.

A tile carries two annotations, whether it is active and what it is linked to. A level file may
attach to a drawn tile whatever it likes under these two names, so they are JSON values; a door is
open when its annotation counts as true.

* `Tiles.apply_append`: applying changes one list after the other is applying both at once.
* `Tiles.map_id_apply`, `Tiles.length_apply`: changes keep the tiles' ids, order and number.
-/

namespace RobotPuzzle

/-- The kinds of tiles. -/
inductive TileKind where
  | empty
  | floor
  | wall
  | start
  | goal
  | coin
  | gem
  | spike
  | pit
  | button
  | door
  deriving DecidableEq, Repr

namespace TileKind

instance : Word TileKind where
  all := [.empty, .floor, .wall, .start, .goal, .coin, .gem, .spike, .pit, .button, .door]
  spelling
    | .empty => "empty"
    | .floor => "floor"
    | .wall => "wall"
    | .start => "start"
    | .goal => "goal"
    | .coin => "coin"
    | .gem => "gem"
    | .spike => "spike"
    | .pit => "pit"
    | .button => "button"
    | .door => "door"

instance : LawfulWord TileKind := ⟨fun word => by cases word <;> decide +kernel⟩

/-- Whether the robot can always walk over tiles of this kind. -/
def isOpenGround : TileKind → Bool
  | .empty | .floor | .start | .goal | .coin | .gem | .button => true
  | .wall | .spike | .pit | .door => false

end TileKind

/-- One cell's tile. -/
structure Tile where
  id : Text
  kind : TileKind
  position : Position
  /-- Whether a door is open. -/
  active : Json
  /-- The door that a button is meant for. -/
  link : Json

namespace Tile

/-- A tile without annotations. -/
def plain (id : Text) (kind : TileKind) (position : Position) : Tile :=
  ⟨id, kind, position, .null, .null⟩

/-- Whether the robot can walk over the tile: over open ground, and through an open door. -/
def isWalkable (t : Tile) : Bool :=
  if t.kind = .door then t.active.truthy else t.kind.isOpenGround

/-- Whether the robot may move onto the tile. A spike lets it in, to its harm. -/
def admits (t : Tile) : Bool :=
  t.isWalkable || t.kind == .spike

/-- The tile at the start of a run: a door is closed. -/
def atStart (t : Tile) : Tile :=
  if t.kind = .door then { t with active := .bool false } else t

end Tile

/-- New values for some of the fields of the tile with an id. -/
structure TileChange where
  id : Text
  kind : Option TileKind
  active : Option Bool
  deriving DecidableEq, Repr

namespace TileChange

/-- The tile becomes floor. -/
def toFloor (id : Text) : TileChange := ⟨id, some .floor, none⟩

/-- The change on one tile: nothing unless the tile has the id. -/
def on (c : TileChange) (t : Tile) : Tile :=
  if c.id = t.id then
    { t with
      kind := c.kind.getD t.kind
      active := (c.active.map Json.bool).getD t.active }
  else t

theorem id_on (c : TileChange) (t : Tile) : (c.on t).id = t.id := by
  unfold on; split <;> rfl

theorem position_on (c : TileChange) (t : Tile) : (c.on t).position = t.position := by
  unfold on; split <;> rfl

end TileChange

/-- The tiles of a level, in the order in which they are searched. -/
abbrev Tiles := List Tile

namespace Tiles

/-- The tile on a cell. -/
def at? (tiles : Tiles) (p : Position) : Option Tile :=
  tiles.find? fun t => t.position.row == p.row && t.position.col == p.col

/-- Whether the robot may move onto a cell: the grid has it, and its tile lets the robot in. -/
def canEnter (tiles : Tiles) (size : GridSize) (p : Position) : Bool :=
  size.has p && (tiles.at? p).any Tile.admits

/-- The first tile of a kind. -/
def firstOf? (tiles : Tiles) (kind : TileKind) : Option Tile :=
  tiles.find? fun t => t.kind == kind

/-- The door that a button works. Every button works the first door that is left, whatever it is
linked to. -/
def doorOf? (tiles : Tiles) (_button : Option Tile) : Option Tile :=
  tiles.firstOf? .door

/-- The tile that ends a level. -/
def goal? (tiles : Tiles) : Option Tile :=
  tiles.firstOf? .goal

/-- How many tiles are of a kind. -/
def count (tiles : Tiles) (kind : TileKind) : Nat :=
  tiles.countP fun t => t.kind == kind

/-- The tiles at the start of a run. -/
def atStart (tiles : Tiles) : Tiles :=
  tiles.map Tile.atStart

/-- The tiles after changes, one after the other. -/
def apply (tiles : Tiles) (changes : List TileChange) : Tiles :=
  tiles.map fun t => changes.foldl (fun t c => c.on t) t

theorem apply_nil (tiles : Tiles) : tiles.apply [] = tiles := by
  simp [apply]

theorem apply_append (tiles : Tiles) (a b : List TileChange) :
    tiles.apply (a ++ b) = (tiles.apply a).apply b := by
  simp [apply]

theorem length_apply (tiles : Tiles) (changes : List TileChange) :
    (tiles.apply changes).length = tiles.length := by
  simp [apply]

private theorem id_foldl_on (changes : List TileChange) (t : Tile) :
    (changes.foldl (fun t c => c.on t) t).id = t.id := by
  induction changes generalizing t with
  | nil => rfl
  | cons c rest ih => rw [List.foldl_cons, ih, TileChange.id_on]

theorem map_id_apply (tiles : Tiles) (changes : List TileChange) :
    (tiles.apply changes).map Tile.id = tiles.map Tile.id := by
  simp only [apply, List.map_map]
  exact List.map_congr_left fun t _ => id_foldl_on changes t

end Tiles

end RobotPuzzle
