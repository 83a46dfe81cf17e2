import RobotPuzzle.Json.Number
import RobotPuzzle.Level.Record

/-!
# Reading levels

A level is written down as a JSON object. Its tiles are either listed, or drawn as a layout with one
symbol for each tile; a drawn tile may be annotated by an entry of the tile list with its id. The
grid's extent may be left to the layout, and the start to the layout's only start tile.

A level that has been read is checked as a whole: every tile lies inside the grid, no two share a
cell or an id, the start is inside the grid, and there is exactly one goal tile where the goal asks
for one. `Level.read` takes any JSON value; what is of the wrong kind is a fault.

* `Layout.legend_injective`: no two symbols draw the same kind of tile.
-/

namespace RobotPuzzle

namespace Layout

/-- The symbols that tiles are drawn with. -/
def legend : List (Char × TileKind) :=
  [('.', .floor), ('_', .empty), ('#', .wall), ('S', .start), ('G', .goal), ('o', .coin),
    ('*', .gem), ('^', .spike), ('x', .pit), ('b', .button), ('D', .door)]

/-- The kind of tile that a symbol draws. -/
def kindOf? : Text → Option TileKind
  | [.char c] => legend.lookup c
  | _ => none

/-- The members of a value that can be gone through: the code points of a text, the items of an
array, the names of an object. -/
def members : Json → Except Fault (List Json)
  | .str s => .ok (s.map fun p => .str [p])
  | .arr items => .ok items
  | .obj fields => .ok (fields.map fun (name, _) => .str name)
  | _ => .error .wrongKind

/-- The id of the tile drawn in a row and column. -/
def tileId (row col : Nat) : Text := s!"t-{row}-{col}"

/-- The tile that a symbol draws. -/
def tile (source : Text) (row col : Nat) (symbol : Json) : Except Fault Tile :=
  if symbol.isKey then
    match symbol with
    | .str s =>
      match kindOf? s with
      | some kind => .ok (.plain (tileId row col) kind ⟨row, col⟩)
      | none => .error (.level source (.unknownSymbol symbol row col))
    | _ => .error (.level source (.unknownSymbol symbol row col))
  else .error .wrongKind

/-- The tiles of a row, from a column on. -/
def rowTiles (source : Text) (row col : Nat) : List Json → Except Fault Tiles
  | [] => .ok []
  | symbol :: rest => do
    let t ← tile source row col symbol
    let more ← rowTiles source row (col + 1) rest
    pure (t :: more)

/-- The tiles of a layout, from a row on. -/
def tilesFrom (source : Text) (row : Nat) : List Json → Except Fault Tiles
  | [] => .ok []
  | line :: rest => do
    let symbols ← members line
    let here ← rowTiles source row 0 symbols
    let below ← tilesFrom source (row + 1) rest
    pure (here ++ below)

/-- The extent of a layout: its rows, and the columns of its longest row. -/
def extent (layout : Json) : Except Fault Json := do
  let lines ← members layout
  let widths ← lines.mapM fun line => return (← members line).length
  match widths.max? with
  | none => .error .emptyLayout
  | some cols => pure (.obj [("rows", .int lines.length), ("cols", .int cols)])

theorem legend_injective :
    ∀ p ∈ legend, ∀ q ∈ legend, p.2 = q.2 → p = q := by decide

end Layout

namespace Level

/-- The annotations of a tile in a tile list, by the tile's id. -/
abbrev Annotations := List (Text × Fields)

/-- Collects the annotations of a tile list; entries that are no objects are passed over. The last
entry for an id counts, and an entry whose id is no text can be meant for no tile. -/
def annotations : List Json → Except Fault Annotations
  | [] => .ok []
  | .obj entry :: rest =>
    match Fields.get? entry "id" with
    | none => .error (.missingField "id")
    | some (.str id) => do
      let later ← annotations rest
      pure (if later.any (·.1 == id) then later else (id, entry) :: later)
    | some key => if key.isKey then annotations rest else .error .wrongKind
  | _ :: rest => annotations rest

/-- A drawn tile with the annotations that are meant for it, as they stand. -/
def annotate (notes : Annotations) (t : Tile) : Tile :=
  match notes.lookup t.id with
  | none => t
  | some entry =>
    { t with
      active := (entry.get? "is_active").getD t.active
      link := (entry.get? "linked_to").getD t.link }

/-- The tiles of a layout with their annotations. -/
def drawnTiles (source : Text) (fields : Fields) (layout : Json) : Except Fault Tiles := do
  let lines ← Layout.members layout
  let tiles ← Layout.tilesFrom source 0 lines
  let entries ← Layout.members ((fields.get? "tiles").getD (.arr []))
  let notes ← annotations entries
  pure (tiles.map (annotate notes))

/-- Whether a field is there and not null. -/
def isGiven (fields : Fields) (name : Text) : Bool :=
  match fields.get? name with
  | none | some .null => false
  | some _ => true

/-- The fields of the position of a listed tile: its own record, or the tile's row and column. -/
def positionFields (entry : Fields) : Except Fault Fields :=
  match entry.get? "position" with
  | some (.obj position) => .ok position
  | some _ => .error .notRecord
  | none =>
    .ok [("row", (entry.get? "row").getD .null), ("col", (entry.get? "col").getD .null)]

/-- A listed tile. Its id, if it has none, tells its row and column. -/
def listedTile (source : Text) (entry : Fields) : Except Fault Tile := do
  let position ← positionFields entry
  if !(isGiven position "row" && isGiven position "col") then
    throw (.level source (.noPosition ((entry.get? "id").getD .null)))
  let row := (position.get? "row").getD .null
  let col := (position.get? "col").getD .null
  let id := (entry.get? "id").getD (.str ("t-" ++ row.text ++ "-" ++ col.text))
  match entry.get? "type" with
  | none => throw (.missingField "type")
  | some kind =>
    (Tile.check (.obj [("id", id), ("type", kind), ("position", .obj position),
      ("is_active", (entry.get? "is_active").getD .null),
      ("linked_to", (entry.get? "linked_to").getD .null)])).result

/-- The tiles of a tile list; entries that are no objects are passed over. -/
def listedTiles (source : Text) : List Json → Except Fault Tiles
  | [] => .ok []
  | .obj entry :: rest => do
    let t ← listedTile source entry
    let more ← listedTiles source rest
    pure (t :: more)
  | _ :: rest => listedTiles source rest

/-- Whether `part` stands somewhere in a text. -/
def occursIn (part : Text) : Text → Bool
  | [] => part.isEmpty
  | p :: rest => part.isPrefixOf (p :: rest) || occursIn part rest

/-- Whether a value names a member: an object a field, an array a text that is one of its items, a
text a part of it. -/
def mentions (j : Json) (name : Text) : Except Fault Bool :=
  match j with
  | .obj fields => .ok (Fields.has fields name)
  | .arr items => .ok (items.any fun | .str s => s == name | _ => false)
  | .str s => .ok (occursIn name s)
  | _ => .error .wrongKind

/-- The fields that every level needs. -/
def requiredFields : List String := ["id", "name", "available_commands", "max_blocks"]

/-- The needed fields that a value lacks. Tiles may be listed or drawn, and only a layout can stand
for the grid's extent. -/
def missingFields (j : Json) : Except Fault (List String) := do
  let missing ← requiredFields.filterM fun name : String => return !(← mentions j name)
  let tiles ← mentions j "tiles"
  let layout ← mentions j "layout"
  let size ← mentions j "grid_size"
  pure (missing ++ (if tiles || layout then [] else ["tiles|layout"]) ++
    (if layout || size then [] else ["grid_size"]))

/-- The extent of the grid as it is written down, or else that of the layout. -/
def extentOf (fields : Fields) : Except Fault Json :=
  match fields.get? "grid_size" with
  | none | some .null =>
    match fields.get? "layout" with
    | some layout => Layout.extent layout
    | none => .error (.missingField "layout")
  | some size => .ok size

/-- The start: the only start tile, unless the level says where. A pair of numbers is a row and a
column. -/
def startOf (source : Text) (fields : Fields) (tiles : Tiles) : Except Fault Json :=
  match fields.get? "start_position" with
  | none | some .null =>
    match tiles.filter (·.kind == .start) with
    | [t] => .ok t.position.toJson
    | starts => .error (.level source (.startTiles starts.length))
  | some (.arr pair) =>
    match pair with
    | [] => .error .noItem
    | row :: rest => do
      let row ← row.integerValue
      match rest with
      | [] => throw .noItem
      | col :: _ =>
        let col ← col.integerValue
        pure (Position.toJson ⟨row, col⟩)
  | some start => .ok start

/-- The first fault of the tiles of a grid: one outside, one on the cell of another, or one with the
id of another. `seen` are the tiles before. -/
def tileFault? (size : GridSize) (seen : Tiles) : Tiles → Option LevelFault
  | [] => none
  | t :: rest =>
    if !size.has t.position then some (.outsideGrid t.id)
    else if seen.any (·.position == t.position) then some (.sharedCell t.position)
    else if seen.any (·.id == t.id) then some (.sharedId t.id)
    else tileFault? size (t :: seen) rest

/-- The first fault of a level as a whole. -/
def gridFault? (level : Level) : Option LevelFault :=
  match tileFault? level.size [] level.tiles with
  | some fault => some fault
  | none =>
    let goals := level.tiles.count .goal
    if !level.size.has level.start then some .startOutside
    else if level.goal.needsTile && goals != 1 then some (.goalTiles level.goal goals)
    else none

/-- The tiles of a level, drawn or listed. -/
def tilesOf (source : Text) (fields : Fields) : Except Fault Tiles :=
  match fields.get? "layout" with
  | some layout => drawnTiles source fields layout
  | none =>
    match fields.get? "tiles" with
    | some entries => do listedTiles source (← Layout.members entries)
    | none => .error (.missingField "tiles")

/-- Reads a level from its fields. -/
def readFields (source : Text) (fields : Fields) : Except Fault Level := do
  let tiles ← tilesOf source fields
  let size ← extentOf fields
  let start ← startOf source fields tiles
  let level ← (checkWith (.good tiles)
    ((fields.set "grid_size" size).set "start_position" start)).result
  match level.gridFault? with
  | some fault => throw (.level source fault)
  | none => pure level

/-- Reads a level that was found in a source. -/
def read (source : Text) (j : Json) : Except Fault Level := do
  let missing ← missingFields j
  if missing.isEmpty then
    match j with
    | .obj fields => readFields source fields
    | _ => throw .wrongKind
  else throw (.level source (.missingFields missing))

end Level

end RobotPuzzle
