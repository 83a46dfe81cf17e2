import RobotPuzzle.Proofs.Level.Fields
import RobotPuzzle.Proofs.Level.Layout
import RobotPuzzle.World.Render

/-!
# Drawing what a layout drew

The world that a level begins with can be drawn with the symbols of the legend. For a level that was
read from a layout the drawing is the layout again, with a hole wherever the grid is larger. The
annotations of tiles are not drawn, and doors are closed at first.

* `Tile.symbol_atStart`: at the start of a run a tile is drawn by its kind alone.
* `Layout.symbols_kindOf`: the symbol for what a symbol draws is that symbol.
* `Level.lines_render`: the lines of the drawing.
* `Level.drawsBack_of_read`: reading and drawing are inverse.
-/

namespace RobotPuzzle

/-- A tile without its annotations. -/
def Tile.bare (t : Tile) : Tile := .plain t.id t.kind t.position

/-- The symbol of a cell without a tile. -/
def hole : CodePoint := .char '?'

namespace Layout

/-- The usual symbols, but for empty ground, which the legend has a symbol for. -/
def symbols : Symbols := Symbols.standard.replace [(.empty, "_")]

/-- A row of a layout as it is drawn in a grid of so many columns. -/
def padded (cols : Nat) (line : Text) : Text := line ++ List.replicate (cols - line.length) hole

/-- Behind a row there are holes alone. -/
theorem eq_hole_of_padded {cols col : Nat} {text : Text} {p : CodePoint}
    (hp : (padded cols text)[col]? = some p) (hnone : text[col]? = none) : p = hole := by
  rw [padded, List.getElem?_append_right (List.getElem?_eq_none_iff.mp hnone)] at hp
  exact List.eq_of_mem_replicate (List.mem_of_getElem? hp)

/-! ## Symbols -/

/-- The symbol for what a symbol draws is that symbol. -/
theorem symbols_kindOf {p : CodePoint} (h : (kindOf? [p]).isSome = true) :
    symbols (kindOf p) = [p] := by
  obtain ⟨kind, hkind⟩ := Option.isSome_iff_exists.mp h
  obtain ⟨c, rfl, hmem⟩ := mem_legend_of_kindOf? hkind
  have hlegend : ∀ q ∈ legend, symbols q.2 = [.char q.1] := by decide
  rw [kindOf, hkind]
  exact hlegend _ hmem

/-- No symbol is a line feed. -/
theorem ne_feed_of_kindOf? {p : CodePoint} (h : (kindOf? [p]).isSome = true) : .char '\n' ≠ p := by
  obtain ⟨kind, hkind⟩ := Option.isSome_iff_exists.mp h
  obtain ⟨c, rfl, hmem⟩ := mem_legend_of_kindOf? hkind
  have hlegend : ∀ q ∈ legend, '\n' ≠ q.1 := by decide
  exact fun he => hlegend _ hmem (CodePoint.char.inj he)

theorem Known.symbol {rows : List Text} (h : Known rows) {row col : Nat} {p : CodePoint}
    (hp : symbol? rows row col = some p) : (kindOf? [p]).isSome = true := by
  obtain ⟨line, hline, hp⟩ := Option.bind_eq_some_iff.mp hp
  exact h line (List.mem_of_getElem? hline) p (List.mem_of_getElem? hp)

end Layout

/-- At the start of a run a tile is drawn by its kind alone. -/
theorem Tile.symbol_atStart (symbols : Symbols) (t : Tile) :
    World.tileSymbol symbols (some t.atStart) = symbols t.kind := by
  unfold World.tileSymbol atStart
  by_cases h : t.kind = .door <;> simp [h, Json.truthy]

namespace Level

open Layout

/-! ## The tiles of a layout -/

theorem annotate_eq (notes : Annotations) (t : Tile) :
    (annotate notes t).id = t.id ∧ (annotate notes t).position = t.position ∧
      (annotate notes t).kind = t.kind ∧ (annotate notes t).bare = t.bare := by
  unfold annotate
  split <;> exact ⟨rfl, rfl, rfl, rfl⟩

variable {source : Text} {fields : Fields} {rows : List Text} {level : Level}

theorem tilesOf_layout {tiles : Tiles} (hlayout : fields.get? "layout" = some (Json.texts rows))
    (h : tilesOf source fields = .ok tiles) :
    Known rows ∧ ∃ notes, tiles = (drawn rows).map (annotate notes) := by
  simp only [tilesOf, hlayout, drawnTiles] at h
  obtain ⟨lines, hlines, h⟩ := bind_eq_ok.mp h
  obtain ⟨found, hfound, h⟩ := bind_eq_ok.mp h
  obtain ⟨entries, -, h⟩ := bind_eq_ok.mp h
  obtain ⟨notes, -, h⟩ := bind_eq_ok.mp h
  obtain rfl : rows.map Json.str = lines := Except.ok.inj hlines
  obtain ⟨hknown, rfl⟩ := tilesFrom_eq_ok.mp hfound
  exact ⟨hknown, notes, (Except.ok.inj h).symm⟩

/-- Without a tile list nothing is annotated. -/
theorem tilesOf_layout_alone (hlayout : fields.get? "layout" = some (Json.texts rows))
    (htiles : fields.get? "tiles" = none) {tiles : Tiles} :
    tilesOf source fields = .ok tiles ↔ Known rows ∧ tiles = drawn rows := by
  have hplain : tilesOf source fields = tilesFrom source 0 (rows.map .str) := by
    unfold tilesOf drawnTiles
    rw [hlayout, htiles]
    simp only [members, Json.texts, Option.getD_none, annotations, bind, Except.bind]
    cases tilesFrom source 0 (rows.map .str) with
    | error fault => rfl
    | ok found => exact congrArg Except.ok (List.map_id found)
  rw [hplain]
  exact tilesFrom_eq_ok

/-- What has been read from a layout. -/
structure Drawn (level : Level) (rows : List Text) : Prop where
  known : Known rows
  /-- The tiles are those that the layout draws, with some annotations. -/
  tiles : ∃ notes, level.tiles = (drawn rows).map (annotate notes)
  inside : ∀ row col p, symbol? rows row col = some p → level.size.has ⟨row, col⟩ = true
  one_le_rows : 1 ≤ level.size.rows

theorem drawn_of_read (hlayout : fields.get? "layout" = some (Json.texts rows))
    (h : read source (.obj fields) = .ok level) : level.Drawn rows := by
  obtain ⟨-, hread⟩ := read_obj_eq_ok.mp h
  obtain ⟨hknown, notes, htiles⟩ := tilesOf_layout hlayout hread.tiles
  refine ⟨hknown, ⟨notes, htiles⟩, fun row col p hp => ?_, (wellFormed_of_read h).one_le_rows⟩
  have hmem : annotate notes (drawnTile row col p) ∈ level.tiles := by
    rw [htiles]
    exact List.mem_map_of_mem (mem_drawn.mpr ⟨row, col, p, hp, rfl⟩)
  have hin := (wellFormed_of_read h).tiles_inside _ hmem
  rw [(annotate_eq notes _).2.1] at hin
  exact hin

variable (h : level.Drawn rows)
include h

theorem Drawn.bare_tiles : level.tiles.map Tile.bare = drawn rows := by
  obtain ⟨notes, htiles⟩ := h.tiles
  rw [htiles, List.map_map]
  conv_rhs => rw [← List.map_id (drawn rows)]
  refine List.map_congr_left fun t ht => ?_
  obtain ⟨row, col, p, -, rfl⟩ := mem_drawn.mp ht
  exact (annotate_eq notes _).2.2.2

/-! ## The cells of the drawing -/

theorem Drawn.cellSymbol_initialWorld (row col : Nat) :
    level.initialWorld.cellSymbol symbols false ⟨row, col⟩ =
      [(symbol? rows row col).getD hole] := by
  obtain ⟨notes, htiles⟩ := h.tiles
  have hfound : level.tiles.atStart.at? ⟨row, col⟩ =
      (symbol? rows row col).map fun p => (annotate notes (drawnTile row col p)).atStart := by
    have hstart : ∀ t : Tile, t.atStart.position = t.position := fun t => by
      unfold Tile.atStart
      split <;> rfl
    rw [Tiles.atStart, Tiles.at?_map fun t _ => hstart t, htiles,
      Tiles.at?_map fun t _ => (annotate_eq notes t).2.1, at?_drawn, Option.map_map, Option.map_map]
    rfl
  show World.tileSymbol symbols (level.tiles.atStart.at? ⟨row, col⟩) = _
  rw [hfound]
  cases hp : symbol? rows row col with
  | none => rfl
  | some p =>
    show World.tileSymbol symbols (some (annotate notes (drawnTile row col p)).atStart) = [p]
    rw [Tile.symbol_atStart, (annotate_eq notes _).2.2.1]
    exact symbols_kindOf (h.known.symbol hp)

/-- A row of the layout is not longer than the grid is wide. -/
theorem Drawn.length_le {row : Nat} {text : Text} (htext : rows[row]? = some text) :
    text.length ≤ level.size.cols.toNat := by
  refine Nat.le_of_not_lt fun hlt => ?_
  have hp : symbol? rows row level.size.cols.toNat = some text[level.size.cols.toNat] := by
    rw [symbol?, htext]
    exact List.getElem?_eq_getElem hlt
  have hin := GridSize.has_iff.mp (h.inside _ _ _ hp)
  simp only at hin
  omega

/-- A row of the layout below the grid is empty. -/
theorem Drawn.eq_nil_of_le {row : Nat} {line : Text} (hline : rows[row]? = some line)
    (hbelow : level.size.rows ≤ row) : line = [] := by
  cases line with
  | nil => rfl
  | cons p rest =>
    have hp : symbol? rows row 0 = some p := by
      rw [symbol?, hline]
      rfl
    have hin := GridSize.has_iff.mp (h.inside _ _ _ hp)
    simp only at hin
    omega

omit h in
theorem map_getD_range (text : Text) {n : Nat} (hn : text.length ≤ n) :
    (List.range n).map (fun col => (text[col]?).getD hole) = padded n text := by
  refine List.ext_getElem? fun i => ?_
  rw [List.getElem?_map, padded, List.getElem?_append, List.getElem?_replicate]
  by_cases hlt : i < text.length
  · simp [hlt, Nat.lt_of_lt_of_le hlt hn]
  · by_cases hlt' : i < n
    · have hin : i - text.length < n - text.length := by omega
      simp [hlt, hlt', hin]
    · have hout : ¬ i - text.length < n - text.length := by omega
      simp [hlt, hlt', hout]

/-- The row of the layout at a height, which is empty where there is none. -/
theorem Drawn.length_getD_le (row : Nat) :
    ((rows[row]?).getD []).length ≤ level.size.cols.toNat := by
  cases hline : rows[row]? with
  | none => exact Nat.zero_le _
  | some line => exact h.length_le hline

theorem Drawn.cells_flatten (row : Nat) :
    (level.initialWorld.cells symbols false row).flatten =
      padded level.size.cols.toNat ((rows[row]?).getD []) := by
  have hcell : ∀ col : Nat, level.initialWorld.cellSymbol symbols false ⟨row, col⟩ =
      [(((rows[row]?).getD [])[col]?).getD hole] := by
    intro col
    rw [h.cellSymbol_initialWorld, symbol?_eq]
  rw [← map_getD_range _ (h.length_getD_le row), World.cells]
  simp only [hcell]
  rw [← List.flatMap_def, ← List.map_eq_flatMap]
  rfl

/-- **The lines of the drawing** are the rows of the layout, with holes where the grid is larger. -/
theorem Drawn.lines_render :
    Text.lines (level.initialWorld.render symbols false) =
      (List.range level.size.rows.toNat).map fun row =>
        padded level.size.cols.toNat ((rows[row]?).getD []) := by
  have hlines : level.initialWorld.lines symbols false =
      (List.range level.size.rows.toNat).map fun row =>
        padded level.size.cols.toNat ((rows[row]?).getD []) :=
    List.map_congr_left fun row _ => h.cells_flatten row
  have hrows := h.one_le_rows
  rw [World.render, Text.lines_joinWith, hlines]
  · rw [hlines]
    simp only [ne_eq, List.map_eq_nil_iff, List.range_eq_nil]
    omega
  · -- No symbol is a line feed, so the lines come apart where they were joined.
    rw [hlines]
    refine List.forall_mem_map.mpr fun row _ hfeed => ?_
    rcases List.mem_append.mp hfeed with hfeed | hfeed
    · cases hline : rows[row]? with
      | none =>
        rw [hline] at hfeed
        cases hfeed
      | some line =>
        rw [hline] at hfeed
        exact ne_feed_of_kindOf? (h.known line (List.mem_of_getElem? hline) _ hfeed) rfl
    · exact absurd (List.eq_of_mem_replicate hfeed) (by decide)

/-! ## Reading the drawing -/

omit h

/-- The drawing of the world that a level begins with, without the robot, line by line. -/
def drawing (level : Level) : List Text :=
  Text.lines (level.initialWorld.render symbols false)

/-- The layout has a row for each row of the grid, and a symbol for each cell. -/
structure FilledBy (level : Level) (rows : List Text) : Prop where
  height : (rows.length : Int) = level.size.rows
  width : ∀ line ∈ rows, (line.length : Int) = level.size.cols

/-- Two objects differ in no field but the layout and the tiles. -/
def SameButTiles (fields other : Fields) : Prop :=
  ∀ name : Text, name ≠ "layout" → name ≠ "tiles" → other.get? name = fields.get? name

/-- The drawing of a level and the layout that it was read from. -/
structure DrawsBack (level : Level) (source : Text) (fields : Fields) (rows : List Text) :
    Prop where
  height : (level.drawing.length : Int) = level.size.rows
  width : ∀ line ∈ level.drawing, (line.length : Int) = level.size.cols
  /-- A row of the layout begins the line at its height; one below the grid is empty. -/
  begins : ∀ (row : Nat) (line : Text), rows[row]? = some line →
    line <+: (level.drawing[row]?).getD []
  /-- All other cells of the drawing are holes. -/
  holes : ∀ row col p, symbol? level.drawing row col = some p → symbol? rows row col = none →
    p = hole
  /-- A layout that fills the grid is drawn as it is. -/
  filled : level.FilledBy rows → level.drawing = rows
  /-- The drawing is then read as the same level, with the same tiles but for the annotations. -/
  again : level.FilledBy rows → ∀ other : Fields, SameButTiles fields other →
    other.get? "layout" = some (Json.texts level.drawing) → other.get? "tiles" = none →
    read source (.obj other) = .ok { level with tiles := level.tiles.map Tile.bare }

theorem drawing_eq_of_filledBy (h : level.Drawn rows) (hfilled : level.FilledBy rows) :
    level.drawing = rows := by
  have hrows : level.size.rows.toNat = rows.length := by
    have := hfilled.height
    omega
  rw [drawing, h.lines_render, hrows]
  refine List.ext_getElem? fun row => ?_
  rw [List.getElem?_map]
  by_cases hlt : row < rows.length
  · have hcols := hfilled.width _ (List.getElem_mem hlt)
    have hnone : level.size.cols.toNat - rows[row].length = 0 := by omega
    simp [hlt, padded, hnone]
  · simp [hlt]

theorem startOf_bare {other : Fields} {tiles : Tiles} {start : Json}
    (hsame : other.get? "start_position" = fields.get? "start_position")
    (h : startOf source fields tiles = .ok start) :
    startOf source other (tiles.map Tile.bare) = .ok start := by
  cases hgiven : isGiven fields "start_position" with
  | true => exact (startOf_of_given hgiven hsame _ _).trans h
  | false =>
    obtain ⟨t, ht, rfl⟩ := (startOf_of_tiles hgiven).mp h
    have hother : isGiven other "start_position" = false := by
      rw [isGiven, hsame]
      exact hgiven
    refine (startOf_of_tiles hother).mpr ⟨t.bare, ?_, rfl⟩
    rw [List.filter_map]
    exact congrArg (List.map Tile.bare) ht

theorem gridFault?_bare (h : level.gridFault? = none) :
    gridFault? { level with tiles := level.tiles.map Tile.bare } = none := by
  obtain ⟨hinside, hdistinct, hstart, hgoal⟩ := gridFault?_eq_none.mp h
  refine gridFault?_eq_none.mpr ⟨List.forall_mem_map.mpr hinside,
    hdistinct.map fun t _ => ⟨rfl, rfl⟩, hstart, fun hneeds => ?_⟩
  rw [Tiles.count, List.countP_map]
  exact hgoal hneeds

/-- An object with the same layout and without a tile list is read as the same level, with its
tiles as they are drawn. -/
theorem read_bare {other : Fields} (h : read source (.obj fields) = .ok level)
    (hsame : SameButTiles fields other) (hlayout : fields.get? "layout" = some (Json.texts rows))
    (hlayout' : other.get? "layout" = some (Json.texts rows)) (htiles : other.get? "tiles" = none) :
    read source (.obj other) = .ok { level with tiles := level.tiles.map Tile.bare } := by
  have hdrawn := drawn_of_read hlayout h
  obtain ⟨hcommands, hread⟩ := (read_of_layout (Fields.has_of_get? hlayout)).mp h
  obtain ⟨size, hsize, hsize'⟩ := hread.size
  obtain ⟨start, hstart, hstart'⟩ := hread.start
  have hextent : extentOf other = extentOf fields := by
    rw [extentOf, extentOf, hsame _ (by decide) (by decide), hlayout, hlayout']
  refine (read_of_layout (Fields.has_of_get? hlayout')).mpr ⟨?_, ?_⟩
  · exact (Fields.has_congr (hsame _ (by decide) (by decide))).trans hcommands
  · exact
      { tiles := (tilesOf_layout_alone hlayout' htiles).mpr ⟨hdrawn.known, hdrawn.bare_tiles⟩
        size := ⟨size, hextent.trans hsize, hsize'⟩
        start := ⟨start, startOf_bare (hsame _ (by decide) (by decide)) hstart, hstart'⟩
        described := (hread.described.with_grid _ _ _).congr fun name hname => hsame name
          (by rintro he; exact hname (by simp_all [gridFields]))
          (by rintro he; exact hname (by simp_all [gridFields]))
        grid := gridFault?_bare hread.grid }

/-- **Drawing is the inverse of reading a layout.** The world that the level begins with is drawn as
the layout was, with holes where the grid is larger; and a layout that fills the grid is read from
its drawing again. -/
theorem drawsBack_of_read (hlayout : fields.get? "layout" = some (Json.texts rows))
    (h : read source (.obj fields) = .ok level) : level.DrawsBack source fields rows := by
  have hdrawn := drawn_of_read hlayout h
  have hwell := wellFormed_of_read h
  have hlines : level.drawing = (List.range level.size.rows.toNat).map fun row =>
      padded level.size.cols.toNat ((rows[row]?).getD []) := hdrawn.lines_render
  refine
    { height := ?_
      width := ?_
      begins := fun row line hline => ?_
      holes := fun row col p hp hnone => ?_
      filled := drawing_eq_of_filledBy hdrawn
      again := fun hfilled other hsame hlayout' htiles => ?_ }
  · have hrows := hwell.one_le_rows
    rw [hlines, List.length_map, List.length_range]
    omega
  · rw [hlines]
    refine List.forall_mem_map.mpr fun row _ => ?_
    have hle := hdrawn.length_getD_le row
    have hcols := hwell.one_le_cols
    rw [padded, List.length_append, List.length_replicate]
    omega
  · by_cases hlt : row < level.size.rows.toNat
    · rw [hlines, List.getElem?_map, List.getElem?_range hlt, Option.map_some, hline]
      exact List.prefix_append line _
    · rw [hdrawn.eq_nil_of_le hline (by omega)]
      exact List.nil_prefix
  · obtain ⟨line, hline, hcell⟩ := Option.bind_eq_some_iff.mp hp
    rw [hlines, List.getElem?_map] at hline
    obtain ⟨row', hrow, rfl⟩ := Option.map_eq_some_iff.mp hline
    obtain ⟨_, rfl⟩ := List.getElem?_eq_some_iff.mp hrow
    rw [List.getElem_range] at hcell
    rw [symbol?_eq] at hnone
    exact eq_hole_of_padded hcell hnone
  · rw [drawing_eq_of_filledBy hdrawn hfilled] at hlayout'
    exact read_bare h hsame hlayout hlayout' htiles

end Level

/-! ## A sample -/

/-- A layout with empty ground and a door. -/
def courtRows : List Text := ["S_D", "b.G"]

/-- A level with that layout. -/
def courtFields : Fields :=
  [("id", .int 5), ("name", .str "Court"), ("available_commands", .arr []), ("max_blocks", .int 4),
    ("layout", Json.texts courtRows)]

/-- The same level with an open door. -/
def courtNotes : Fields :=
  ("tiles", .arr [.obj [("id", .str "t-0-2"), ("is_active", .bool true)]]) :: courtFields

/-- The level with the open door is drawn as it was, and read from its drawing with the door as it
is drawn. -/
theorem drawsBack_court :
    ∃ level, Level.read "court.json" (.obj courtNotes) = .ok level ∧ level.drawing = courtRows ∧
      Level.read "court.json" (.obj courtFields) =
        .ok { level with tiles := level.tiles.map Tile.bare } := by
  have hsome : (Level.read "court.json" (.obj courtNotes)).toOption.map Level.size =
      some ⟨2, 3⟩ := by decide +kernel
  obtain ⟨level, hlevel, hsize⟩ := Option.map_eq_some_iff.mp hsome
  have hread : Level.read "court.json" (.obj courtNotes) = .ok level := by
    cases hr : Level.read "court.json" (.obj courtNotes) with
    | error fault => simp [hr, Except.toOption] at hlevel
    | ok found => simpa [hr, Except.toOption] using hlevel
  have hlayout : courtNotes.get? "layout" = some (Json.texts courtRows) := rfl
  have hdraws := Level.drawsBack_of_read hlayout hread
  have hfilled : level.FilledBy courtRows := ⟨by rw [hsize]; rfl, by rw [hsize]; decide⟩
  have hdrawing := hdraws.filled hfilled
  refine ⟨level, hread, hdrawing, hdraws.again hfilled courtFields ?_ ?_ rfl⟩
  · intro name _ htiles
    simp [courtNotes, courtFields, Fields.get?, Ne.symm htiles]
  · rw [hdrawing]
    rfl

end RobotPuzzle
