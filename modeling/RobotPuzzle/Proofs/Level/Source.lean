import RobotPuzzle.Proofs.Level.Declarations

/-!
# Where a level was found

A level that cannot be read is reported with the source that it was found in. What is read where it
can be read does not depend on the source.

* `Layout.tilesFrom_of_tilesFrom`, `Level.listedTiles_of_listedTiles`: the same tiles are drawn or
  listed.
* `Level.read_eq_ok_congr`: the same level is read.
-/

namespace RobotPuzzle

namespace Layout

variable {source : Text} {row col : Nat} {tiles : Tiles} (other : Text)

theorem tile_of_tile {symbol : Json} {t : Tile} (h : tile source row col symbol = .ok t) :
    tile other row col symbol = .ok t := by
  unfold tile at h ⊢
  split at h
  · split at h
    · split at h
      · exact h
      · cases h
    · cases h
  · cases h

theorem rowTiles_of_rowTiles {symbols : List Json}
    (h : rowTiles source row col symbols = .ok tiles) :
    rowTiles other row col symbols = .ok tiles := by
  induction symbols generalizing col tiles with
  | nil => exact h
  | cons symbol rest ih =>
    obtain ⟨t, ht, h⟩ := bind_eq_ok.mp h
    obtain ⟨more, hmore, h⟩ := bind_eq_ok.mp h
    exact bind_eq_ok.mpr ⟨t, tile_of_tile other ht, bind_eq_ok.mpr ⟨more, ih hmore, h⟩⟩

theorem tilesFrom_of_tilesFrom {lines : List Json} (h : tilesFrom source row lines = .ok tiles) :
    tilesFrom other row lines = .ok tiles := by
  induction lines generalizing row tiles with
  | nil => exact h
  | cons line rest ih =>
    obtain ⟨symbols, hsymbols, h⟩ := bind_eq_ok.mp h
    obtain ⟨here, hhere, h⟩ := bind_eq_ok.mp h
    obtain ⟨below, hbelow, h⟩ := bind_eq_ok.mp h
    exact bind_eq_ok.mpr ⟨symbols, hsymbols, bind_eq_ok.mpr
      ⟨here, rowTiles_of_rowTiles other hhere, bind_eq_ok.mpr ⟨below, ih hbelow, h⟩⟩⟩

end Layout

namespace Level

variable {source other : Text} {fields : Fields} {level : Level}

theorem listedTiles_of_listedTiles (other : Text) {entries : List Json} {tiles : Tiles}
    (h : listedTiles source entries = .ok tiles) : listedTiles other entries = .ok tiles := by
  induction entries generalizing tiles with
  | nil => exact h
  | cons j rest ih =>
    cases j with
    | null | bool _ | int _ | real _ | str _ | arr _ => exact ih h
    | obj entry =>
      obtain ⟨t, ht, h⟩ := bind_eq_ok.mp h
      obtain ⟨more, hmore, h⟩ := bind_eq_ok.mp h
      exact bind_eq_ok.mpr ⟨t, listedTile_eq_ok.mpr (listedTile_eq_ok.mp ht),
        bind_eq_ok.mpr ⟨more, ih hmore, h⟩⟩

theorem tilesOf_of_tilesOf (other : Text) {tiles : Tiles} (h : tilesOf source fields = .ok tiles) :
    tilesOf other fields = .ok tiles := by
  cases hlayout : fields.get? "layout" with
  | some layout =>
    obtain ⟨hnotes, lines, bare, hlines, hbare, htiles⟩ := (tilesOf_drawn hlayout).mp h
    exact (tilesOf_drawn hlayout).mpr
      ⟨hnotes, lines, bare, hlines, Layout.tilesFrom_of_tilesFrom other hbare, htiles⟩
  | none =>
    simp only [tilesOf, hlayout] at h ⊢
    split at h
    · obtain ⟨entries, hentries, hlisted⟩ := bind_eq_ok.mp h
      exact bind_eq_ok.mpr ⟨entries, hentries, listedTiles_of_listedTiles other hlisted⟩
    · cases h

theorem startOf_of_startOf (other : Text) {tiles : Tiles} {start : Json}
    (h : startOf source fields tiles = .ok start) : startOf other fields tiles = .ok start := by
  cases hgiven : isGiven fields "start_position" with
  | true => exact (startOf_of_given hgiven rfl tiles tiles).trans h
  | false => exact (startOf_of_tiles hgiven).mpr ((startOf_of_tiles hgiven).mp h)

theorem ReadFrom.of_other (other : Text) (h : level.ReadFrom source fields) :
    level.ReadFrom other fields := by
  obtain ⟨start, hstart, hcheck⟩ := h.start
  exact
    { h with
      tiles := tilesOf_of_tilesOf other h.tiles
      start := ⟨start, startOf_of_startOf other hstart, hcheck⟩ }

/-- A level that is read does not depend on where it was found. -/
theorem read_eq_ok_congr (source other : Text) {j : Json} :
    read source j = .ok level ↔ read other j = .ok level := by
  have hread : ∀ {source : Text} (other : Text), read source j = .ok level →
      read other j = .ok level := by
    intro source other h
    obtain ⟨fields, rfl⟩ := exists_obj_of_read h
    obtain ⟨hfields, hfrom⟩ := read_obj_eq_ok.mp h
    exact read_obj_eq_ok.mpr ⟨hfields, hfrom.of_other other⟩
  exact ⟨hread other, hread source⟩

end Level

end RobotPuzzle
