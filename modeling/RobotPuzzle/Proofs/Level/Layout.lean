import Mathlib.Data.List.Basic
import RobotPuzzle.Proofs.Level.Reading
import RobotPuzzle.Proofs.Numeral.Digits

/-!
# What a layout draws

A layout of texts draws one tile for each of its symbols, row by row, each with an id that tells its
row and column. So it can be read off the tiles again: a cell has the tile of the symbol that stands
there, and none where no symbol stands.

* `Layout.tileId_injective`: an id tells the row and the column.
* `Layout.tilesFrom_eq_ok`: a layout is read if every symbol is known, and what is read is drawn.
* `Layout.mem_drawn`, `Layout.at?_drawn`: the tiles that are drawn, and the tile of a cell.
* `Layout.distinct_drawn`: no two of them share an id or a cell.
* `Layout.count_drawn`: tiles of a kind are as many as the symbols for it.
-/

namespace RobotPuzzle

namespace Layout

open Numeral

/-- The kind of tile that a symbol draws; a symbol that is not known draws empty ground. -/
def kindOf (p : CodePoint) : TileKind := (kindOf? [p]).getD .empty

/-- The tile that a symbol draws in a row and column. -/
def drawnTile (row col : Nat) (p : CodePoint) : Tile :=
  .plain (tileId row col) (kindOf p) ⟨row, col⟩

/-- The tiles that rows of symbols draw, row by row. -/
def drawn (rows : List Text) : Tiles :=
  (rows.mapIdx fun row line => line.mapIdx (drawnTile row)).flatten

/-- Every symbol is known. -/
def Known (rows : List Text) : Prop := ∀ line ∈ rows, ∀ p ∈ line, (kindOf? [p]).isSome = true

instance (rows : List Text) : Decidable (Known rows) :=
  inferInstanceAs (Decidable (∀ line ∈ rows, ∀ p ∈ line, (kindOf? [p]).isSome = true))

/-- The symbol in a row and column. -/
def symbol? (rows : List Text) (row col : Nat) : Option CodePoint := rows[row]?.bind (·[col]?)

/-- A row that is not there has no symbols. -/
theorem symbol?_eq (rows : List Text) (row col : Nat) :
    symbol? rows row col = ((rows[row]?).getD [])[col]? := by
  rw [symbol?]
  cases rows[row]? <;> rfl

/-! ## The legend -/

theorem mem_legend_of_kindOf? {p : CodePoint} {kind : TileKind} (h : kindOf? [p] = some kind) :
    ∃ c, p = .char c ∧ (c, kind) ∈ legend := by
  cases p with
  | half offset => cases h
  | char c =>
    obtain ⟨before, behind, hlegend, -⟩ := List.lookup_eq_some_iff.mp h
    exact ⟨c, rfl, hlegend ▸ List.mem_append_right before List.mem_cons_self⟩

/-- A kind that the legend has but one symbol for, and that is not empty ground, is drawn by that
symbol alone. -/
theorem kindOf_eq_iff {c : Char} {kind : TileKind} (h : legend.lookup c = some kind)
    (hkind : kind ≠ .empty) {p : CodePoint} : kindOf p = kind ↔ p = .char c := by
  constructor
  · intro hp
    cases hkindOf : kindOf? [p] with
    | none =>
      rw [kindOf, hkindOf] at hp
      exact absurd hp.symm hkind
    | some kind' =>
      rw [kindOf, hkindOf] at hp
      cases hp
      obtain ⟨c', rfl, hmem'⟩ := mem_legend_of_kindOf? hkindOf
      obtain ⟨c'', hc, hmem⟩ := mem_legend_of_kindOf? (p := .char c) h
      cases hc
      cases legend_injective _ hmem' _ hmem rfl
      rfl
  · rintro rfl
    exact congrArg (·.getD .empty) h

/-! ## Ids -/

theorem toDigits_injective {m n : Nat} (h : Nat.toDigits 10 m = Nat.toDigits 10 n) : m = n := by
  rw [← ofDigits_toDigits m, h, ofDigits_toDigits]

theorem dash_notMem_toDigits (n : Nat) : '-' ∉ Nat.toDigits 10 n := fun h =>
  absurd (isDigit_of_mem_toDigits h) (by decide)

/-- An id tells the row and the column. -/
theorem tileId_injective {row col row' col' : Nat} (h : tileId row col = tileId row' col') :
    row = row' ∧ col = col' := by
  have hchars : ∀ r c : Nat, (s!"t-{r}-{c}").toList =
      't' :: '-' :: (Nat.toDigits 10 r ++ '-' :: Nat.toDigits 10 c) := by
    intro r c
    simp only [String.toList_append, Nat.toString_eq_ofList_toDigits, String.toList_ofList,
      List.append_assoc]
    rfl
  -- A dash is no digit, so both ids have the second one behind the row.
  have hlist := congrArg String.toList (Text.ofString_injective h)
  rw [hchars, hchars, List.cons.injEq, List.cons.injEq] at hlist
  obtain ⟨hrow, -, hcol⟩ := (List.append_cons_inj_of_notMem (dash_notMem_toDigits row)
    (dash_notMem_toDigits col)).mp hlist.2.2
  exact ⟨toDigits_injective hrow, toDigits_injective hcol⟩

/-! ## Reading a layout -/

section Reading

variable {source : Text} {row col : Nat}

theorem tile_eq_ok {p : CodePoint} {t : Tile} :
    tile source row col (.str [p]) = .ok t ↔
      (kindOf? [p]).isSome = true ∧ t = drawnTile row col p := by
  simp only [tile, Json.isKey, ↓reduceIte, drawnTile, kindOf]
  cases kindOf? [p] with
  | none => simp
  | some kind => simp [eq_comm]

theorem rowTiles_eq_ok {line : Text} {tiles : Tiles} :
    rowTiles source row col (line.map fun p => .str [p]) = .ok tiles ↔
      (∀ p ∈ line, (kindOf? [p]).isSome = true) ∧
        tiles = line.mapIdx fun i p => drawnTile row (col + i) p := by
  induction line generalizing col tiles with
  | nil => simp [rowTiles, eq_comm (b := tiles)]
  | cons p rest ih =>
    simp only [List.map_cons, rowTiles, bind_eq_ok, tile_eq_ok, ih, List.forall_mem_cons,
      List.mapIdx_cons, pure, Except.pure, Except.ok.injEq]
    constructor
    · rintro ⟨t, ⟨hp, rfl⟩, more, ⟨hrest, rfl⟩, rfl⟩
      exact ⟨⟨hp, hrest⟩, by simp [Nat.add_assoc, Nat.add_comm 1]⟩
    · rintro ⟨⟨hp, hrest⟩, rfl⟩
      exact ⟨_, ⟨hp, rfl⟩, _, ⟨hrest, rfl⟩, by simp [Nat.add_assoc, Nat.add_comm 1]⟩

theorem tilesFrom_eq_ok_from {rows : List Text} {tiles : Tiles} :
    tilesFrom source row (rows.map .str) = .ok tiles ↔
      Known rows ∧
        tiles = (rows.mapIdx fun i line => line.mapIdx (drawnTile (row + i))).flatten := by
  induction rows generalizing row tiles with
  | nil => simp [tilesFrom, Known, eq_comm (b := tiles)]
  | cons line rest ih =>
    simp only [List.map_cons, tilesFrom, members, bind_eq_ok, Except.ok.injEq, exists_eq_left',
      rowTiles_eq_ok, ih, Known, List.forall_mem_cons, List.mapIdx_cons, List.flatten_cons, pure,
      Except.pure, Nat.zero_add]
    constructor
    · rintro ⟨here, ⟨hline, rfl⟩, below, ⟨hrest, rfl⟩, rfl⟩
      exact ⟨⟨hline, hrest⟩, by simp [Nat.add_assoc, Nat.add_comm 1]⟩
    · rintro ⟨⟨hline, hrest⟩, rfl⟩
      exact ⟨_, ⟨hline, rfl⟩, _, ⟨hrest, rfl⟩, by simp [Nat.add_assoc, Nat.add_comm 1]⟩

/-- A layout is read if every symbol is known, and what is read is drawn. -/
theorem tilesFrom_eq_ok {rows : List Text} {tiles : Tiles} :
    tilesFrom source 0 (rows.map .str) = .ok tiles ↔ Known rows ∧ tiles = drawn rows := by
  have h := @tilesFrom_eq_ok_from source 0 rows tiles
  simp only [Nat.zero_add] at h
  exact h

end Reading

/-! ## The tiles that are drawn -/

variable {rows : List Text} {t : Tile} {row col : Nat}

theorem mem_drawn :
    t ∈ drawn rows ↔ ∃ row col p, symbol? rows row col = some p ∧ t = drawnTile row col p := by
  simp only [drawn, List.mem_flatten, List.mem_mapIdx, symbol?, Option.bind_eq_some_iff,
    List.getElem?_eq_some_iff]
  constructor
  · rintro ⟨_, ⟨row, hrow, rfl⟩, ht⟩
    obtain ⟨col, hcol, rfl⟩ := List.mem_mapIdx.mp ht
    exact ⟨row, col, _, ⟨_, ⟨hrow, rfl⟩, hcol, rfl⟩, rfl⟩
  · rintro ⟨row, col, p, ⟨line, ⟨hrow, rfl⟩, hcol, rfl⟩, rfl⟩
    exact ⟨_, ⟨row, hrow, rfl⟩, List.mem_mapIdx.mpr ⟨col, hcol, rfl⟩⟩

/-- Tiles in different rows or columns share neither their id nor their cell. -/
theorem drawnTile_ne {row' col' : Nat} (h : row = row' → col ≠ col') (p q : CodePoint) :
    (drawnTile row col p).id ≠ (drawnTile row' col' q).id ∧
      (drawnTile row col p).position ≠ (drawnTile row' col' q).position := by
  refine ⟨fun he => ?_, fun he => ?_⟩
  · obtain ⟨hrow, hcol⟩ := tileId_injective he
    exact h hrow hcol
  · obtain ⟨hrow, hcol⟩ := Position.mk.inj he
    exact h (Int.ofNat_inj.mp hrow) (Int.ofNat_inj.mp hcol)

theorem pairwise_drawn (rows : List Text) :
    (drawn rows).Pairwise fun t u => t.id ≠ u.id ∧ t.position ≠ u.position := by
  refine List.pairwise_flatten.mpr ⟨fun tiles h => ?_, ?_⟩
  · obtain ⟨row, hrow, rfl⟩ := List.mem_mapIdx.mp h
    refine List.pairwise_iff_getElem.mpr fun i j hi hj hlt => ?_
    simp only [List.getElem_mapIdx]
    exact drawnTile_ne (fun _ => Nat.ne_of_lt hlt) _ _
  · refine List.pairwise_iff_getElem.mpr fun i j hi hj hlt t ht u hu => ?_
    simp only [List.getElem_mapIdx, List.mem_mapIdx] at ht hu
    obtain ⟨col, _, rfl⟩ := ht
    obtain ⟨col', _, rfl⟩ := hu
    exact drawnTile_ne (fun he => absurd he (Nat.ne_of_lt hlt)) _ _

/-- No two tiles of a layout share an id or a cell. -/
theorem distinct_drawn (rows : List Text) : (drawn rows).Distinct where
  ids := List.pairwise_map.mpr ((pairwise_drawn rows).imp And.left)
  cells := List.pairwise_map.mpr ((pairwise_drawn rows).imp And.right)

/-- A cell has the tile of the symbol that stands there. -/
theorem at?_drawn (rows : List Text) (row col : Nat) :
    (drawn rows).at? ⟨row, col⟩ = (symbol? rows row col).map (drawnTile row col) := by
  cases hsymbol : symbol? rows row col with
  | some p => exact (distinct_drawn rows).at?_of_mem (mem_drawn.mpr ⟨row, col, p, hsymbol, rfl⟩)
  | none =>
    refine Option.eq_none_iff_forall_ne_some.mpr fun t ht => ?_
    obtain ⟨hmem, hcell⟩ := Tiles.at?_eq_some ht
    obtain ⟨row', col', p, hp, rfl⟩ := mem_drawn.mp hmem
    obtain ⟨hrow, hcol⟩ := Position.mk.inj hcell
    rw [Int.ofNat_inj.mp hrow, Int.ofNat_inj.mp hcol, hsymbol] at hp
    cases hp

theorem map_kind_drawn (rows : List Text) :
    (drawn rows).map Tile.kind = rows.flatten.map kindOf := by
  have hline : ∀ (row : Nat) (line : Text),
      (line.mapIdx (drawnTile row)).map Tile.kind = line.map kindOf := fun row line =>
    List.ext_getElem? fun col => by
      simp [List.getElem?_mapIdx, Function.comp_def, drawnTile, Tile.plain]
  rw [drawn, List.map_flatten, List.map_flatten]
  congr 1
  exact List.ext_getElem? fun row => by simp [List.getElem?_mapIdx, Function.comp_def, hline]

/-- Tiles of a kind are as many as the symbols for it. -/
theorem count_drawn (rows : List Text) {c : Char} {kind : TileKind}
    (h : legend.lookup c = some kind) (hkind : kind ≠ .empty) :
    (drawn rows).count kind = rows.flatten.count (.char c) := by
  calc (drawn rows).count kind
      = ((drawn rows).map Tile.kind).countP (· == kind) := by
        rw [List.countP_map]
        rfl
    _ = rows.flatten.countP (kindOf · == kind) := by
        rw [map_kind_drawn, List.countP_map]
        rfl
    _ = rows.flatten.count (.char c) := by
        rw [List.count]
        refine List.countP_congr fun p _ => ?_
        simp [kindOf_eq_iff h hkind]

end Layout

end RobotPuzzle
