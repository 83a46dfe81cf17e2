import RobotPuzzle.Proofs.Level.Declarations

/-!
# Listing what a layout draws

The grid of a level can be written down in two ways. Its tiles are drawn, with notes on some of them
and an extent that may be left to the layout; or each of them is listed with all that there is to
say of it, and the extent is given. If the notes say what is declared of a tile, both are read as the
same level, or neither is read.

* `Level.listedTiles_of_listedBy`: the tiles that a list spells out are those with their notes.
* `Level.listing_eq_ok`: what a list of the drawn tiles is read as.
* `Level.drawsAndLists_of_drawnWith`: both ways are the same, and what notes cannot do.
-/

namespace RobotPuzzle

/-- An entry of a tile list spells out a tile and what the notes say of it. -/
structure Tile.ListedBy (notes : List Fields) (t : Tile) (entry : Fields) : Prop where
  id : entry.get? "id" = some (.str t.id)
  kind : entry.get? "type" = some (.str (Word.spelling t.kind))
  position : entry.get? "position" = none
  row : entry.get? "row" = some (.int t.position.row)
  col : entry.get? "col" = some (.int t.position.col)
  active : (entry.get? "is_active").getD .null = Level.noted notes t.id "is_active"
  link : (entry.get? "linked_to").getD .null = Level.noted notes t.id "linked_to"

/-- The entry for a tile that gives all fields, those that the notes do not speak of as null. -/
def Tile.entry (notes : List Fields) (t : Tile) : Fields :=
  [("id", .str t.id), ("type", .str (Word.spelling t.kind)), ("row", .int t.position.row),
    ("col", .int t.position.col), ("is_active", Level.noted notes t.id "is_active"),
    ("linked_to", Level.noted notes t.id "linked_to")]

namespace Level

open Layout

/-- The tiles are drawn, and the tile list consists of notes that say what is declared. -/
structure DrawnWith (fields : Fields) (rows : List Text) (notes : List Fields) : Prop where
  layout : fields.get? "layout" = some (Json.texts rows)
  known : Known rows
  tiles : fields.get? "tiles" = some (.arr (notes.map .obj)) ∨
    fields.get? "tiles" = none ∧ notes = []
  ids : ∀ note ∈ notes, ∃ id, note.get? "id" = some (.str id)
  proper : ∀ note ∈ notes, note.IsProper

/-- All tiles that are drawn are listed in the stead of the layout, in their order, and the extent
is that of the layout if it was missing or null. -/
structure ListsDrawn (fields : Fields) (rows : List Text) (notes : List Fields) (other : Fields) :
    Prop where
  layout : other.get? "layout" = none
  tiles : ∃ entries, other.get? "tiles" = some (.arr (entries.map .obj)) ∧
    List.Forall₂ (Tile.ListedBy notes) (drawn rows) entries
  size : other.get? "grid_size" =
    if isGiven fields "grid_size" then fields.get? "grid_size" else some (gridFor rows none).toJson
  others : ∀ name : Text, name ≠ "layout" → name ≠ "tiles" → name ≠ "grid_size" →
    other.get? name = fields.get? name

variable {source : Text} {fields other : Fields} {rows : List Text} {notes : List Fields}
  {level : Level}

/-! ## Listed tiles -/

/-- All tiles can be listed. -/
theorem listedBy_entries (notes : List Fields) (tiles : Tiles) :
    List.Forall₂ (Tile.ListedBy notes) tiles (tiles.map (Tile.entry notes)) :=
  List.forall₂_map_right_iff.mpr (List.forall₂_same.mpr fun _ _ => ⟨rfl, rfl, rfl, rfl, rfl, rfl, rfl⟩)

theorem listedTile_of_listedBy {t : Tile} {entry : Fields} (h : t.ListedBy notes entry)
    (ht : (t.withNotes notes).Declared) :
    listedTile source entry = .ok (t.withNotes notes) := by
  have hposition : positionFields entry =
      .ok [("row", .int t.position.row), ("col", .int t.position.col)] := by
    rw [positionFields, h.position, h.row, h.col]
    rfl
  have hrecord : listedRecord entry [("row", .int t.position.row), ("col", .int t.position.col)]
      (.str (Word.spelling t.kind)) = (t.withNotes notes).toJson := by
    have hactive : (t.withNotes notes).active.finite = noted notes t.id "is_active" := by
      rcases ht.active with hnull | ⟨b, hbool⟩
      · rw [hnull]
        exact hnull.symm
      · rw [hbool]
        exact hbool.symm
    have hlink : (t.withNotes notes).link.finite = noted notes t.id "linked_to" := by
      rcases ht.link with hnull | ⟨s, htext⟩
      · rw [hnull]
        exact hnull.symm
      · rw [htext]
        exact htext.symm
    rw [listedRecord, h.id, h.active, h.link, Tile.toJson, hactive, hlink]
    rfl
  exact listedTile_eq_ok.mpr ⟨_, _, hposition, rfl, rfl, h.kind, hrecord ▸ Tile.check_toJson ht⟩

/-- The tiles that a list spells out are those with their notes. -/
theorem listedTiles_of_listedBy {tiles : Tiles} {entries : List Fields}
    (h : List.Forall₂ (Tile.ListedBy notes) tiles entries)
    (htiles : ∀ t ∈ tiles, (t.withNotes notes).Declared) :
    listedTiles source (entries.map .obj) = .ok (tiles.map (Tile.withNotes notes)) := by
  induction h with
  | nil => rfl
  | cons hentry _ ih =>
    obtain ⟨ht, hrest⟩ := List.forall_mem_cons.mp htiles
    rw [List.map_cons, listedTiles, listedTile_of_listedBy hentry ht, ih hrest]
    rfl

/-! ## What is drawn -/

/-- Notes that say what is declared leave all tiles as declared. -/
theorem DrawnWith.declared (h : DrawnWith fields rows notes) (t : Tile) :
    (t.withNotes notes).Declared :=
  declared_withNotes.mpr fun note hnote =>
    h.proper note (List.mem_reverse.mp (List.mem_of_find?_eq_some hnote))

theorem DrawnWith.notesOf_eq (h : DrawnWith fields rows notes) : notesOf fields = notes := by
  rcases h.tiles with htiles | ⟨htiles, rfl⟩
  · rw [notesOf, htiles]
    exact objects_map_obj notes
  · rw [notesOf, htiles]

theorem DrawnWith.notable (h : DrawnWith fields rows notes) : Notable fields := by
  obtain ⟨found, hfound⟩ := exists_annotations h.ids
  refine ⟨notes.map .obj, found, ?_, hfound⟩
  rcases h.tiles with htiles | ⟨htiles, rfl⟩
  · rw [htiles]
    rfl
  · rw [htiles]
    rfl

theorem DrawnWith.tilesOf_eq_ok (h : DrawnWith fields rows notes) {tiles : Tiles} :
    tilesOf source fields = .ok tiles ↔ tiles = (drawn rows).map (Tile.withNotes notes) := by
  rw [tilesOf_texts h.layout, h.notesOf_eq]
  simp only [h.notable, h.known, true_and]

/-- Two objects are read from the same pieces if they come to the same tiles and extents, and differ
in nothing else. -/
theorem readFrom_congr
    (htiles : ∀ tiles, tilesOf source other = .ok tiles ↔ tilesOf source fields = .ok tiles)
    (hsize : ∀ size, (∃ j, extentOf other = .ok j ∧ GridSize.check j = .good size) ↔
      ∃ j, extentOf fields = .ok j ∧ GridSize.check j = .good size)
    (hsame : ∀ name : Text, name ≠ "layout" → name ≠ "tiles" → name ≠ "grid_size" →
      other.get? name = fields.get? name) :
    level.ReadFrom source other ↔ level.ReadFrom source fields := by
  have hstart : startOf source other level.tiles = startOf source fields level.tiles := by
    simp only [startOf, hsame "start_position" (by decide) (by decide) (by decide)]
  have hothers : ∀ name : String, name ∉ gridFields → other.get? name = fields.get? name := by
    intro name hname
    simp only [gridFields, List.mem_cons, List.not_mem_nil, or_false, not_or] at hname
    exact hsame name (by simpa using hname.1) (by simpa using hname.2.1)
      (by simpa using hname.2.2.1)
  constructor
  · intro h
    exact ⟨(htiles _).mp h.tiles, (hsize _).mp h.size, hstart ▸ h.start,
      h.described.congr fun name hname => (hothers name hname).symm, h.grid⟩
  · intro h
    exact ⟨(htiles _).mpr h.tiles, (hsize _).mpr h.size, hstart ▸ h.start,
      h.described.congr hothers, h.grid⟩

/-! ## What is listed -/

section Lists

variable (hlists : ListsDrawn fields rows notes other)
include hlists

theorem ListsDrawn.tilesOf_eq_ok (h : DrawnWith fields rows notes) {tiles : Tiles} :
    tilesOf source other = .ok tiles ↔ tiles = (drawn rows).map (Tile.withNotes notes) := by
  obtain ⟨entries, htiles, hentries⟩ := hlists.tiles
  have hlisted : tilesOf source other = .ok ((drawn rows).map (Tile.withNotes notes)) := by
    simp only [tilesOf, hlists.layout, htiles]
    exact listedTiles_of_listedBy hentries fun t _ => h.declared t
  rw [hlisted, Except.ok.injEq]
  exact eq_comm

/-- The extent of the listing is accepted where that of the drawing is. -/
theorem ListsDrawn.size_iff (hlayout : fields.get? "layout" = some (Json.texts rows))
    {size : GridSize} :
    (∃ j, extentOf other = .ok j ∧ GridSize.check j = .good size) ↔
      ∃ j, extentOf fields = .ok j ∧ GridSize.check j = .good size := by
  have hsize := hlists.size
  cases hgiven : isGiven fields "grid_size" with
  | true =>
    rw [hgiven, if_pos rfl] at hsize
    obtain ⟨j, hget, hj⟩ := exists_of_isGiven hgiven
    rw [extentOf_of_given hget hj, extentOf_of_given (hsize.trans hget) hj]
  | false =>
    rw [hgiven, if_neg Bool.false_ne_true] at hsize
    rw [extentOf_of_layout hgiven hlayout, extent_iff, extentOf_of_given hsize nofun]
    simp only [Except.ok.injEq, exists_eq_left']
    exact GridSize.check_obj rfl rfl

/-- A list of the drawn tiles is read as what was drawn. -/
theorem ListsDrawn.read_iff (h : DrawnWith fields rows notes) :
    read source (.obj other) = .ok level ↔ read source (.obj fields) = .ok level := by
  obtain ⟨entries, htiles, -⟩ := hlists.tiles
  have hsize : other.has "grid_size" = true := by
    have hsize := hlists.size
    split at hsize
    · next hgiven =>
      obtain ⟨j, hget, -⟩ := exists_of_isGiven hgiven
      exact Fields.has_of_get? (hsize.trans hget)
    · exact Fields.has_of_get? hsize
  have hfrom : level.ReadFrom source other ↔ level.ReadFrom source fields :=
    readFrom_congr (fun _ => (hlists.tilesOf_eq_ok h).trans h.tilesOf_eq_ok.symm)
      (fun _ => hlists.size_iff h.layout) hlists.others
  rw [read_of_grid (.inr ⟨Fields.has_of_get? htiles, hsize⟩),
    read_of_layout (Fields.has_of_get? h.layout), hfrom,
    Fields.has_congr (hlists.others _ (by decide) (by decide) (by decide))]

end Lists

/-! ## Notes for other tiles -/

/-- The notes that are meant for one of the drawn tiles. -/
def meant (rows : List Text) (notes : List Fields) : List Fields :=
  notes.filter fun note => (drawn rows).any fun t => note.isFor t.id

/-- Notes that are meant for no drawn tile say nothing of the drawn tiles. -/
theorem map_withNotes_meant (rows : List Text) (notes : List Fields) :
    (drawn rows).map (Tile.withNotes (meant rows notes)) =
      (drawn rows).map (Tile.withNotes notes) := by
  refine List.map_congr_left fun t ht => ?_
  have hlast : lastNote? (meant rows notes) t.id = lastNote? notes t.id :=
    lastNote?_filter fun note _ hfor => List.any_eq_true.mpr ⟨t, ht, hfor⟩
  simp only [Tile.withNotes, noted, hlast]

/-- Without the notes for other tiles the same is read. -/
theorem read_meant_iff (h : DrawnWith fields rows notes)
    (htiles : other.get? "tiles" = some (.arr ((meant rows notes).map .obj)))
    (hsame : ∀ name : Text, name ≠ "tiles" → other.get? name = fields.get? name) :
    read source (.obj other) = .ok level ↔ read source (.obj fields) = .ok level := by
  have hother : DrawnWith other rows (meant rows notes) :=
    { layout := (hsame _ (by decide)).trans h.layout
      known := h.known
      tiles := .inl htiles
      ids := fun note hnote => h.ids note (List.mem_of_mem_filter hnote)
      proper := fun note hnote => h.proper note (List.mem_of_mem_filter hnote) }
  have hextent : extentOf other = extentOf fields := by
    simp only [extentOf, hsame "grid_size" (by decide), hsame "layout" (by decide)]
  have hfrom : level.ReadFrom source other ↔ level.ReadFrom source fields := by
    refine readFrom_congr (fun tiles => ?_) (fun _ => by rw [hextent])
      fun name _ hne _ => hsame name hne
    rw [hother.tilesOf_eq_ok, h.tilesOf_eq_ok, map_withNotes_meant]
  rw [read_of_layout (Fields.has_of_get? hother.layout),
    read_of_layout (Fields.has_of_get? h.layout), hfrom, Fields.has_congr (hsame _ (by decide))]

/-! ## Both ways -/

/-- Two values are read as the same level, or neither is read. -/
def ReadsSame (source : Text) (j k : Json) : Prop :=
  (∃ level, read source j = .ok level ∧ read source k = .ok level) ∨
    (∃ fault, read source j = .error fault) ∧ ∃ fault, read source k = .error fault

theorem readsSame_of_iff {j k : Json}
    (h : ∀ level, read source j = .ok level ↔ read source k = .ok level) :
    ReadsSame source j k := by
  cases hj : read source j with
  | ok level => exact .inl ⟨level, hj, (h level).mp hj⟩
  | error fault =>
    cases hk : read source k with
    | ok level => exact .inl ⟨level, (h level).mpr hk, hk⟩
    | error other => exact .inr ⟨⟨fault, hj⟩, other, hk⟩

/-- What a drawing with notes comes to. -/
structure DrawsAndLists (source : Text) (fields : Fields) (rows : List Text)
    (notes : List Fields) : Prop where
  /-- A list of all that is drawn is read as the drawing is. -/
  same : ∀ other : Fields, ListsDrawn fields rows notes other →
    ReadsSame source (.obj other) (.obj fields)
  /-- Each tile has what the last note for it says. -/
  tiles : ∀ level, read source (.obj fields) = .ok level →
    level.tiles = (drawn rows).map (Tile.withNotes notes)
  /-- Whatever stands in the tile list, the tiles keep their ids, kinds, cells and order. -/
  kept : ∀ (annotated : Fields) (level : Level), annotated.get? "layout" = fields.get? "layout" →
    read source (.obj annotated) = .ok level → level.tiles.map Tile.bare = drawn rows
  /-- Notes for other tiles have no effect. -/
  others : ∀ other : Fields, other.get? "tiles" = some (.arr ((meant rows notes).map .obj)) →
    (∀ name : Text, name ≠ "tiles" → other.get? name = fields.get? name) →
    ReadsSame source (.obj other) (.obj fields)

/-- **Drawing and listing the tiles is the same**: what is drawn with notes is read as the list of
its tiles with what the last note says of each, or neither is read. -/
theorem drawsAndLists_of_drawnWith (h : DrawnWith fields rows notes) (source : Text) :
    DrawsAndLists source fields rows notes where
  same := fun _ hlists => readsSame_of_iff fun _ => hlists.read_iff h
  tiles := fun _ hread =>
    h.tilesOf_eq_ok.mp ((read_of_layout (Fields.has_of_get? h.layout)).mp hread).2.tiles
  kept := fun _ _ hlayout hread => (drawn_of_read (hlayout.trans h.layout) hread).bare_tiles
  others := fun _ htiles hsame => readsSame_of_iff fun _ => read_meant_iff h htiles hsame

end Level

/-! ## A sample -/

/-- The court as a list of tiles. -/
def courtSpelled : Fields :=
  [("id", .int 5), ("name", .str "Court"), ("available_commands", .arr []), ("max_blocks", .int 4),
    ("grid_size", (Layout.gridFor courtRows none).toJson),
    ("tiles", .arr (((Layout.drawn courtRows).map
      (Tile.entry [doorNote (.bool true)])).map .obj))]

open Level in
/-- The court with an open door is read from its list of tiles. -/
theorem readsSame_court :
    ∃ level, read "court.json" (.obj courtNotes) = .ok level ∧
      read "court.json" (.obj courtSpelled) = .ok level := by
  have hdrawn : DrawnWith courtNotes courtRows [doorNote (.bool true)] :=
    { layout := rfl
      known := by decide
      tiles := .inl rfl
      ids := List.forall_mem_singleton.mpr ⟨_, rfl⟩
      proper := List.forall_mem_singleton.mpr
        ⟨fun j hj => .inr ⟨true, (Option.some.inj hj).symm⟩, nofun⟩ }
  have hlists : ListsDrawn courtNotes courtRows [doorNote (.bool true)] courtSpelled :=
    { layout := rfl
      tiles := ⟨_, rfl, listedBy_entries _ _⟩
      size := rfl
      others := fun name hlayout htiles hsize => by
        simp [courtSpelled, courtNotes, courtFields, Fields.get?, Ne.symm hlayout, Ne.symm htiles,
          Ne.symm hsize] }
  obtain ⟨level, hlisted, hdrawing⟩ | ⟨-, fault, hfault⟩ :=
    (drawsAndLists_of_drawnWith hdrawn "court.json").same courtSpelled hlists
  · exact ⟨level, hdrawing, hlisted⟩
  · rw [read_courtNotes] at hfault
    cases hfault

end RobotPuzzle
