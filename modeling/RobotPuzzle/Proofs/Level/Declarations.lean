import RobotPuzzle.Proofs.Level.Acceptance
import RobotPuzzle.Proofs.Level.Annotations

/-!
# What is declared of a level

The check of a level's record declares what the fields of a level are: which numbers are positive or
not negative, and that a tile's annotations are null or a boolean, and null or a text. A level that
passes it is as declared, and the record of one that is as declared passes it again, as that level.

Reading a level checks all fields but one kind: what a note says of a drawn tile is taken as it
stands. So a level that has been read is as declared exactly if the last note for each of its tiles
says what is declared.

* `Level.check_toJson_eq_good`: the records that pass the check.
* `Level.declared_withNotes`: the drawn tiles that are as declared.
* `Level.readsDeclared_of_read`: the levels that are read as declared.
* `Level.note_passes_unchecked`: a note is not checked, where an entry of the tile list is.
-/

namespace RobotPuzzle

/-- Whether a tile is active, as declared: null or a boolean. -/
def Json.IsFlag (j : Json) : Prop := j = .null ∨ ∃ b, j = .bool b

/-- What a tile is linked to, as declared: null or a text. -/
def Json.IsLink (j : Json) : Prop := j = .null ∨ ∃ s, j = .str s

/-- The annotations of the tile are as declared. -/
structure Tile.Declared (t : Tile) : Prop where
  active : t.active.IsFlag
  link : t.link.IsLink

/-- All fields of the level are as declared. -/
structure Level.Declared (level : Level) : Prop where
  one_le_id : 1 ≤ level.id
  one_le_rows : 1 ≤ level.size.rows
  one_le_cols : 1 ≤ level.size.cols
  tiles : ∀ t ∈ level.tiles, t.Declared
  one_le_max : 1 ≤ level.maxBlocks
  one_le_optimal : ∀ n ∈ level.optimalBlocks, 1 ≤ n
  coinsRequired_nonneg : 0 ≤ level.coinsRequired
  gemsRequired_nonneg : 0 ≤ level.gemsRequired

/-- What a note says of a tile is as declared. -/
structure Fields.IsProper (note : Fields) : Prop where
  active : ∀ j, note.get? "is_active" = some j → j.IsFlag
  link : ∀ j, note.get? "linked_to" = some j → j.IsLink

namespace Checked

variable {α β : Type}

theorem ensures_items {check : β → Checked α} {P : α → Prop} (h : ∀ b, (check b).Ensures P)
    (first : Nat) (bs : List β) : (items check first bs).Ensures (∀ a ∈ ·, P a) := by
  induction bs generalizing first with
  | nil =>
    rintro as has
    cases has
    exact nofun
  | cons b rest ih =>
    exact ensures_seq_of (ih (first + 1)) (ensures_map fun a ha as has =>
      List.forall_mem_cons.mpr ⟨ensures_under (h b) a ha, has⟩)

end Checked

theorem Field.ensures_list {α : Type} {check : Field.Check α} {P : α → Prop}
    (h : ∀ j, (check j).Ensures P) (j : Json) : (list check j).Ensures (∀ a ∈ ·, P a) := by
  cases j with
  | arr items => exact Checked.ensures_items h 0 items
  | null | bool _ | int _ | real _ | str _ | obj _ => exact nofun

namespace Tile

/-- The annotations of a tile whose record has passed the check are as declared. -/
theorem ensures_declared (j : Json) : (check j).Ensures Declared := by
  cases j with
  | null | bool _ | int _ | real _ | str _ | arr _ => exact nofun
  | obj f =>
    refine Checked.ensures_seq_of (Q := Json.IsLink) (Checked.ensures_map fun link _ => ?_)
      (Checked.ensures_seq_of (Q := Json.IsFlag) (Checked.ensures_map fun active _ => ?_)
        (Checked.ensures_seq (Checked.ensures_seq (Checked.ensures_map fun _ _ _ _ _ hactive _
          hlink => ⟨hactive, hlink⟩))))
    · cases link with
      | none => exact .inl rfl
      | some s => exact .inr ⟨s, rfl⟩
    · cases active with
      | none => exact .inl rfl
      | some b => exact .inr ⟨b, rfl⟩

/-- The record of a tile that is as declared is the tile's. -/
theorem check_toJson {t : Tile} (h : t.Declared) : check t.toJson = .good t := by
  obtain ⟨id, kind, position, active, link⟩ := t
  have hkind := Field.word_of_spelling kind
  have hposition := position.check_toJson
  rcases h.active with rfl | ⟨b, rfl⟩ <;> rcases h.link with rfl | ⟨s, rfl⟩ <;>
    simp [check, toJson, Field.record, Fields.required, Fields.optional, Fields.get?, hkind,
      hposition, Field.text_str, Field.nullable, Field.boolean_bool, Json.finite, Json.orNull,
      Checked.under, Seq.seq, Functor.map, Checked.seq, Checked.map]

end Tile

namespace Level

variable {source : Text} {j : Json} {fields : Fields} {level : Level}

/-! ## Records that pass the check -/

/-- A level whose fields have been checked is as declared if its tiles are. -/
theorem DescribedBy.declared (h : level.DescribedBy fields)
    (hsize : ∃ j, GridSize.check j = .good level.size) (htiles : ∀ t ∈ level.tiles, t.Declared) :
    level.Declared := by
  have hatLeast := fun low : Int => Field.ensures_atLeast low
  obtain ⟨size, hsize⟩ := hsize
  obtain ⟨hrows, hcols⟩ := ensures_gridSize size _ hsize
  exact
    { one_le_id := Fields.ensures_required (hatLeast 1) fields _ _ h.id
      one_le_rows := hrows
      one_le_cols := hcols
      tiles := htiles
      one_le_max := Fields.ensures_required (hatLeast 1) fields _ _ h.maxBlocks
      one_le_optimal := Fields.ensures_optional (P := (∀ n ∈ ·, 1 ≤ n)) nofun
        (Field.ensures_nullable (hatLeast 1)) fields _ _ h.optimalBlocks
      coinsRequired_nonneg := Fields.ensures_optional (Int.le_refl 0) (hatLeast 0) fields _ _
        h.coinsRequired
      gemsRequired_nonneg := Fields.ensures_optional (Int.le_refl 0) (hatLeast 0) fields _ _
        h.gemsRequired }

/-- A level whose record has passed the check is as declared. -/
theorem declared_of_check (h : check j = .good level) : level.Declared := by
  cases j with
  | null | bool _ | int _ | real _ | str _ | arr _ => cases h
  | obj f =>
    obtain ⟨hdescribed, htiles, hsize, -⟩ := checkWith_eq_good.mp h
    refine hdescribed.declared ?_ ?_
    · exact Fields.ensures_required (P := fun size => ∃ j, GridSize.check j = .good size)
        (fun j _ h => ⟨j, h⟩) f _ _ hsize
    · exact Fields.ensures_optional (P := (∀ t ∈ ·, Tile.Declared t)) (List.forall_mem_nil _)
        (Field.ensures_list Tile.ensures_declared) f _ _ htiles

/-- The record of a level that is as declared is the level's. -/
theorem check_toJson (h : level.Declared) : check level.toJson = .good level := by
  have hint : ∀ {low n : Int}, low ≤ n → Field.atLeast low (.int n) = .good n := fun hle =>
    Field.atLeast_int.mpr ⟨rfl, hle⟩
  have hrequired : ∀ {α : Type} {f : Fields} {name : String} {j : Json} {check : Field.Check α}
      {a : α}, f.get? name = some j → check j = .good a → f.required name check = .good a :=
    fun hget => (Fields.required_eq_good_of_get? hget).mpr
  have hoptional : ∀ {α : Type} {f : Fields} {name : String} {j : Json} {check : Field.Check α}
      {default a : α}, f.get? name = some j → check j = .good a →
        f.optional name default check = .good a :=
    fun hget => (Fields.optional_eq_good_of_get? hget).mpr
  have hcommands : Field.list Field.word (Json.words (level.commands.map Word.spelling)) =
      .good level.commands := by
    rw [Json.words, List.map_map]
    exact Field.list_map fun command _ => Field.word_of_spelling command
  refine checkWith_eq_good.mpr ⟨?_, ?_, ?_, ?_⟩
  · exact
      { id := hrequired rfl (hint h.one_le_id)
        name := hrequired rfl rfl
        chapter := hoptional rfl rfl
        chapterName := hoptional rfl rfl
        description := hoptional rfl rfl
        difficulty := hoptional rfl (Field.word_of_spelling _)
        facing := hoptional rfl (Field.word_of_spelling _)
        commands := hoptional rfl hcommands
        maxBlocks := hrequired rfl (hint h.one_le_max)
        optimalBlocks := hoptional rfl (Field.nullable_orNull (fun _ => nofun) fun n hn =>
          hint (h.one_le_optimal n hn))
        goal := hoptional rfl (Field.word_of_spelling _)
        coinsRequired := hoptional rfl (hint h.coinsRequired_nonneg)
        gemsRequired := hoptional rfl (hint h.gemsRequired_nonneg)
        hints := hoptional rfl (Field.list_map fun _ _ => rfl) }
  · exact hoptional rfl (Field.list_map fun t ht => Tile.check_toJson (h.tiles t ht))
  · exact hrequired rfl (GridSize.check_toJson h.one_le_rows h.one_le_cols)
  · exact hrequired rfl level.start.check_toJson

/-- **The records that pass the check** are those of the levels that are as declared. -/
theorem check_toJson_eq_good : check level.toJson = .good level ↔ level.Declared :=
  ⟨declared_of_check, check_toJson⟩

/-! ## Levels that are read -/

/-- The notes that a value has on its tiles: only an object with a layout has any. -/
def notesIn : Json → List Fields
  | .obj fields => if Fields.has fields "layout" then notesOf fields else []
  | _ => []

theorem noted_iff {P : Json → Prop} (hnull : P .null) {notes : List Fields} {id : Text}
    {name : String} :
    P (noted notes id name) ↔
      ∀ note, lastNote? notes id = some note → ∀ j, note.get? name = some j → P j := by
  rw [noted]
  cases lastNote? notes id with
  | none => simpa using hnull
  | some note => cases hget : note.get? name <;> simp [hget, hnull]

/-- A drawn tile is as declared if the last note for it says what is declared. -/
theorem declared_withNotes {notes : List Fields} {t : Tile} :
    (t.withNotes notes).Declared ↔
      ∀ note, lastNote? notes t.id = some note → note.IsProper := by
  have hactive : (t.withNotes notes).active.IsFlag ↔ _ := noted_iff (.inl rfl)
  have hlink : (t.withNotes notes).link.IsLink ↔ _ := noted_iff (.inl rfl)
  constructor
  · intro h note hnote
    exact ⟨hactive.mp h.active note hnote, hlink.mp h.link note hnote⟩
  · intro h
    exact ⟨hactive.mpr fun note hnote => (h note hnote).active,
      hlink.mpr fun note hnote => (h note hnote).link⟩

/-- The record of a listed tile: its entry with the position that is found for it. -/
def listedRecord (entry position : Fields) (kind : Json) : Json :=
  let row := (position.get? "row").getD .null
  let col := (position.get? "col").getD .null
  .obj [("id", (entry.get? "id").getD (.str ("t-" ++ row.text ++ "-" ++ col.text))),
    ("type", kind), ("position", .obj position),
    ("is_active", (entry.get? "is_active").getD .null),
    ("linked_to", (entry.get? "linked_to").getD .null)]

/-- A listed tile has a position and a type, and passes the check. -/
theorem listedTile_eq_ok {entry : Fields} {t : Tile} :
    listedTile source entry = .ok t ↔
      ∃ position kind, positionFields entry = .ok position ∧ isGiven position "row" = true ∧
        isGiven position "col" = true ∧ entry.get? "type" = some kind ∧
        Tile.check (listedRecord entry position kind) = .good t := by
  unfold listedTile
  cases positionFields entry with
  | error fault => simp [bind, Except.bind]
  | ok position =>
    simp only [bind, Except.bind, Except.ok.injEq, exists_and_left, exists_eq_left']
    cases hrow : isGiven position "row" with
    | false => simp [throw, throwThe, MonadExceptOf.throw]
    | true =>
      cases hcol : isGiven position "col" with
      | false => simp [throw, throwThe, MonadExceptOf.throw]
      | true =>
        cases hkind : entry.get? "type" with
        | none => simp [throw, throwThe, MonadExceptOf.throw]
        | some kind => simp [Checked.result_eq_ok, listedRecord]

/-- A tile that is listed is as declared. -/
theorem declared_of_mem_listedTiles {entries : List Json} {tiles : Tiles}
    (h : listedTiles source entries = .ok tiles) : ∀ t ∈ tiles, t.Declared := by
  induction entries generalizing tiles with
  | nil =>
    cases h
    exact nofun
  | cons j rest ih =>
    cases j with
    | null | bool _ | int _ | real _ | str _ | arr _ => exact ih h
    | obj entry =>
      obtain ⟨t, ht, h⟩ := bind_eq_ok.mp h
      obtain ⟨more, hmore, h⟩ := bind_eq_ok.mp h
      cases h
      refine List.forall_mem_cons.mpr ⟨?_, ih hmore⟩
      obtain ⟨position, kind, -, -, -, -, hcheck⟩ := listedTile_eq_ok.mp ht
      exact Tile.ensures_declared _ t hcheck

/-- Where a level is read from, its tiles are as declared if the last note for each says what is
declared. -/
theorem ReadFrom.declared_tiles (h : level.ReadFrom source fields) :
    ∀ t ∈ level.tiles, t.Declared ↔
      ∀ note, lastNote? (notesIn (.obj fields)) t.id = some note → note.IsProper := by
  have htiles := h.tiles
  intro t ht
  cases hlayout : fields.get? "layout" with
  | some layout =>
    have hnotes : notesIn (.obj fields) = notesOf fields := by
      rw [notesIn, Fields.has_of_get? hlayout]
      rfl
    obtain ⟨-, lines, bare, -, -, hall⟩ := (tilesOf_drawn hlayout).mp htiles
    rw [hall] at ht
    obtain ⟨b, -, rfl⟩ := List.mem_map.mp ht
    rw [hnotes]
    exact declared_withNotes
  | none =>
    have hnotes : notesIn (.obj fields) = [] := by
      rw [notesIn, Fields.has_eq_isSome, hlayout]
      rfl
    rw [hnotes]
    refine iff_of_true ?_ nofun
    simp only [tilesOf, hlayout] at htiles
    split at htiles
    · obtain ⟨entries, -, hlisted⟩ := bind_eq_ok.mp htiles
      exact declared_of_mem_listedTiles hlisted t ht
    · cases htiles

/-- Only objects are read as levels. -/
theorem exists_obj_of_read (h : read source j = .ok level) : ∃ fields, j = .obj fields := by
  unfold read at h
  obtain ⟨missing, -, h⟩ := bind_eq_ok.mp h
  split at h
  · split at h
    · exact ⟨_, rfl⟩
    · cases h
  · cases h

/-- What is declared of a level that has been read from a value. -/
structure ReadsDeclared (level : Level) (j : Json) : Prop where
  /-- All fields are as declared, but for the annotations of tiles. -/
  others : Declared { level with tiles := level.tiles.map Tile.bare }
  /-- These are if, and only if, the last note for each tile says what is declared. -/
  declared : level.Declared ↔
    ∀ t ∈ level.tiles, ∀ note, lastNote? (notesIn j) t.id = some note → note.IsProper
  /-- The record of the level passes the check, and is the level's, if it is as declared. -/
  again : check level.toJson = .good level ↔ level.Declared

/-- **A level that has been read is as declared**, and its record passes the check again as that
level, exactly if no tile has a last note that says something else. In particular it is wherever
the tiles are listed, and wherever they are drawn without notes. -/
theorem readsDeclared_of_read (h : read source j = .ok level) : level.ReadsDeclared j := by
  obtain ⟨fields, rfl⟩ := exists_obj_of_read h
  obtain ⟨-, hread⟩ := read_obj_eq_ok.mp h
  obtain ⟨size, -, hsize⟩ := hread.size
  have hbare : ∀ t : Tile, t.bare.Declared := fun _ => ⟨.inl rfl, .inl rfl⟩
  have htiles := hread.declared_tiles
  exact
    { others := (hread.described.with_grid level.size (level.tiles.map Tile.bare)
        level.start).declared ⟨size, hsize⟩ (List.forall_mem_map.mpr fun t _ => hbare t)
      declared := ⟨fun hdeclared t ht => (htiles t ht).mp (hdeclared.tiles t ht),
        fun hproper => hread.described.declared ⟨size, hsize⟩ fun t ht =>
          (htiles t ht).mpr (hproper t ht)⟩
      again := check_toJson_eq_good }

end Level

/-! ## A sample -/

/-- A note that says whether the door of the court is open. -/
def doorNote (active : Json) : Fields := [("id", .str "t-0-2"), ("is_active", active)]

/-- The court as it is read with the note. -/
def courtNoted (active : Json) : Level :=
  { courtLevel with
    size := ⟨2, 3⟩
    tiles := (Layout.drawn courtRows).map (Tile.withNotes [doorNote active]) }

theorem read_courtNotes :
    Level.read "court.json" (.obj courtNotes) = .ok (courtNoted (.bool true)) := by rfl

open Level in
/-- The court with an open door is as declared, and is read again from its record. -/
theorem readsDeclared_court :
    ∃ level, read "court.json" (.obj courtNotes) = .ok level ∧ level.Declared ∧
      check level.toJson = .good level := by
  have hdeclares := readsDeclared_of_read read_courtNotes
  have hdeclared : (courtNoted (.bool true)).Declared :=
    hdeclares.declared.mpr fun t _ note hnote => by
      obtain rfl : note = doorNote (.bool true) :=
        List.mem_singleton.mp (List.mem_reverse.mp (List.mem_of_find?_eq_some hnote))
      exact ⟨fun j hj => .inr ⟨true, (Option.some.inj hj).symm⟩, nofun⟩
  exact ⟨_, read_courtNotes, hdeclared, hdeclares.again.mpr hdeclared⟩

/-- The court with a door that is neither open nor closed. -/
def courtAjar : Fields :=
  ("tiles", .arr [.obj (doorNote (.str "ajar"))]) :: courtFields

/-- The same door in a list of tiles. -/
def courtListed : Fields :=
  [("id", .int 5), ("name", .str "Court"), ("available_commands", .arr []), ("max_blocks", .int 4),
    ("grid_size", GridSize.toJson ⟨2, 3⟩),
    ("tiles", .arr [.obj [("id", .str "t-0-2"), ("type", .str "door"), ("row", .int 0),
      ("col", .int 2), ("is_active", .str "ajar")]])]

open Level in
/-- **A note is not checked**, where an entry of a list is: with the note the court is read as a
level that is not as declared, and is refused when its record is checked. -/
theorem note_passes_unchecked :
    (∃ level, read "court.json" (.obj courtAjar) = .ok level ∧ ¬ level.Declared ∧
      check level.toJson = .bad [⟨["tiles", "2", "is_active"], .unreadableBoolean⟩]) ∧
    read "court.json" (.obj courtListed) =
      .error (.invalid [⟨["is_active"], .unreadableBoolean⟩]) := by
  refine ⟨⟨courtNoted (.str "ajar"), by rfl, fun h => ?_,
    by rfl⟩, by rfl⟩
  have hgood := check_toJson h
  have hbad : check (courtNoted (.str "ajar")).toJson =
      .bad [⟨["tiles", "2", "is_active"], .unreadableBoolean⟩] := by rfl
  rw [hbad] at hgood
  cases hgood

end RobotPuzzle
