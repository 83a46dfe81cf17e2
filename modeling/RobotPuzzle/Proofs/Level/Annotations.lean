import RobotPuzzle.Proofs.Level.Drawing

/-!
# Notes on drawn tiles

Where tiles are drawn, the objects in the tile list are notes on them. A note is meant for the tile
with its id; of several notes for one tile the last one counts, and all that it can say is whether
the tile is active and what it is linked to.

* `Level.lookup_annotations`: the note that counts for an id is the last one with it.
* `Level.tilesOf_drawn`: the tiles of a layout of any kind, with what the notes say of them.
* `Level.tilesOf_texts`: the tiles of a layout of texts.
* `Level.lastNote?_filter`: notes that are meant for no tile do not count.
-/

namespace RobotPuzzle

/-- Whether a note is meant for the tile with an id. -/
def Fields.isFor (note : Fields) (id : Text) : Bool :=
  match note.get? "id" with
  | some (.str own) => own == id
  | _ => false

namespace Level

/-- The objects among values. -/
def objects (entries : List Json) : List Fields :=
  entries.filterMap fun
    | .obj entry => some entry
    | _ => none

/-- The notes in the tile list of an object that draws its tiles. -/
def notesOf (fields : Fields) : List Fields :=
  match fields.get? "tiles" with
  | some (.arr entries) => objects entries
  | _ => []

/-- The last note that is meant for the tile with an id. -/
def lastNote? (notes : List Fields) (id : Text) : Option Fields := notes.reverse.find? (·.isFor id)

/-- What the last note for an id says under a name; null if it says nothing. -/
def noted (notes : List Fields) (id : Text) (name : String) : Json :=
  ((lastNote? notes id).bind (·.get? name)).getD .null

end Level

/-- The tile with what the notes say of it. -/
def Tile.withNotes (notes : List Fields) (t : Tile) : Tile :=
  { t with
    active := Level.noted notes t.id "is_active"
    link := Level.noted notes t.id "linked_to" }

namespace Level

open Layout

/-! ## The last note -/

theorem lastNote?_cons (note : Fields) (rest : List Fields) (id : Text) :
    lastNote? (note :: rest) id =
      (lastNote? rest id).or (if note.isFor id then some note else none) := by
  rw [lastNote?, List.reverse_cons, List.find?_append]
  cases h : note.isFor id <;> simp [lastNote?, h]

/-- Notes that are meant for no tile do not count. -/
theorem lastNote?_filter {notes : List Fields} {keep : Fields → Bool} {id : Text}
    (h : ∀ note ∈ notes, note.isFor id = true → keep note = true) :
    lastNote? (notes.filter keep) id = lastNote? notes id := by
  induction notes with
  | nil => rfl
  | cons note rest ih =>
    rw [List.forall_mem_cons] at h
    rw [lastNote?_cons, ← ih h.2]
    cases hkeep : keep note with
    | true => rw [List.filter_cons_of_pos hkeep, lastNote?_cons]
    | false =>
      have hother : note.isFor id = false := by
        cases hfor : note.isFor id with
        | false => rfl
        | true => exact absurd (h.1 hfor) (by rw [hkeep]; exact Bool.false_ne_true)
      rw [List.filter_cons_of_neg (by rw [hkeep]; exact Bool.false_ne_true), hother]
      simp

theorem lookup_annotations_cons {id own : Text} {entry : Fields} (later : Annotations) :
    List.lookup id (if later.any (·.1 == own) then later else (own, entry) :: later) =
      (later.lookup id).or (if own == id then some entry else none) := by
  by_cases hid : own = id
  · subst hid
    cases hlater : later.lookup own with
    | none =>
      have hany : later.any (·.1 == own) = false := by
        refine List.any_eq_false.mpr fun p hp => ?_
        have hne := List.lookup_eq_none_iff.mp hlater p hp
        simpa using Ne.symm (by simpa using hne)
      simp [hany]
    | some found =>
      have hany : later.any (·.1 == own) = true := by
        obtain ⟨before, behind, rfl, -⟩ := List.lookup_eq_some_iff.mp hlater
        simp
      simp [hany, hlater]
  · have hne : (id == own) = false := by simpa using Ne.symm hid
    split <;> simp [List.lookup_cons, hid, hne]

/-- The note that counts for an id is the last one with it. -/
theorem lookup_annotations {entries : List Json} {notes : Annotations}
    (h : annotations entries = .ok notes) (id : Text) :
    notes.lookup id = lastNote? (objects entries) id := by
  induction entries generalizing notes with
  | nil =>
    cases h
    rfl
  | cons j rest ih =>
    cases j with
    | null | bool _ | int _ | real _ | str _ | arr _ => exact ih h
    | obj entry =>
      have hobjects : objects (.obj entry :: rest) = entry :: objects rest := rfl
      rw [hobjects, lastNote?_cons]
      simp only [annotations] at h
      split at h
      · cases h
      · next own hown =>
        obtain ⟨later, hlater, h⟩ := bind_eq_ok.mp h
        cases h
        rw [lookup_annotations_cons, ih hlater]
        simp [Fields.isFor, hown]
      · next key hnot hkey =>
        split at h
        · rw [ih h]
          have hother : Fields.isFor entry id = false := by
            unfold Fields.isFor
            split
            · next own hown => exact absurd (Option.some.inj (hkey.symm.trans hown)) (hnot own)
            · rfl
          simp [hother]
        · cases h

/-- Notes with texts for ids are read. -/
theorem exists_annotations {notes : List Fields}
    (h : ∀ note ∈ notes, ∃ id, note.get? "id" = some (.str id)) :
    ∃ found, annotations (notes.map .obj) = .ok found := by
  induction notes with
  | nil => exact ⟨[], rfl⟩
  | cons note rest ih =>
    rw [List.forall_mem_cons] at h
    obtain ⟨id, hid⟩ := h.1
    obtain ⟨later, hlater⟩ := ih h.2
    simp only [List.map_cons, annotations, hid, hlater]
    exact ⟨_, rfl⟩

theorem objects_map_obj (notes : List Fields) : objects (notes.map .obj) = notes := by
  simp [objects, List.filterMap_map]

/-! ## The tiles of a layout -/

variable {source : Text} {fields : Fields} {tiles : Tiles}

theorem bare_of_tile {row col : Nat} {symbol : Json} {t : Tile}
    (h : Layout.tile source row col symbol = .ok t) : t.bare = t := by
  unfold Layout.tile at h
  split at h
  · split at h
    · split at h
      · cases h
        rfl
      · cases h
    · cases h
  · cases h

theorem bare_of_mem_rowTiles {row col : Nat} {symbols : List Json}
    (h : rowTiles source row col symbols = .ok tiles) : ∀ t ∈ tiles, t.bare = t := by
  induction symbols generalizing col tiles with
  | nil =>
    cases h
    exact nofun
  | cons symbol rest ih =>
    obtain ⟨t, ht, h⟩ := bind_eq_ok.mp h
    obtain ⟨more, hmore, h⟩ := bind_eq_ok.mp h
    cases h
    exact List.forall_mem_cons.mpr ⟨bare_of_tile ht, ih hmore⟩

/-- What is drawn has no annotations of its own. -/
theorem bare_of_mem_tilesFrom {row : Nat} {lines : List Json}
    (h : tilesFrom source row lines = .ok tiles) : ∀ t ∈ tiles, t.bare = t := by
  induction lines generalizing row tiles with
  | nil =>
    cases h
    exact nofun
  | cons line rest ih =>
    obtain ⟨symbols, -, h⟩ := bind_eq_ok.mp h
    obtain ⟨here, hhere, h⟩ := bind_eq_ok.mp h
    obtain ⟨below, hbelow, h⟩ := bind_eq_ok.mp h
    cases h
    exact List.forall_mem_append.mpr ⟨bare_of_mem_rowTiles hhere, ih hbelow⟩

/-- Notes can be read from the tile list of an object. -/
def Notable (fields : Fields) : Prop :=
  ∃ entries found, members ((fields.get? "tiles").getD (.arr [])) = .ok entries ∧
    annotations entries = .ok found

theorem objects_of_members {entries : List Json}
    (h : members ((fields.get? "tiles").getD (.arr [])) = .ok entries) :
    objects entries = notesOf fields := by
  unfold notesOf
  cases hget : fields.get? "tiles" with
  | none =>
    rw [hget] at h
    cases h
    rfl
  | some j =>
    rw [hget, Option.getD_some] at h
    -- A text or an object has texts for members, and no text is a note.
    cases j with
    | arr items =>
      cases h
      rfl
    | str s =>
      cases h
      simp [objects]
    | obj inner =>
      cases h
      simp [objects]
    | null | bool _ | int _ | real _ => cases h

theorem annotate_of_bare {entries : List Json} {found : Annotations}
    (h : annotations entries = .ok found) {t : Tile} (ht : t.bare = t) :
    annotate found t = t.withNotes (objects entries) := by
  have hactive : t.active = .null := (congrArg Tile.active ht).symm
  have hlink : t.link = .null := (congrArg Tile.link ht).symm
  rw [annotate, lookup_annotations h, Tile.withNotes, noted, noted]
  cases lastNote? (objects entries) t.id with
  | none =>
    rw [← ht]
    rfl
  | some note =>
    simp only [hactive, hlink]
    rfl

/-- The tiles of a layout of any kind, with what the notes say of them. -/
theorem tilesOf_drawn {layout : Json} (hlayout : fields.get? "layout" = some layout) :
    tilesOf source fields = .ok tiles ↔
      Notable fields ∧ ∃ lines bare, members layout = .ok lines ∧
        tilesFrom source 0 lines = .ok bare ∧ tiles = bare.map (Tile.withNotes (notesOf fields)) := by
  have hnoted : ∀ {entries : List Json} {found : Annotations} {lines : List Json} {bare : Tiles},
      members ((fields.get? "tiles").getD (.arr [])) = .ok entries →
      annotations entries = .ok found → tilesFrom source 0 lines = .ok bare →
      bare.map (annotate found) = bare.map (Tile.withNotes (notesOf fields)) := by
    intro entries found lines bare hentries hfound hbare
    rw [← objects_of_members hentries]
    exact List.map_congr_left fun t ht =>
      annotate_of_bare hfound (bare_of_mem_tilesFrom hbare t ht)
  simp only [tilesOf, hlayout, drawnTiles]
  constructor
  · intro h
    obtain ⟨lines, hlines, h⟩ := bind_eq_ok.mp h
    obtain ⟨bare, hbare, h⟩ := bind_eq_ok.mp h
    obtain ⟨entries, hentries, h⟩ := bind_eq_ok.mp h
    obtain ⟨found, hfound, h⟩ := bind_eq_ok.mp h
    cases h
    exact ⟨⟨entries, found, hentries, hfound⟩, lines, bare, hlines, hbare,
      hnoted hentries hfound hbare⟩
  · rintro ⟨⟨entries, found, hentries, hfound⟩, lines, bare, hlines, hbare, rfl⟩
    rw [← hnoted hentries hfound hbare]
    exact bind_eq_ok.mpr ⟨lines, hlines, bind_eq_ok.mpr ⟨bare, hbare,
      bind_eq_ok.mpr ⟨entries, hentries, bind_eq_ok.mpr ⟨found, hfound, rfl⟩⟩⟩⟩

/-- The tiles of a layout of texts. -/
theorem tilesOf_texts {rows : List Text} (hlayout : fields.get? "layout" = some (Json.texts rows)) :
    tilesOf source fields = .ok tiles ↔
      Notable fields ∧ Known rows ∧ tiles = (drawn rows).map (Tile.withNotes (notesOf fields)) := by
  have hlines : members (Json.texts rows) = .ok (rows.map .str) := rfl
  rw [tilesOf_drawn hlayout]
  simp only [hlines, Except.ok.injEq, exists_eq_left', tilesFrom_eq_ok, and_assoc,
    exists_and_left, exists_eq_left]

end Level

end RobotPuzzle
