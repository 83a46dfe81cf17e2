import RobotPuzzle.Proofs.Level.Reading

/-!
# What the fields of a level come to

A level is read from an object piece by piece. Its grid comes from four fields: the tiles, drawn or
listed, the extent and the start. All others describe the level whatever its grid is, and each is
checked by itself.

* `Level.checkWith_eq_good`: fields are accepted if each of them is, and what they come to.
* `Level.readFields_eq_ok`: the pieces that a level is read from.
* `Level.read_of_grid`: what an object with a layout, or with tiles and an extent, needs besides.
-/

namespace RobotPuzzle

namespace Checked

variable {α β : Type}

theorem under_eq_good {step : String} {c : Checked α} {a : α} :
    c.under step = .good a ↔ c = .good a := by
  cases c <;> simp [under]

end Checked

namespace Fields

theorem has_eq_isSome (fields : Fields) (name : Text) :
    fields.has name = (fields.get? name).isSome := by
  induction fields with
  | nil => rfl
  | cons f rest ih =>
    rw [has] at ih
    by_cases h : f.1 = name <;> simp [has, get?, h, ih]

variable {fields other : Fields} {name : String}

theorem has_of_get? {j : Json} (h : fields.get? name = some j) : fields.has name = true := by
  rw [has_eq_isSome, h]
  rfl

theorem has_congr (h : other.get? name = fields.get? name) : other.has name = fields.has name := by
  rw [has_eq_isSome, has_eq_isSome, h]

theorem required_congr {α : Type} (h : other.get? name = fields.get? name)
    (check : Field.Check α) : other.required name check = fields.required name check := by
  rw [required, required, h]

theorem optional_congr {α : Type} (h : other.get? name = fields.get? name) (default : α)
    (check : Field.Check α) :
    other.optional name default check = fields.optional name default check := by
  rw [optional, optional, h]

theorem required_eq_good_of_get? {α : Type} {j : Json} (h : fields.get? name = some j)
    {check : Field.Check α} {a : α} :
    fields.required name check = .good a ↔ check j = .good a := by
  rw [required, h]
  exact Checked.under_eq_good

theorem optional_eq_good_of_get? {α : Type} {j : Json} (h : fields.get? name = some j) {default : α}
    {check : Field.Check α} {a : α} :
    fields.optional name default check = .good a ↔ check j = .good a := by
  rw [optional, h]
  exact Checked.under_eq_good

/-- A field that is needed and accepted is there. -/
theorem has_of_required {α : Type} {check : Field.Check α} {a : α}
    (h : fields.required name check = .good a) : fields.has name = true := by
  cases hget : fields.get? name with
  | some j => exact has_of_get? hget
  | none =>
    rw [required, hget] at h
    cases h

end Fields

namespace Level

/-- The fields that a level's grid comes from. -/
def gridFields : List String := ["layout", "tiles", "grid_size", "start_position"]

/-- Fields describe a level, whatever its grid is. -/
structure DescribedBy (level : Level) (fields : Fields) : Prop where
  id : fields.required "id" (Field.atLeast 1) = .good level.id
  name : fields.required "name" Field.text = .good level.name
  chapter : fields.optional "chapter" 1 Field.integer = .good level.chapter
  chapterName : fields.optional "chapter_name" (.ofString "") Field.text = .good level.chapterName
  description : fields.optional "description" (.ofString "") Field.text = .good level.description
  difficulty : fields.optional "difficulty" .beginner Field.word = .good level.difficulty
  facing : fields.optional "start_direction" .right Field.word = .good level.facing
  commands : fields.optional "available_commands" [] (Field.list Field.word) = .good level.commands
  maxBlocks : fields.required "max_blocks" (Field.atLeast 1) = .good level.maxBlocks
  optimalBlocks : fields.optional "optimal_blocks" none (Field.nullable (Field.atLeast 1)) =
    .good level.optimalBlocks
  goal : fields.optional "goal_type" .reachGoal Field.word = .good level.goal
  coinsRequired : fields.optional "coins_required" 0 (Field.atLeast 0) = .good level.coinsRequired
  gemsRequired : fields.optional "gems_required" 0 (Field.atLeast 0) = .good level.gemsRequired
  hints : fields.optional "hints" [] (Field.list Field.text) = .good level.hints

/-- Fields that differ in the grid alone describe the same levels. -/
theorem DescribedBy.congr {level : Level} {fields other : Fields} (h : level.DescribedBy fields)
    (hsame : ∀ name : String, name ∉ gridFields → other.get? name = fields.get? name) :
    level.DescribedBy other where
  id := (Fields.required_congr (hsame _ (by decide)) _).trans h.id
  name := (Fields.required_congr (hsame _ (by decide)) _).trans h.name
  chapter := (Fields.optional_congr (hsame _ (by decide)) _ _).trans h.chapter
  chapterName := (Fields.optional_congr (hsame _ (by decide)) _ _).trans h.chapterName
  description := (Fields.optional_congr (hsame _ (by decide)) _ _).trans h.description
  difficulty := (Fields.optional_congr (hsame _ (by decide)) _ _).trans h.difficulty
  facing := (Fields.optional_congr (hsame _ (by decide)) _ _).trans h.facing
  commands := (Fields.optional_congr (hsame _ (by decide)) _ _).trans h.commands
  maxBlocks := (Fields.required_congr (hsame _ (by decide)) _).trans h.maxBlocks
  optimalBlocks := (Fields.optional_congr (hsame _ (by decide)) _ _).trans h.optimalBlocks
  goal := (Fields.optional_congr (hsame _ (by decide)) _ _).trans h.goal
  coinsRequired := (Fields.optional_congr (hsame _ (by decide)) _ _).trans h.coinsRequired
  gemsRequired := (Fields.optional_congr (hsame _ (by decide)) _ _).trans h.gemsRequired
  hints := (Fields.optional_congr (hsame _ (by decide)) _ _).trans h.hints

variable {source : Text} {fields : Fields} {level : Level}

/-- Whatever the grid is. -/
theorem DescribedBy.with_grid (h : level.DescribedBy fields) (size : GridSize) (tiles : Tiles)
    (start : Position) : { level with size, tiles, start }.DescribedBy fields := { h with }

/-- Fields are accepted if each of them is, and the level has what they come to. The tiles are
checked apart. -/
theorem checkWith_eq_good {tiles : Checked Tiles} :
    checkWith tiles fields = .good level ↔
      level.DescribedBy fields ∧ tiles = .good level.tiles ∧
        fields.required "grid_size" GridSize.check = .good level.size ∧
        fields.required "start_position" Position.check = .good level.start := by
  constructor
  · have hgood : (checkWith tiles fields).Ensures fun level =>
        level.DescribedBy fields ∧ tiles = .good level.tiles ∧
          fields.required "grid_size" GridSize.check = .good level.size ∧
          fields.required "start_position" Position.check = .good level.start := by
      unfold checkWith
      iterate 16 refine Checked.ensures_seq_of (fun _ h => h) ?_
      exact Checked.ensures_map fun id hid name hname chapter hchapter chapterName hchapterName
        description hdescription difficulty hdifficulty size hsize tiles htiles start hstart facing
        hfacing commands hcommands max hmax optimal hoptimal goal hgoal coins hcoins gems hgems
        hints hhints =>
        ⟨⟨hid, hname, hchapter, hchapterName, hdescription, hdifficulty, hfacing, hcommands, hmax,
          hoptimal, hgoal, hcoins, hgems, hhints⟩, htiles, hsize, hstart⟩
    exact hgood level
  · rintro ⟨h, htiles, hsize, hstart⟩
    rw [checkWith, h.id, h.name, h.chapter, h.chapterName, h.description, h.difficulty, hsize,
      htiles, hstart, h.facing, h.commands, h.maxBlocks, h.optimalBlocks, h.goal, h.coinsRequired,
      h.gemsRequired, h.hints]
    rfl

/-! ## The pieces of a level -/

/-- The pieces that a level is read from. -/
structure ReadFrom (level : Level) (source : Text) (fields : Fields) : Prop where
  tiles : tilesOf source fields = .ok level.tiles
  size : ∃ j, extentOf fields = .ok j ∧ GridSize.check j = .good level.size
  start : ∃ j, startOf source fields level.tiles = .ok j ∧ Position.check j = .good level.start
  described : level.DescribedBy fields
  grid : level.gridFault? = none

theorem get?_set_set (fields : Fields) (size start : Json) :
    ((fields.set "grid_size" size).set "start_position" start).get? "grid_size" = some size := by
  rw [Fields.get?_set_of_ne (by decide), Fields.get?_set_self]

theorem describedBy_set_set {size start : Json} :
    level.DescribedBy ((fields.set "grid_size" size).set "start_position" start) ↔
      level.DescribedBy fields := by
  have hsame : ∀ name : String, name ∉ gridFields →
      ((fields.set "grid_size" size).set "start_position" start).get? name = fields.get? name := by
    intro name h
    simp only [gridFields, List.mem_cons, List.not_mem_nil, or_false, not_or] at h
    rw [Fields.get?_set_of_ne (by simpa using h.2.2.2),
      Fields.get?_set_of_ne (by simpa using h.2.2.1)]
  exact ⟨fun h => h.congr fun name hname => (hsame name hname).symm, fun h => h.congr hsame⟩

theorem readFields_eq_ok : readFields source fields = .ok level ↔ level.ReadFrom source fields := by
  have hchecked : ∀ (tiles : Tiles) (size start : Json),
      (checkWith (.good tiles)
        ((fields.set "grid_size" size).set "start_position" start)).result = .ok level ↔
      level.DescribedBy fields ∧ level.tiles = tiles ∧ GridSize.check size = .good level.size ∧
        Position.check start = .good level.start := by
    intro tiles size start
    rw [Checked.result_eq_ok, checkWith_eq_good, Checked.good.injEq, eq_comm (a := tiles),
      describedBy_set_set,
      Fields.required_eq_good_of_get? (get?_set_set fields size start),
      Fields.required_eq_good_of_get? (Fields.get?_set_self _ _ _)]
  unfold readFields
  constructor
  · intro h
    obtain ⟨tiles, htiles, h⟩ := bind_eq_ok.mp h
    obtain ⟨size, hsize, h⟩ := bind_eq_ok.mp h
    obtain ⟨start, hstart, h⟩ := bind_eq_ok.mp h
    obtain ⟨checked, hlevel, h⟩ := bind_eq_ok.mp h
    split at h
    · cases h
    · next hgrid =>
      cases h
      obtain ⟨hdescribed, rfl, hsize', hstart'⟩ := (hchecked tiles size start).mp hlevel
      exact ⟨htiles, ⟨size, hsize, hsize'⟩, ⟨start, hstart, hstart'⟩, hdescribed, hgrid⟩
  · rintro ⟨htiles, ⟨size, hsize, hsize'⟩, ⟨start, hstart, hstart'⟩, hdescribed, hgrid⟩
    refine bind_eq_ok.mpr ⟨_, htiles, bind_eq_ok.mpr ⟨size, hsize, bind_eq_ok.mpr ⟨start, hstart,
      bind_eq_ok.mpr ⟨level, ?_, ?_⟩⟩⟩⟩
    · exact (hchecked _ _ _).mpr ⟨hdescribed, rfl, hsize', hstart'⟩
    · rw [hgrid]
      rfl

/-! ## Extents and starts that are not given -/

theorem isGiven_eq_false {name : Text} :
    isGiven fields name = false ↔ fields.get? name = none ∨ fields.get? name = some .null := by
  unfold isGiven
  split
  · next h => simp [h]
  · next h => simp [h]
  · next j hnot h => simpa [h] using hnot

theorem exists_of_isGiven {name : Text} (h : isGiven fields name = true) :
    ∃ j, fields.get? name = some j ∧ j ≠ .null := by
  unfold isGiven at h
  split at h
  · cases h
  · cases h
  · next j hnot hj => exact ⟨j, hj, hnot⟩

/-- A grid whose extent is not given has that of the layout. -/
theorem extentOf_of_layout {layout : Json} (h : isGiven fields "grid_size" = false)
    (hlayout : fields.get? "layout" = some layout) : extentOf fields = Layout.extent layout := by
  rcases isGiven_eq_false.mp h with hget | hget <;> simp only [extentOf, hget, hlayout]

theorem extentOf_of_given {j : Json} (h : fields.get? "grid_size" = some j) (hj : j ≠ .null) :
    extentOf fields = .ok j := by
  cases j with
  | null => exact absurd rfl hj
  | bool _ | int _ | real _ | str _ | arr _ | obj _ => simp only [extentOf, h]

/-- A start that is not given is where the only start tile is. -/
theorem startOf_of_tiles (h : isGiven fields "start_position" = false) {tiles : Tiles}
    {start : Json} :
    startOf source fields tiles = .ok start ↔
      ∃ t, tiles.filter (·.kind == .start) = [t] ∧ start = t.position.toJson := by
  unfold startOf
  generalize tiles.filter (·.kind == .start) = starts
  rcases isGiven_eq_false.mp h with hget | hget <;> rw [hget] <;>
    rcases starts with _ | ⟨t, _ | ⟨u, rest⟩⟩ <;> simp [eq_comm]

/-- A start that is given does not depend on the tiles, nor on the source. -/
theorem startOf_of_given {other : Fields} {source' : Text} (h : isGiven fields "start_position" = true)
    (hsame : other.get? "start_position" = fields.get? "start_position") (tiles tiles' : Tiles) :
    startOf source' other tiles' = startOf source fields tiles := by
  obtain ⟨j, hget, hj⟩ := exists_of_isGiven h
  cases j with
  | null => exact absurd rfl hj
  | bool _ | int _ | real _ | str _ | arr _ | obj _ => simp only [startOf, hsame, hget]

/-! ## Fields that are needed -/

theorem filterM_ok {α : Type} (p : α → Bool) (l : List α) :
    l.filterM (fun a => (.ok (p a) : Except Fault Bool)) = .ok (l.filter p) := by
  have haux : ∀ found : List α,
      l.filterAuxM (fun a => (.ok (p a) : Except Fault Bool)) found =
        .ok ((l.filter p).reverse ++ found) := by
    induction l with
    | nil => exact fun _ => rfl
    | cons a rest ih =>
      intro found
      cases ha : p a <;> simp [List.filterAuxM, bind, Except.bind, ha, ih]
  simp [List.filterM, haux, bind, Except.bind, pure, Except.pure]

/-- An object lacks the fields that every level needs, and those that a grid needs. -/
theorem missingFields_obj (fields : Fields) :
    missingFields (.obj fields) =
      .ok (requiredFields.filter (fun name : String => !fields.has name) ++
        (if fields.has "tiles" || fields.has "layout" then [] else ["tiles|layout"]) ++
        (if fields.has "layout" || fields.has "grid_size" then [] else ["grid_size"])) := by
  have hmissing := filterM_ok (fun name : String => !fields.has name) requiredFields
  simp only [missingFields, mentions, bind, Except.bind, pure, Except.pure, hmissing]

theorem read_obj_eq_ok :
    read source (.obj fields) = .ok level ↔
      missingFields (.obj fields) = .ok [] ∧ level.ReadFrom source fields := by
  rw [← readFields_eq_ok]
  unfold read
  constructor
  · intro h
    obtain ⟨missing, hmissing, h⟩ := bind_eq_ok.mp h
    split at h
    · next hempty => exact ⟨List.isEmpty_iff.mp hempty ▸ hmissing, h⟩
    · cases h
  · rintro ⟨hmissing, h⟩
    rw [hmissing]
    exact h

/-- **What an object is read from** that draws its tiles, or lists them and has an extent: it only
has to list commands besides. -/
theorem read_of_grid (hgrid : fields.has "layout" = true ∨
    fields.has "tiles" = true ∧ fields.has "grid_size" = true) :
    read source (.obj fields) = .ok level ↔
      fields.has "available_commands" = true ∧ level.ReadFrom source fields := by
  have hmissing : missingFields (.obj fields) = .ok [] ↔
      ∀ name ∈ requiredFields, fields.has (name : String) = true := by
    rw [missingFields_obj]
    rcases hgrid with hlayout | ⟨htiles, hsize⟩
    · simp [List.filter_eq_nil_iff, hlayout]
    · simp [List.filter_eq_nil_iff, htiles, hsize]
  rw [read_obj_eq_ok, hmissing]
  refine ⟨fun ⟨h, hread⟩ => ⟨h _ (by decide), hread⟩, fun ⟨hcommands, hread⟩ => ⟨?_, hread⟩⟩
  have hid := Fields.has_of_required hread.described.id
  have hname := Fields.has_of_required hread.described.name
  have hmax := Fields.has_of_required hread.described.maxBlocks
  simp [requiredFields, hid, hname, hmax, hcommands]

theorem read_of_layout (hlayout : fields.has "layout" = true) :
    read source (.obj fields) = .ok level ↔
      fields.has "available_commands" = true ∧ level.ReadFrom source fields :=
  read_of_grid (.inl hlayout)

end Level

end RobotPuzzle
