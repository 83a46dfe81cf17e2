import RobotPuzzle.Proofs.Level.Drawing

/-!
# Which layouts are accepted

An object that sketches a level, with a layout in the stead of a tile list, is read exactly if the
layout fits: every symbol is known, the grid has a row and a column at least and has all cells of
the layout, the start is inside the grid, and there is a goal tile where the goal asks for one. The
extent of the grid and the start may be given. A start that is given is the start, even if there is
a start tile that would do; otherwise there must be exactly one.

* `Layout.extent_iff`: the extent of a layout.
* `Level.size_iff`, `Level.start_iff`: the extent and the start that a level is read with.
* `Level.fits_of_read`, `Level.exists_read_of_fits`: the layouts of the sketches that are read.
* `Level.acceptsExactly_of_sketchedBy`: a sketch is accepted exactly if its layout fits.
* `Level.start_outside_refused`: one start tile is not enough where a start is given.
-/

namespace RobotPuzzle

theorem GridSize.check_obj {g : Fields} {e size : GridSize}
    (hrows : g.get? "rows" = some (.int e.rows)) (hcols : g.get? "cols" = some (.int e.cols)) :
    check (.obj g) = .good size ↔ size = e ∧ 1 ≤ size.rows ∧ 1 ≤ size.cols := by
  have hfield : ∀ {name : String} {n m : Int}, g.get? name = some (.int n) →
      (g.required name (Field.atLeast 1) = .good m ↔ m = n ∧ 1 ≤ n) := fun hget =>
    (Fields.required_eq_good_of_get? hget).trans Field.atLeast_int
  constructor
  · have hgood : (check (.obj g)).Ensures fun size =>
        size = e ∧ 1 ≤ size.rows ∧ 1 ≤ size.cols := by
      refine Checked.ensures_seq_of (fun _ h => h) (Checked.ensures_map fun rows hr cols hc => ?_)
      obtain ⟨rfl, hrows⟩ := (hfield hrows).mp hr
      obtain ⟨rfl, hcols⟩ := (hfield hcols).mp hc
      exact ⟨rfl, hrows, hcols⟩
    exact hgood size
  · rintro ⟨rfl, hr, hc⟩
    rw [check, Field.record, (hfield hrows).mpr ⟨rfl, hr⟩, (hfield hcols).mpr ⟨rfl, hc⟩]
    rfl

theorem Position.check_obj {g : Fields} {p start : Position}
    (hrow : g.get? "row" = some (.int p.row)) (hcol : g.get? "col" = some (.int p.col)) :
    check (.obj g) = .good start ↔ start = p := by
  have hgood : check (.obj g) = .good p := by
    simp [check, Field.record, Fields.required, hrow, hcol, Field.integer, Checked.under, Seq.seq,
      Functor.map, Checked.seq, Checked.map]
  rw [hgood, Checked.good.injEq]
  exact eq_comm

namespace Layout

/-! ## Extents -/

/-- The extent of a grid: the one that is given, or else the rows of the layout by the columns of
its longest row. -/
def gridFor (rows : List Text) (size? : Option GridSize) : GridSize :=
  size?.getD ⟨rows.length, ((rows.map List.length).max?.getD 0 : Nat)⟩

theorem extent_texts (rows : List Text) :
    extent (Json.texts rows) =
      match (rows.map List.length).max? with
      | none => .error .emptyLayout
      | some cols => .ok (.obj [("rows", .int rows.length), ("cols", .int cols)]) := by
  have hwidths : ∀ rows : List Text, (rows.map Json.str).mapM (fun line =>
      (do return (← members line).length : Except Fault Nat)) = .ok (rows.map List.length) := by
    intro rows
    induction rows with
    | nil => rfl
    | cons line rest ih =>
      rw [List.map_cons, List.mapM_cons, ih]
      simp [members, pure, Except.pure, bind, Except.bind]
  have hlines : members (Json.texts rows) = .ok (rows.map .str) := rfl
  have hok : ∀ {α β : Type} (a : α) (f : α → Except Fault β), (.ok a >>= f) = f a := fun _ _ => rfl
  rw [extent, hlines, hok, hwidths, hok, List.length_map]
  rfl

/-- The extent of a layout is accepted if it has a row and a column. -/
theorem extent_iff {rows : List Text} {size : GridSize} :
    (∃ j, extent (Json.texts rows) = .ok j ∧ GridSize.check j = .good size) ↔
      size = gridFor rows none ∧ 1 ≤ size.rows ∧ 1 ≤ size.cols := by
  rw [extent_texts]
  cases hmax : (rows.map List.length).max? with
  | none =>
    -- There is no longest row of none, and the grid would have no row either.
    have hrows : rows = [] := by simpa using hmax
    simp only [reduceCtorEq, false_and, exists_false, false_iff]
    rintro ⟨rfl, hpos, -⟩
    rw [hrows] at hpos
    exact absurd hpos (by decide)
  | some cols =>
    simp only [Except.ok.injEq, exists_eq_left', gridFor, hmax, Option.getD_none, Option.getD_some]
    exact GridSize.check_obj rfl rfl

/-! ## Layouts that fit -/

/-- Where a start can be: inside the grid if it is given, and on the only start tile otherwise. -/
def StartFits (rows : List Text) (size : GridSize) : Option Position → Prop
  | some start => size.has start = true
  | none => rows.flatten.count (.char 'S') = 1

/-- A layout fits its grid, its start and the goal. -/
structure Fits (rows : List Text) (size? : Option GridSize) (start? : Option Position)
    (goal : Goal) : Prop where
  known : Known rows
  one_le_rows : 1 ≤ (gridFor rows size?).rows
  one_le_cols : 1 ≤ (gridFor rows size?).cols
  inside : ∀ row col p, symbol? rows row col = some p → (gridFor rows size?).has ⟨row, col⟩ = true
  start : StartFits rows (gridFor rows size?) start?
  goal : goal = .collectAll ∨ rows.flatten.count (.char 'G') = 1

/-- Tiles that are drawn are inside if the cells of the layout are. -/
theorem forall_has_drawn {rows : List Text} {size : GridSize} :
    (∀ t ∈ drawn rows, size.has t.position = true) ↔
      ∀ row col p, symbol? rows row col = some p → size.has ⟨row, col⟩ = true := by
  constructor
  · intro h row col p hp
    exact h _ (mem_drawn.mpr ⟨row, col, p, hp, rfl⟩)
  · intro h t ht
    obtain ⟨row, col, p, hp, rfl⟩ := mem_drawn.mp ht
    exact h row col p hp

theorem count_goal_drawn (rows : List Text) :
    (drawn rows).count .goal = rows.flatten.count (.char 'G') := count_drawn rows rfl (by decide)

theorem exists_only_start {rows : List Text} :
    (∃ t, (drawn rows).filter (·.kind == .start) = [t]) ↔ rows.flatten.count (.char 'S') = 1 := by
  rw [← List.length_eq_one_iff, ← List.countP_eq_length_filter, ← count_drawn rows rfl (by decide)]
  rfl

end Layout

namespace Level

open Layout

variable {source : Text} {fields : Fields} {rows : List Text} {size? : Option GridSize}
  {start? : Option Position} {described level : Level}

/-- The extent is left out, or consists of two integers. -/
def GivesSize (fields : Fields) : Option GridSize → Prop
  | none => isGiven fields "grid_size" = false
  | some size => ∃ g : Fields, fields.get? "grid_size" = some (.obj g) ∧
    g.get? "rows" = some (.int size.rows) ∧ g.get? "cols" = some (.int size.cols)

/-- The start is left out, or consists of two integers. -/
def GivesStart (fields : Fields) : Option Position → Prop
  | none => isGiven fields "start_position" = false
  | some start => ∃ p : Fields, fields.get? "start_position" = some (.obj p) ∧
    p.get? "row" = some (.int start.row) ∧ p.get? "col" = some (.int start.col)

/-- An object with a layout and without a tile list, which may give the extent and the start, and
whose other fields describe a level. -/
structure SketchedBy (described : Level) (fields : Fields) (rows : List Text)
    (size? : Option GridSize) (start? : Option Position) : Prop where
  layout : fields.get? "layout" = some (Json.texts rows)
  tiles : fields.get? "tiles" = none
  commands : fields.has "available_commands" = true
  size : GivesSize fields size?
  start : GivesStart fields start?
  others : described.DescribedBy fields

/-! ## Extents and starts -/

theorem size_iff (h : described.SketchedBy fields rows size? start?) {size : GridSize} :
    (∃ j, extentOf fields = .ok j ∧ GridSize.check j = .good size) ↔
      size = gridFor rows size? ∧ 1 ≤ size.rows ∧ 1 ≤ size.cols := by
  cases size? with
  | some given =>
    obtain ⟨g, hget, hrows, hcols⟩ := h.size
    rw [extentOf_of_given hget (by simp)]
    simp only [Except.ok.injEq, exists_eq_left']
    exact GridSize.check_obj hrows hcols
  | none =>
    rw [extentOf_of_layout h.size h.layout]
    exact extent_iff

/-- A position is the start among some tiles: the one that is given, or that of the only start
tile. -/
def StartsAt (tiles : Tiles) (start : Position) : Option Position → Prop
  | some given => start = given
  | none => ∃ t, tiles.filter (·.kind == .start) = [t] ∧ start = t.position

theorem start_iff (h : described.SketchedBy fields rows size? start?) {tiles : Tiles}
    {start : Position} :
    (∃ j, startOf source fields tiles = .ok j ∧ Position.check j = .good start) ↔
      StartsAt tiles start start? := by
  cases start? with
  | some given =>
    obtain ⟨p, hget, hrow, hcol⟩ := h.start
    have hstart : startOf source fields tiles = .ok (.obj p) := by simp only [startOf, hget]
    rw [hstart]
    simp only [Except.ok.injEq, exists_eq_left']
    exact Position.check_obj hrow hcol
  | none =>
    simp only [startOf_of_tiles h.start]
    constructor
    · rintro ⟨_, ⟨t, ht, rfl⟩, hcheck⟩
      exact ⟨t, ht, (Checked.good.inj hcheck).symm⟩
    · rintro ⟨t, ht, rfl⟩
      exact ⟨_, ⟨t, ht, rfl⟩, t.position.check_toJson⟩

/-! ## Sketches that are accepted -/

theorem readFrom_of_read (h : described.SketchedBy fields rows size? start?)
    (hread : read source (.obj fields) = .ok level) : level.ReadFrom source fields :=
  ((read_of_layout (Fields.has_of_get? h.layout)).mp hread).2

/-- The tiles of a sketch are those that its layout draws. -/
theorem tiles_of_read (h : described.SketchedBy fields rows size? start?)
    (hread : read source (.obj fields) = .ok level) : Known rows ∧ level.tiles = drawn rows :=
  (tilesOf_layout_alone h.layout h.tiles).mp (readFrom_of_read h hread).tiles

theorem needsTile_iff (goal : Goal) {n : Nat} :
    (goal.needsTile = true → n = 1) ↔ goal = .collectAll ∨ n = 1 := by
  cases goal <;> simp [Goal.needsTile]

/-- The layout of a sketch that is read fits. -/
theorem fits_of_read (h : described.SketchedBy fields rows size? start?)
    (hread : read source (.obj fields) = .ok level) : Fits rows size? start? described.goal := by
  have hfrom := readFrom_of_read h hread
  obtain ⟨hknown, htiles⟩ := tiles_of_read h hread
  obtain ⟨hsize, hrows, hcols⟩ := (size_iff h).mp hfrom.size
  have hstart := (start_iff h).mp hfrom.start
  obtain ⟨hinside, -, hhas, hgoal⟩ := gridFault?_eq_none.mp hfrom.grid
  -- Only the extent, the tiles and the start of `described` are made up.
  have hsame : level.goal = described.goal :=
    Checked.good.inj (hfrom.described.goal.symm.trans h.others.goal)
  rw [htiles, hsize] at hinside
  rw [hsize] at hrows hcols hhas
  rw [hsame, htiles, count_goal_drawn] at hgoal
  refine ⟨hknown, hrows, hcols, forall_has_drawn.mp hinside, ?_, (needsTile_iff _).mp hgoal⟩
  cases start? with
  | some given =>
    rw [show level.start = given from hstart] at hhas
    exact hhas
  | none =>
    obtain ⟨t, ht, -⟩ := hstart
    rw [htiles] at ht
    exact exists_only_start.mp ⟨t, ht⟩

/-- A layout that fits has a start inside the grid. -/
theorem exists_start_of_fits {goal : Goal} (h : Fits rows size? start? goal) :
    ∃ start, (gridFor rows size?).has start = true ∧ StartsAt (drawn rows) start start? := by
  cases start? with
  | some given => exact ⟨given, h.start, rfl⟩
  | none =>
    obtain ⟨t, ht⟩ := exists_only_start.mpr h.start
    have hmem : t ∈ drawn rows := List.mem_of_mem_filter (ht ▸ List.mem_singleton_self t)
    exact ⟨t.position, forall_has_drawn.mpr h.inside t hmem, t, ht, rfl⟩

/-- A sketch whose layout fits is read. -/
theorem exists_read_of_fits (h : described.SketchedBy fields rows size? start?)
    (hfits : Fits rows size? start? described.goal) :
    ∃ level, read source (.obj fields) = .ok level := by
  obtain ⟨start, hhas, hstart⟩ := exists_start_of_fits hfits
  refine ⟨{ described with size := gridFor rows size?, tiles := drawn rows, start },
    (read_of_layout (Fields.has_of_get? h.layout)).mpr ⟨h.commands, ?_⟩⟩
  exact
    { tiles := (tilesOf_layout_alone h.layout h.tiles).mpr ⟨hfits.known, rfl⟩
      size := (size_iff h).mpr ⟨rfl, hfits.one_le_rows, hfits.one_le_cols⟩
      start := (start_iff h).mpr hstart
      described := h.others.with_grid _ _ _
      grid := gridFault?_eq_none.mpr ⟨forall_has_drawn.mpr hfits.inside, distinct_drawn rows, hhas,
        by
          rw [count_goal_drawn]
          exact (needsTile_iff _).mpr hfits.goal⟩ }

/-- What becomes of a sketch. -/
structure AcceptsExactly (source : Text) (fields : Fields) (rows : List Text)
    (size? : Option GridSize) (start? : Option Position) (goal : Goal) : Prop where
  accepted : (∃ level, read source (.obj fields) = .ok level) ↔ Fits rows size? start? goal
  /-- A sketch that is read has one tile for each symbol, row by row, whose id and cell tell the row
  and the column, and whose kind is what the symbol stands for. -/
  tiles : ∀ level, read source (.obj fields) = .ok level → level.tiles = drawn rows
  refused : ¬ Fits rows size? start? goal → ∃ fault, read source (.obj fields) = .error fault

/-- **A sketch is accepted exactly if its layout fits.** -/
theorem acceptsExactly_of_sketchedBy (h : described.SketchedBy fields rows size? start?)
    (source : Text) : AcceptsExactly source fields rows size? start? described.goal where
  accepted := ⟨fun ⟨_, hread⟩ => fits_of_read h hread, exists_read_of_fits h⟩
  tiles := fun _ hread => (tiles_of_read h hread).2
  refused := fun hfits => by
    cases hread : read source (.obj fields) with
    | error fault => exact ⟨fault, rfl⟩
    | ok level => exact absurd (fits_of_read h hread) hfits

end Level

/-! ## A sample -/

/-- What the court's other fields describe. -/
def courtLevel : Level where
  id := 5
  name := "Court"
  chapter := 1
  chapterName := ""
  description := ""
  difficulty := .beginner
  size := ⟨1, 1⟩
  tiles := []
  start := ⟨0, 0⟩
  facing := .right
  commands := []
  maxBlocks := 4
  optimalBlocks := none
  goal := .reachGoal
  coinsRequired := 0
  gemsRequired := 0
  hints := []

theorem describedBy_court : courtLevel.DescribedBy courtFields := by
  constructor <;> rfl

theorem fits_court : Layout.Fits courtRows none none .reachGoal where
  known := by decide
  one_le_rows := by decide
  one_le_cols := by decide
  inside := Layout.forall_has_drawn.mp (by decide)
  start := show courtRows.flatten.count (.char 'S') = 1 by decide
  goal := .inr (by decide)

open Level in
theorem acceptsExactly_court :
    ∃ level, read "court.json" (.obj courtFields) = .ok level ∧
      level.tiles = Layout.drawn courtRows := by
  have hsketched : courtLevel.SketchedBy courtFields courtRows none none :=
    ⟨rfl, rfl, rfl, rfl, rfl, describedBy_court⟩
  have hexactly := acceptsExactly_of_sketchedBy hsketched "court.json"
  obtain ⟨level, hread⟩ := hexactly.accepted.mpr fits_court
  exact ⟨level, hread, hexactly.tiles level hread⟩

/-- The court with a start outside the grid. -/
def courtAstray : Fields := ("start_position", Position.toJson ⟨5, 5⟩) :: courtFields

open Level in
/-- **One start tile is not enough where a start is given**: the court fits, and has one start tile,
but it is not read with a start outside the grid. -/
theorem start_outside_refused :
    courtLevel.SketchedBy courtAstray courtRows none (some ⟨5, 5⟩) ∧
      Layout.Fits courtRows none none courtLevel.goal ∧
      read "court.json" (.obj courtAstray) = .error (.level "court.json" .startOutside) := by
  refine ⟨⟨rfl, rfl, rfl, rfl, ⟨_, rfl, rfl, rfl⟩, ?_⟩, fits_court, ?_⟩
  · constructor <;> rfl
  · rfl

end RobotPuzzle
