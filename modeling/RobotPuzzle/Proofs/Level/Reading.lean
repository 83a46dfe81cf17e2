import Mathlib.Data.List.Nodup
import RobotPuzzle.Level.Reading

/-!
# What a level that has been read is like

A level that has been read has passed its checks: no two tiles share an id or a cell, so that an id
or a cell names one tile at most; tiles and start lie inside the grid; there is one goal tile where
the goal asks for one; the id, the grid's extent and the numbers of blocks are positive.

* `Level.tileFault?_eq_none`, `Level.gridFault?_eq_none`: what the check of the grid lets through.
* `Level.distinct_of_read`: tiles are distinct.
* `Level.exists_goal_of_read`: the goal tile.
* `Level.one_le_id_of_read`, `Level.one_le_optimal_of_read`: the positive numbers.
* `Level.wellFormed_of_read`: all of it, for any JSON value.
-/

namespace RobotPuzzle

theorem bind_eq_ok {α β : Type} {x : Except Fault α} {f : α → Except Fault β} {b : β} :
    x >>= f = .ok b ↔ ∃ a, x = .ok a ∧ f a = .ok b := by
  cases x with
  | error fault => simp [bind, Except.bind]
  | ok a => simp [bind, Except.bind]

namespace Checked

variable {α β : Type}

theorem result_eq_ok {c : Checked α} {a : α} : c.result = .ok a ↔ c = .good a := by
  cases c <;> simp [result]

/-- What a check lets through has a property. -/
def Ensures (P : α → Prop) (c : Checked α) : Prop := ∀ a, c = .good a → P a

theorem ensures_map {P : β → Prop} {f : α → β} {c : Checked α} (h : c.Ensures fun a => P (f a)) :
    (f <$> c).Ensures P := by
  intro b hb
  cases c with
  | good a => cases hb; exact h a rfl
  | bad issues => cases hb

/-- A further field brings a property of its own. -/
theorem ensures_seq_of {P : β → Prop} {Q : α → Prop} {f : Checked (α → β)} {c : Checked α}
    (hc : c.Ensures Q) (h : f.Ensures fun g => ∀ a, Q a → P (g a)) : (f <*> c).Ensures P := by
  intro b hb
  cases f with
  | good g =>
    cases c with
    | good a => cases hb; exact h g rfl a (hc a rfl)
    | bad issues => cases hb
  | bad issues => cases c <;> cases hb

/-- A further field does not matter for a property of those before. -/
theorem ensures_seq {P : β → Prop} {f : Checked (α → β)} {c : Checked α}
    (h : f.Ensures fun g => ∀ a, P (g a)) : (f <*> c).Ensures P :=
  ensures_seq_of (fun _ _ => trivial) fun g hg a _ => h g hg a

theorem ensures_under {P : α → Prop} {step : String} {c : Checked α} (h : c.Ensures P) :
    (c.under step).Ensures P := by
  cases c with
  | good a => exact h
  | bad issues => exact nofun

end Checked

theorem Field.ensures_atLeast (low : Int) (j : Json) : (atLeast low j).Ensures (low ≤ ·) := by
  intro n h
  unfold atLeast Checked.andThen at h
  split at h
  · simp only at h
    split at h
    · next hle => cases h; exact hle
    · cases h
  · cases h

theorem Field.ensures_nullable {α : Type} {P : α → Prop} {inner : Field.Check α}
    (h : ∀ j, (inner j).Ensures P) (j : Json) : (nullable inner j).Ensures (∀ a ∈ ·, P a) := by
  cases j with
  | null => exact fun o ho a ha => by cases ho; cases ha
  | bool _ | int _ | real _ | str _ | arr _ | obj _ =>
    exact Checked.ensures_map fun a ha b hb => by cases hb; exact h _ _ ha

theorem Fields.ensures_required {α : Type} {P : α → Prop} {check : Field.Check α}
    (h : ∀ j, (check j).Ensures P) (fields : Fields) (name : String) :
    (fields.required name check).Ensures P := by
  refine Checked.ensures_under ?_
  cases fields.get? name with
  | none => exact nofun
  | some j => exact h j

theorem Fields.ensures_optional {α : Type} {P : α → Prop} {default : α} {check : Field.Check α}
    (hdefault : P default) (h : ∀ j, (check j).Ensures P) (fields : Fields) (name : String) :
    (fields.optional name default check).Ensures P := by
  refine Checked.ensures_under ?_
  cases fields.get? name with
  | none => exact fun a ha => by cases ha; exact hdefault
  | some j => exact h j

namespace Tiles

/-- No two tiles have the same id, or the same cell. -/
structure Distinct (tiles : Tiles) : Prop where
  ids : (tiles.map Tile.id).Nodup
  cells : (tiles.map Tile.position).Nodup

variable {tiles : Tiles} {t u : Tile}

theorem at?_eq_some {p : Position} (h : tiles.at? p = some t) : t ∈ tiles ∧ t.position = p := by
  refine ⟨List.mem_of_find?_eq_some h, ?_⟩
  have hp := List.find?_some h
  simp only [Bool.and_eq_true, beq_iff_eq] at hp
  cases hpos : t.position
  cases p
  simp_all

theorem Distinct.eq_of_id (h : tiles.Distinct) (ht : t ∈ tiles) (hu : u ∈ tiles)
    (he : t.id = u.id) : t = u :=
  List.inj_on_of_nodup_map h.ids ht hu he

theorem Distinct.eq_of_cell (h : tiles.Distinct) (ht : t ∈ tiles) (hu : u ∈ tiles)
    (he : t.position = u.position) : t = u :=
  List.inj_on_of_nodup_map h.cells ht hu he

/-- The tile of a cell is found there. -/
theorem Distinct.at?_of_mem (h : tiles.Distinct) (ht : t ∈ tiles) :
    tiles.at? t.position = some t := by
  obtain ⟨u, hu⟩ : ∃ u, tiles.at? t.position = some u := by
    refine Option.isSome_iff_exists.mp (List.find?_isSome.mpr ⟨t, ht, ?_⟩)
    simp
  obtain ⟨hmem, hcell⟩ := at?_eq_some hu
  rw [hu, h.eq_of_cell hmem ht hcell]

theorem distinct_cons :
    Distinct (t :: tiles) ↔
      (∀ u ∈ tiles, u.id ≠ t.id ∧ u.position ≠ t.position) ∧ tiles.Distinct := by
  constructor
  · intro h
    obtain ⟨hid, hids⟩ := List.nodup_cons.mp h.ids
    obtain ⟨hcell, hcells⟩ := List.nodup_cons.mp h.cells
    refine ⟨fun u hu => ⟨fun he => hid ?_, fun he => hcell ?_⟩, hids, hcells⟩
    · exact he ▸ List.mem_map_of_mem hu
    · exact he ▸ List.mem_map_of_mem hu
  · rintro ⟨hother, h⟩
    refine ⟨List.nodup_cons.mpr ⟨fun hmem => ?_, h.ids⟩,
      List.nodup_cons.mpr ⟨fun hmem => ?_, h.cells⟩⟩
    · obtain ⟨u, hu, he⟩ := List.mem_map.mp hmem
      exact (hother u hu).1 he
    · obtain ⟨u, hu, he⟩ := List.mem_map.mp hmem
      exact (hother u hu).2 he

/-- What keeps ids and cells keeps tiles distinct. -/
theorem Distinct.map (h : tiles.Distinct) {f : Tile → Tile}
    (hf : ∀ t ∈ tiles, (f t).id = t.id ∧ (f t).position = t.position) :
    Distinct (tiles.map f) := by
  have hids : (tiles.map f).map Tile.id = tiles.map Tile.id := by
    rw [List.map_map]
    exact List.map_congr_left fun t ht => (hf t ht).1
  have hcells : (tiles.map f).map Tile.position = tiles.map Tile.position := by
    rw [List.map_map]
    exact List.map_congr_left fun t ht => (hf t ht).2
  exact ⟨hids ▸ h.ids, hcells ▸ h.cells⟩

/-- What keeps cells can be looked up on them as before. -/
theorem at?_map {f : Tile → Tile} (hf : ∀ t ∈ tiles, (f t).position = t.position) (p : Position) :
    at? (tiles.map f) p = (tiles.at? p).map f := by
  rw [at?, List.find?_map]
  congr 1
  induction tiles with
  | nil => rfl
  | cons t rest ih =>
    have hrest := ih fun u hu => hf u (List.mem_cons_of_mem t hu)
    simp only [at?, List.find?_cons, Function.comp_apply, hf t List.mem_cons_self] at hrest ⊢
    rw [hrest]

end Tiles

namespace Level

theorem tileFault?_cons_eq_none {size : GridSize} {seen : Tiles} {t : Tile} {rest : Tiles} :
    tileFault? size seen (t :: rest) = none ↔
      size.has t.position = true ∧ (∀ u ∈ seen, u.id ≠ t.id ∧ u.position ≠ t.position) ∧
        tileFault? size (t :: seen) rest = none := by
  constructor
  · intro h
    rw [tileFault?] at h
    split at h
    · cases h
    · next hin =>
      split at h
      · cases h
      · next hcell =>
        split at h
        · cases h
        · next hid =>
          simp only [List.any_eq_true, beq_iff_eq, not_exists, not_and] at hcell hid
          exact ⟨by simpa using hin, fun u hu => ⟨hid u hu, hcell u hu⟩, h⟩
  · rintro ⟨hin, hseen, hrest⟩
    have hcell : seen.any (·.position == t.position) = false := by
      simpa using fun u hu => (hseen u hu).2
    have hid : seen.any (·.id == t.id) = false := by
      simpa using fun u hu => (hseen u hu).1
    simp [tileFault?, hin, hcell, hid, hrest]

/-- Tiles have no fault when they lie inside, are distinct, and share nothing with those before. -/
theorem tileFault?_eq_none {size : GridSize} {seen tiles : Tiles} :
    tileFault? size seen tiles = none ↔
      (∀ t ∈ tiles, size.has t.position = true) ∧ tiles.Distinct ∧
        ∀ t ∈ tiles, ∀ u ∈ seen, u.id ≠ t.id ∧ u.position ≠ t.position := by
  induction tiles generalizing seen with
  | nil => exact ⟨fun _ => ⟨nofun, ⟨List.nodup_nil, List.nodup_nil⟩, nofun⟩, fun _ => rfl⟩
  | cons t rest ih =>
    rw [tileFault?_cons_eq_none, ih, Tiles.distinct_cons]
    simp only [List.forall_mem_cons]
    constructor
    · rintro ⟨hin, hseen, hins, hdistinct, hrest⟩
      exact ⟨⟨hin, hins⟩,
        ⟨fun u hu => ⟨Ne.symm (hrest u hu).1.1, Ne.symm (hrest u hu).1.2⟩, hdistinct⟩, hseen, fun u hu => (hrest u hu).2⟩
    · rintro ⟨⟨hin, hins⟩, ⟨hother, hdistinct⟩, hseen, hrest⟩
      exact ⟨hin, hseen, hins, hdistinct,
        fun u hu => ⟨⟨Ne.symm (hother u hu).1, Ne.symm (hother u hu).2⟩, hrest u hu⟩⟩

/-- A level has no fault as a whole when its tiles lie inside the grid and are distinct, the start
is inside, and there is one goal tile where the goal asks for one. -/
theorem gridFault?_eq_none {level : Level} :
    level.gridFault? = none ↔
      (∀ t ∈ level.tiles, level.size.has t.position = true) ∧ level.tiles.Distinct ∧
        level.size.has level.start = true ∧
          (level.goal.needsTile = true → level.tiles.count .goal = 1) := by
  have htiles := @tileFault?_eq_none level.size [] level.tiles
  simp only [List.not_mem_nil, false_implies, implies_true, and_true] at htiles
  cases hfault : tileFault? level.size [] level.tiles with
  | some fault =>
    simp only [gridFault?, hfault, reduceCtorEq, false_iff]
    intro h
    have hnone := htiles.mpr ⟨h.1, h.2.1⟩
    rw [hfault] at hnone
    cases hnone
  | none =>
    obtain ⟨hin, hdistinct⟩ := htiles.mp hfault
    cases hstart : level.size.has level.start with
    | false => simp [gridFault?, hfault, hstart]
    | true => simpa [gridFault?, hfault, hstart, hdistinct] using fun _ => hin

/-- The numbers that have to be positive are. -/
structure Positive (level : Level) : Prop where
  one_le_id : 1 ≤ level.id
  one_le_rows : 1 ≤ level.size.rows
  one_le_cols : 1 ≤ level.size.cols
  one_le_max : 1 ≤ level.maxBlocks
  one_le_optimal : 1 ≤ level.optimal

theorem ensures_gridSize (j : Json) :
    (GridSize.check j).Ensures fun size => 1 ≤ size.rows ∧ 1 ≤ size.cols := by
  cases j with
  | obj fields =>
    have hrows := Fields.ensures_required (Field.ensures_atLeast 1) fields "rows"
    have hcols := Fields.ensures_required (Field.ensures_atLeast 1) fields "cols"
    exact Checked.ensures_seq_of hcols
      (Checked.ensures_map fun rows hr cols hc => ⟨hrows rows hr, hc⟩)
  | null | bool _ | int _ | real _ | str _ | arr _ => exact nofun

/-- The fields of a level that have been checked are positive where they have to be. -/
theorem ensures_checkWith (tiles : Checked Tiles) (fields : Fields) :
    (checkWith tiles fields).Ensures Positive := by
  have hid := Fields.ensures_required (Field.ensures_atLeast 1) fields "id"
  have hsize := Fields.ensures_required ensures_gridSize fields "grid_size"
  have hmax := Fields.ensures_required (Field.ensures_atLeast 1) fields "max_blocks"
  have hoptimal : (fields.optional "optimal_blocks" none
      (Field.nullable (Field.atLeast 1))).Ensures (∀ n ∈ ·, 1 ≤ n) :=
    Fields.ensures_optional nofun (Field.ensures_nullable (Field.ensures_atLeast 1)) fields _
  unfold checkWith
  iterate 4 refine Checked.ensures_seq ?_
  refine Checked.ensures_seq_of hoptimal (Checked.ensures_seq_of hmax ?_)
  iterate 4 refine Checked.ensures_seq ?_
  refine Checked.ensures_seq_of hsize ?_
  iterate 5 refine Checked.ensures_seq ?_
  refine Checked.ensures_map fun id h _ _ _ _ _ size hsize _ _ _ _ max hmax optimal hoptimal
    _ _ _ _ => ⟨hid id h, hsize.1, hsize.2, hmax, ?_⟩
  cases optimal with
  | none => exact hmax
  | some n => exact hoptimal n rfl

/-- What a level that has been read has passed: the checks of its fields and of its grid. -/
structure Sound (level : Level) : Prop where
  one_le_id : 1 ≤ level.id
  one_le_optimal : 1 ≤ level.optimal
  grid : level.gridFault? = none

theorem passed_of_readFields {source : Text} {fields : Fields} {level : Level}
    (h : readFields source fields = .ok level) : level.Positive ∧ level.gridFault? = none := by
  unfold readFields at h
  obtain ⟨tiles, -, h⟩ := bind_eq_ok.mp h
  obtain ⟨size, -, h⟩ := bind_eq_ok.mp h
  obtain ⟨start, -, h⟩ := bind_eq_ok.mp h
  obtain ⟨checked, hchecked, h⟩ := bind_eq_ok.mp h
  split at h
  · cases h
  · next hfault =>
    cases h
    exact ⟨ensures_checkWith _ _ _ (Checked.result_eq_ok.mp hchecked), hfault⟩

theorem passed_of_read {source : Text} {j : Json} {level : Level} (h : read source j = .ok level) :
    level.Positive ∧ level.gridFault? = none := by
  unfold read at h
  obtain ⟨missing, -, h⟩ := bind_eq_ok.mp h
  split at h
  · split at h
    · exact passed_of_readFields h
    · cases h
  · cases h

variable {source : Text} {j : Json} {level : Level}

theorem sound_of_read (h : read source j = .ok level) : level.Sound := by
  obtain ⟨hpositive, hgrid⟩ := passed_of_read h
  exact ⟨hpositive.one_le_id, hpositive.one_le_optimal, hgrid⟩

theorem one_le_id_of_read (h : read source j = .ok level) : 1 ≤ level.id :=
  (sound_of_read h).one_le_id

theorem one_le_optimal_of_read (h : read source j = .ok level) : 1 ≤ level.optimal :=
  (sound_of_read h).one_le_optimal

theorem exists_goal_of_read (h : read source j = .ok level)
    (hneeds : level.goal.needsTile = true) : ∃ t, level.tiles.filter (·.kind = .goal) = [t] := by
  obtain ⟨-, -, -, hgoals⟩ := gridFault?_eq_none.mp (sound_of_read h).grid
  have hone := hgoals hneeds
  rw [Tiles.count, List.countP_eq_length_filter] at hone
  exact List.length_eq_one_iff.mp hone

theorem distinct_of_read (h : read source j = .ok level) : level.tiles.Distinct :=
  (gridFault?_eq_none.mp (sound_of_read h).grid).2.1

/-- A level whose grid is well-formed and whose numbers are positive. -/
structure WellFormed (level : Level) : Prop where
  tiles_inside : ∀ t ∈ level.tiles, level.size.has t.position = true
  cells : (level.tiles.map Tile.position).Nodup
  ids : (level.tiles.map Tile.id).Nodup
  start_inside : level.size.has level.start = true
  one_le_id : 1 ≤ level.id
  one_le_max : 1 ≤ level.maxBlocks
  one_le_rows : 1 ≤ level.size.rows
  one_le_cols : 1 ≤ level.size.cols
  one_le_optimal : 1 ≤ level.optimal
  goal_tile : level.goal = .reachGoal ∨ level.goal = .collectAndReach → level.tiles.count .goal = 1

/-- **Every level that can be read is well-formed**, whatever JSON value it is read from: with tiles
that are listed or drawn and annotated, with an extent and a start that are given or found. -/
theorem wellFormed_of_read (h : read source j = .ok level) : level.WellFormed := by
  obtain ⟨hpositive, hgrid⟩ := passed_of_read h
  obtain ⟨hinside, hdistinct, hstart, hgoals⟩ := gridFault?_eq_none.mp hgrid
  refine ⟨hinside, hdistinct.cells, hdistinct.ids, hstart, hpositive.one_le_id,
    hpositive.one_le_max, hpositive.one_le_rows, hpositive.one_le_cols, hpositive.one_le_optimal,
    fun hgoal => hgoals ?_⟩
  rcases hgoal with hgoal | hgoal
  all_goals rw [hgoal]; rfl

end Level

/-! ## A sample -/

/-- A level that is drawn in rows of different lengths, with an annotated button. -/
def terraceFile : Json :=
  .obj [("id", .int 3), ("name", .str "Terrace"), ("available_commands", .arr []),
    ("max_blocks", .int 4), ("layout", .arr [.str "#So", .str "b", .str ".D^G"]),
    ("tiles", .arr [.obj [("id", .str "t-1-0"), ("linked_to", .str "t-2-1")]])]

theorem wellFormed_terrace :
    ∃ level, Level.read "terrace.json" terraceFile = .ok level ∧ level.size = ⟨3, 4⟩ ∧
      level.start = ⟨0, 1⟩ ∧ level.WellFormed := by
  have hsome : ((Level.read "terrace.json" terraceFile).toOption.map fun level =>
      (level.size, level.start)) = some (⟨3, 4⟩, ⟨0, 1⟩) := by decide +kernel
  obtain ⟨level, hlevel, hshape⟩ := Option.map_eq_some_iff.mp hsome
  obtain ⟨hsize, hstart⟩ := Prod.mk.inj hshape
  have hread : Level.read "terrace.json" terraceFile = .ok level := by
    cases hr : Level.read "terrace.json" terraceFile with
    | error fault => simp [hr, Except.toOption] at hlevel
    | ok found => simpa [hr, Except.toOption] using hlevel
  exact ⟨level, hread, hsize, hstart, Level.wellFormed_of_read hread⟩

end RobotPuzzle
