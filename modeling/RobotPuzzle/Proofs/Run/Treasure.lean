import Mathlib.Data.Finset.Card
import RobotPuzzle.Proofs.Level.Reading
import RobotPuzzle.Proofs.Run.Reached

/-!
# Coins and gems

A coin or a gem is taken when the robot first lands on its cell, and becomes floor, so it is taken
once. What a run has taken can be read off its history: it is what lies on the cells that the robot
has landed on. The robot's start is no landing, and neither is the cell that a jump passes over.

* `Treasure.Treats`: what one instruction can do to the treasure.
* `Treasure.tallies_commit`: each instruction keeps the tally.
* `Run.gathers_of_reached`: what has been taken at any moment of any run.
-/

namespace RobotPuzzle

/-- What a robot picks up. -/
inductive Treasure where
  | coin
  | gem
  deriving DecidableEq, Repr

namespace Treasure

/-- The tiles on which it lies. -/
def kind : Treasure → TileKind
  | .coin => .coin
  | .gem => .gem

/-- How many a robot has. -/
def held : Treasure → Robot → Int
  | .coin => Robot.coins
  | .gem => Robot.gems

theorem kind_ne_floor (k : Treasure) : k.kind ≠ .floor := by cases k <;> decide

theorem kind_ne_door (k : Treasure) : k.kind ≠ .door := by cases k <;> decide

end Treasure

/-! ## One instruction -/

namespace Treasure

variable {k : Treasure} {tiles : Tiles} {robot robot' : Robot} {landing : Option Position}
  {e : Effect}

/-- A change that spares a treasure: it is meant for a tile of another kind, which keeps its kind or
becomes floor. -/
structure Spares (k : Treasure) (tiles : Tiles) (c : TileChange) : Prop where
  kind : c.kind = none ∨ c.kind = some .floor
  tile : ∃ t ∈ tiles, t.id = c.id ∧ t.kind ≠ k.kind

/-- What an instruction that lands on a cell, or on none, can do to a treasure: it spares it, and
then none lies on that cell, or it takes the one that lies there. -/
inductive Treats (k : Treasure) (tiles : Tiles) (robot : Robot) (landing : Option Position)
    (e : Effect) : Prop where
  | spares (hheld : k.held e.robot = k.held robot)
      (hcell : ∀ p ∈ landing, ∀ t, tiles.at? p = some t → t.kind ≠ k.kind)
      (hchanges : ∀ c ∈ e.changes, k.Spares tiles c)
  | takes (t : Tile) (hcell : landing = some t.position) (ht : t ∈ tiles) (hkind : t.kind = k.kind)
      (hheld : k.held e.robot = k.held robot + 1) (hchanges : e.changes = [.toFloor t.id])

theorem Treats.of_held (h : k.Treats tiles robot landing e) (hr : k.held robot = k.held robot') :
    k.Treats tiles robot' landing e := by
  cases h with
  | spares hheld hcell hchanges => exact .spares (hheld.trans hr) hcell hchanges
  | takes t hcell ht hkind hheld hchanges =>
    exact .takes t hcell ht hkind (by rw [hheld, hr]) hchanges

/-- Nothing is landed on, and nothing is changed. -/
theorem treats_unchanged (hheld : k.held e.robot = k.held robot) (hchanges : e.changes = []) :
    k.Treats tiles robot none e := by
  refine .spares hheld nofun ?_
  rw [hchanges]
  exact nofun

/-- A door is no treasure. -/
theorem spares_door {t door : Tile} (h : tiles.doorOf? (some t) = some door) {c : TileChange}
    (hid : c.id = door.id) (hkind : c.kind = none ∨ c.kind = some .floor) : k.Spares tiles c := by
  have hdoor : door.kind = .door := by simpa using List.find?_some h
  exact ⟨hkind, door, List.mem_of_find?_eq_some h, hid.symm, hdoor ▸ k.kind_ne_door.symm⟩

/-- What is landed on is not the treasure. -/
theorem treats_other {t : Tile} {p : Position} (hat : tiles.at? p = some t)
    (hkind : t.kind ≠ k.kind) (hheld : k.held e.robot = k.held robot)
    (hchanges : ∀ c ∈ e.changes, k.Spares tiles c) : k.Treats tiles robot (some p) e := by
  refine .spares hheld (fun q hq u hu => ?_) hchanges
  cases hq
  cases hat.symm.trans hu
  exact hkind

/-- A treasure of a kind is picked up: it is this treasure, or another one. -/
theorem treats_pick (other : Treasure) {t : Tile} {p : Position} (hat : tiles.at? p = some t)
    (hkind : t.kind = other.kind)
    (hheld : k.held e.robot = k.held robot + if k = other then 1 else 0)
    (hchanges : e.changes = [.toFloor t.id]) : k.Treats tiles robot (some p) e := by
  obtain ⟨ht, hcell⟩ := Tiles.at?_eq_some hat
  by_cases h : k = other
  · rw [if_pos h] at hheld
    exact .takes t (congrArg some hcell.symm) ht (h ▸ hkind) hheld hchanges
  · rw [if_neg h, Int.add_zero] at hheld
    have hne : t.kind ≠ k.kind := by
      rw [hkind]
      cases k <;> cases other <;> first | exact absurd rfl h | decide
    refine treats_other hat hne hheld fun c hc => ?_
    rw [hchanges, List.mem_singleton] at hc
    rw [hc]
    exact ⟨.inr rfl, t, ht, rfl, hne⟩

/-- Landing takes what lies on the cell, if it is the treasure. -/
theorem treats_land (k : Treasure) (robot : Robot) (tiles : Tiles) :
    k.Treats tiles robot
      (if (robot.land tiles).success then some (robot.land tiles).robot.position else none)
      (robot.land tiles) := by
  unfold Robot.land
  split
  · next hat =>
    refine .spares rfl (fun p hp t ht => ?_) nofun
    cases hp
    cases hat.symm.trans ht
  · next tile hat =>
    split
    · exact treats_unchanged rfl rfl
    · next hkind => exact treats_pick .coin hat hkind (by cases k <;> simp [held]) rfl
    · next hkind => exact treats_pick .gem hat hkind (by cases k <;> simp [held]) rfl
    · next hkind =>
      have hne : tile.kind ≠ k.kind := by rw [hkind]; cases k <;> decide
      split
      · next door hdoor =>
        refine treats_other hat hne rfl fun c hc => ?_
        rw [List.mem_singleton.mp hc]
        exact spares_door hdoor rfl (.inr rfl)
      · exact treats_other hat hne rfl nofun
    · next hcoin hgem _ =>
      have hne : tile.kind ≠ k.kind := by cases k <;> assumption
      exact treats_other hat hne rfl nofun

theorem treats_interact (k : Treasure) (robot : Robot) (tiles : Tiles) :
    k.Treats tiles robot none (robot.interact tiles) := by
  unfold Robot.interact
  split
  · exact treats_unchanged rfl rfl
  · split
    · split
      · exact treats_unchanged rfl rfl
      · next door hdoor =>
        refine .spares rfl nofun fun c hc => ?_
        rw [List.mem_singleton.mp hc]
        exact spares_door hdoor rfl (.inl rfl)
    · exact treats_unchanged rfl rfl

/-- What an instruction does to a treasure. -/
theorem treats_execute (k : Treasure) (block : Block) (robot : Robot) (tiles : Tiles)
    (size : GridSize) :
    k.Treats tiles robot (Step.execute block robot tiles size).landing?
      (robot.settled.obey size tiles block.command) := by
  have hobeys := robot.settled.obeys size tiles block.command
  have hheld : ∀ {robot' : Robot}, robot.settled.SameTreasure robot' →
      k.held robot' = k.held robot := fun h => by
    cases k with
    | coin => exact h.coins
    | gem => exact h.gems
  unfold Step.execute
  generalize robot.settled.obey size tiles block.command = e at hobeys ⊢
  simp only [Step.landing?]
  cases hobeys with
  | lands robot' hcommand hsame =>
    simpa [hcommand] using (treats_land k robot' tiles).of_held (hheld hsame)
  | blocked message => exact treats_unchanged (hheld ⟨rfl, rfl⟩) rfl
  | interacts hcommand =>
    simpa [hcommand, Command.lands] using
      (treats_interact k robot.settled tiles).of_held (hheld ⟨rfl, rfl⟩)
  | rests robot' hlands _ hsame => simpa [hlands] using treats_unchanged (hheld hsame) rfl

/-! ## The tally of a run -/

/-- The cells on which it lies. -/
def cells (k : Treasure) (tiles : Tiles) : List Position :=
  (tiles.filter (·.kind == k.kind)).map Tile.position

/-- What has become of a tile after landings on some cells: it is the treasure if it was and its
cell has not been landed on, and if it was and has, it is floor. -/
structure Traces (k : Treasure) (landed : List Position) (t t' : Tile) : Prop where
  id : t'.id = t.id
  cell : t'.position = t.position
  left : t'.kind = k.kind ↔ t.kind = k.kind ∧ t.position ∉ landed
  taken : t.kind = k.kind → t.position ∈ landed → t'.kind = .floor

/-- The tally of a treasure of some tiles after landings on some cells: each tile has become what it
should, and the robot has the treasure of the cells that were landed on. -/
structure Tallies (k : Treasure) (tiles : Tiles) (landed : List Position) (world : World) :
    Prop where
  traced : ∃ f : Tile → Tile, world.tiles = tiles.map f ∧ ∀ t ∈ tiles, k.Traces landed t (f t)
  held : k.held world.robot = (landed.toFinset.filter (· ∈ k.cells tiles)).card

variable {past : List Position} {t t' : Tile}

/-- Landing on another cell, or on one with no treasure left, traces no tile anew. -/
theorem Traces.landed (h : k.Traces past t t')
    (hcell : t.position ∈ landing → t'.kind ≠ k.kind) :
    k.Traces (past ++ landing.toList) t t' := by
  have hmem : t.position ∈ past ++ landing.toList ↔
      t.position ∈ past ∨ t.position ∈ landing := by simp
  refine ⟨h.id, h.cell, ⟨fun hk => ?_, fun hk => ?_⟩, fun hk hpos => ?_⟩
  · obtain ⟨hkind, hnot⟩ := h.left.mp hk
    refine ⟨hkind, fun hpos => ?_⟩
    rcases hmem.mp hpos with hpos | hpos
    · exact hnot hpos
    · exact hcell hpos hk
  · exact h.left.mpr ⟨hk.1, fun hpos => hk.2 (hmem.mpr (.inl hpos))⟩
  · refine h.taken hk (Decidable.byContradiction fun hnot => ?_)
    have hleft : t'.kind = k.kind := h.left.mpr ⟨hk, hnot⟩
    rcases hmem.mp hpos with hpos | hpos
    · exact hnot hpos
    · exact hcell hpos hleft

/-- A change that is for a tile finds it another than the treasure, and keeps its kind or makes it
floor. -/
def Passes (k : Treasure) (c : TileChange) (t : Tile) : Prop :=
  c.id = t.id → t.kind ≠ k.kind ∧ (c.kind = none ∨ c.kind = some .floor)

/-- Such a change leaves the tile its kind, or makes another tile than the treasure floor. -/
theorem kind_on_of_passes {c : TileChange} (h : k.Passes c t) :
    (c.on t).kind = t.kind ∨ t.kind ≠ k.kind ∧ (c.on t).kind = .floor := by
  unfold TileChange.on
  by_cases hid : c.id = t.id
  · obtain ⟨hne, hkind | hkind⟩ := h hid
    · exact .inl (by simp [hid, hkind])
    · exact .inr ⟨hne, by simp [hid, hkind]⟩
  · exact .inl (by rw [if_neg hid])

theorem Traces.on (h : k.Traces past t t') {c : TileChange} (hc : k.Passes c t') :
    k.Traces past t (c.on t') := by
  have hid := (c.id_on t').trans h.id
  have hcell := (c.position_on t').trans h.cell
  rcases kind_on_of_passes hc with hkind | ⟨hne, hkind⟩
  · exact ⟨hid, hcell, by rw [hkind]; exact h.left, by rw [hkind]; exact h.taken⟩
  · refine ⟨hid, hcell, ⟨fun hk => ?_, fun hk => absurd (h.left.mpr hk) hne⟩, fun _ _ => hkind⟩
    exact absurd (hk.symm.trans hkind) k.kind_ne_floor

theorem passes_on {c d : TileChange} (hc : k.Passes c t) (hd : k.Passes d t) :
    k.Passes d (c.on t) := by
  intro hid
  obtain ⟨hne, hkind⟩ := hd (hid.trans (c.id_on t))
  refine ⟨?_, hkind⟩
  rcases kind_on_of_passes hc with hon | ⟨-, hon⟩ <;> rw [hon]
  · exact hne
  · exact k.kind_ne_floor.symm

/-- Changes that spare the treasure do not matter. -/
theorem Traces.changed (h : k.Traces past t t') {changes : List TileChange}
    (hc : ∀ c ∈ changes, k.Passes c t') :
    k.Traces past t (changes.foldl (fun t c => c.on t) t') := by
  induction changes generalizing t' with
  | nil => exact h
  | cons c rest ih =>
    have hfirst := hc c List.mem_cons_self
    exact ih (h.on hfirst) fun d hd => passes_on hfirst (hc d (List.mem_cons_of_mem c hd))

/-- The tile on which the treasure is taken becomes floor, and no other one changes. -/
theorem Traces.taking {u : Tile} (h : k.Traces past t t') (hsame : t'.id = u.id → t' = u)
    (hcell : t'.position = u.position → t' = u) :
    k.Traces (past ++ [u.position]) t ((TileChange.toFloor u.id).on t') := by
  by_cases hid : u.id = t'.id
  · have hu : t' = u := hsame hid.symm
    have hkind : ((TileChange.toFloor u.id).on t').kind = .floor := by
      simp [TileChange.on, TileChange.toFloor, hid]
    refine ⟨(TileChange.id_on _ t').trans h.id, (TileChange.position_on _ t').trans h.cell,
      ⟨fun hk => ?_, fun hk => ?_⟩, fun _ _ => hkind⟩
    · exact absurd (hk.symm.trans hkind) k.kind_ne_floor
    · exact absurd (by rw [← hu, h.cell]; simp) hk.2
  · have hon : (TileChange.toFloor u.id).on t' = t' := if_neg hid
    rw [hon]
    have hpast : k.Traces (past ++ (some u.position).toList) t t' := by
      refine h.landed fun hpos => ?_
      have hu : t' = u := hcell (h.cell.trans (Option.some.inj hpos).symm)
      exact absurd (hu ▸ rfl) hid
    exact hpast

/-- The number of cells of the treasure that have been landed on, after another landing. -/
theorem card_landed (k : Treasure) (tiles : Tiles) (past : List Position) (p : Position) :
    ((past ++ [p]).toFinset.filter (· ∈ k.cells tiles)).card =
      (past.toFinset.filter (· ∈ k.cells tiles)).card +
        if p ∈ k.cells tiles ∧ p ∉ past then 1 else 0 := by
  have hinsert : (past ++ [p]).toFinset = insert p past.toFinset := by
    ext q
    simp
  rw [hinsert, Finset.filter_insert]
  by_cases hp : p ∈ k.cells tiles
  · by_cases hpast : p ∈ past
    · simp [hp, hpast]
    · rw [if_pos hp, Finset.card_insert_of_notMem (by simp [hpast])]
      simp [hp, hpast]
  · simp [hp]

theorem mem_cells {p : Position} :
    p ∈ k.cells tiles ↔ ∃ t ∈ tiles, t.kind = k.kind ∧ t.position = p := by
  simp [cells, and_assoc]

/-- Tiles keep their ids and cells. -/
theorem Tallies.distinct {world : World} (hd : tiles.Distinct) (h : k.Tallies tiles past world) :
    world.tiles.Distinct := by
  obtain ⟨f, hf, htraced⟩ := h.traced
  rw [hf]
  exact hd.map fun t ht => ⟨(htraced t ht).id, (htraced t ht).cell⟩

/-- **An instruction keeps the tally.** -/
theorem tallies_commit {world : World} (hd : tiles.Distinct) (h : k.Tallies tiles past world)
    {step : Step} (ht : k.Treats world.tiles world.robot landing e) (hrobot : step.robot = e.robot)
    (hchanges : step.changes = e.changes) :
    k.Tallies tiles (past ++ landing.toList) (step.commit world) := by
  have hworld := h.distinct hd
  obtain ⟨f, hf, htraced⟩ := h.traced
  have hmem : ∀ t ∈ tiles, f t ∈ world.tiles := fun t ht => hf ▸ List.mem_map_of_mem ht
  have htiles : (step.commit world).tiles =
      tiles.map fun t => e.changes.foldl (fun t c => c.on t) (f t) := by
    show world.tiles.apply step.changes = _
    rw [hchanges, hf, Tiles.apply, List.map_map]
    rfl
  have hheld : k.held (step.commit world).robot = k.held e.robot := by rw [← hrobot]; rfl
  cases ht with
  | spares hsame hcell hspares =>
    constructor
    · refine ⟨_, htiles, fun t ht => Traces.changed (Traces.landed (htraced t ht) fun hpos => ?_)
        fun c hc hid => ?_⟩
      · refine hcell _ hpos _ ?_
        rw [← (htraced t ht).cell]
        exact hworld.at?_of_mem (hmem t ht)
      · obtain ⟨hkind, u, hu, hu', hne⟩ := hspares c hc
        rw [hworld.eq_of_id (hmem t ht) hu (hid.symm.trans hu'.symm)]
        exact ⟨hne, hkind⟩
    · rw [hheld, hsame, h.held]
      cases landing with
      | none => simp
      | some p =>
        have hnone : ¬ (p ∈ k.cells tiles ∧ p ∉ past) := by
          rintro ⟨hp, hpast⟩
          obtain ⟨t, ht, hkind, hpos⟩ := mem_cells.mp hp
          have hleft := (htraced t ht).left.mpr ⟨hkind, hpos ▸ hpast⟩
          refine hcell p rfl (f t) ?_ hleft
          rw [← hpos, ← (htraced t ht).cell]
          exact hworld.at?_of_mem (hmem t ht)
        rw [Option.toList_some, card_landed, if_neg hnone, Nat.add_zero]
  | takes u hcell hu hkind hmore htaken =>
    constructor
    · refine ⟨_, htiles, fun t ht => ?_⟩
      rw [htaken, hcell]
      exact (htraced t ht).taking (hworld.eq_of_id (hmem t ht) hu)
        (hworld.eq_of_cell (hmem t ht) hu)
    · obtain ⟨t, ht, rfl⟩ := List.mem_map.mp (hf ▸ hu)
      have hpos := (htraced t ht).cell
      obtain ⟨hk, hpast⟩ := (htraced t ht).left.mp hkind
      have hnew : (f t).position ∈ k.cells tiles ∧ (f t).position ∉ past :=
        ⟨mem_cells.mpr ⟨t, ht, hk, hpos.symm⟩, hpos ▸ hpast⟩
      rw [hheld, hmore, h.held, hcell, Option.toList_some, card_landed, if_pos hnew]
      rfl

theorem tallies_initial (k : Treasure) (level : Level) :
    k.Tallies level.tiles [] level.initialWorld := by
  refine ⟨⟨Tile.atStart, rfl, fun t _ => ?_⟩, by cases k <;> rfl⟩
  have hkind : t.atStart.kind = t.kind := by unfold Tile.atStart; split <;> rfl
  refine ⟨?_, ?_, ?_, ?_⟩
  · unfold Tile.atStart; split <;> rfl
  · unfold Tile.atStart; split <;> rfl
  · simp [hkind]
  · exact fun _ hpos => by cases hpos

/-- What the robot has and what is left is what there was. -/
theorem Tallies.total {world : World} (hd : tiles.Distinct) (h : k.Tallies tiles past world) :
    k.held world.robot + world.tiles.count k.kind = tiles.count k.kind := by
  obtain ⟨f, hf, htraced⟩ := h.traced
  have hleft : world.tiles.count k.kind = (k.cells tiles).countP (· ∉ past) := by
    rw [hf, Tiles.count, List.countP_map, cells, List.countP_map, List.countP_filter]
    refine List.countP_congr fun t ht => ?_
    simp [(htraced t ht).left, and_comm]
  have htaken : (past.toFinset.filter (· ∈ k.cells tiles)).card =
      (k.cells tiles).countP (· ∈ past) := by
    have hsame : past.toFinset.filter (· ∈ k.cells tiles) =
        ((k.cells tiles).filter (· ∈ past)).toFinset := by
      ext p
      simp [and_comm]
    have hnodup : (k.cells tiles).Nodup := hd.cells.sublist (List.filter_sublist.map _)
    rw [hsame, List.toFinset_card_of_nodup (hnodup.filter _), List.countP_eq_length_filter]
  have hall : tiles.count k.kind = (k.cells tiles).length := by
    rw [cells, List.length_map, Tiles.count, List.countP_eq_length_filter]
  have hsplit : (k.cells tiles).length =
      (k.cells tiles).countP (· ∈ past) + (k.cells tiles).countP (· ∉ past) := by
    simpa using List.length_eq_countP_add_countP (l := k.cells tiles) (· ∈ past)
  rw [h.held, hleft, htaken, hall, hsplit]
  rfl

end Treasure

namespace Run

/-! ## Runs of a level -/

/-- What a run of a level has gathered of a treasure at a moment. -/
structure Gathers (r : Run) (level : Level) (k : Treasure) : Prop where
  /-- A tile is still the treasure exactly if its cell has not been landed on; otherwise it is
  floor. -/
  left : ∀ t ∈ level.tiles, t.kind = k.kind →
    ∃ t', r.world.tiles.at? t.position = some t' ∧ t'.id = t.id ∧
      (t'.kind = k.kind ↔ t.position ∉ r.landings) ∧
      (t.position ∈ r.landings → t'.kind = .floor)
  /-- No other tile is the treasure. -/
  only : ∀ t' ∈ r.world.tiles, t'.kind = k.kind →
    ∃ t ∈ level.tiles, t.kind = k.kind ∧ t.id = t'.id ∧ t.position = t'.position
  /-- The robot has one for each cell of the treasure that has been landed on, however often. -/
  held : k.held r.world.robot = (r.landings.toFinset.filter (· ∈ k.cells level.tiles)).card
  total : k.held r.world.robot + r.world.tiles.count k.kind = level.tiles.count k.kind

theorem tallies_of_reached {level : Level} (hd : level.tiles.Distinct) {r : Run}
    (hr : Reached level r) (k : Treasure) :
    r.level = level ∧ k.Tallies level.tiles r.landings r.world := by
  refine holds_of_reached
    (P := fun history world => k.Tallies level.tiles (history.filterMap Step.landing?) world)
    (k.tallies_initial level) (fun history world block _ h => ?_) hr
  intro step
  have hland : [step].filterMap Step.landing? = step.landing?.toList := by
    cases hs : step.landing? <;> simp [hs]
  rw [List.filterMap_append, hland]
  exact Treasure.tallies_commit hd h
    (k.treats_execute block world.robot world.tiles level.size) rfl rfl

theorem gathers_of_tallies {level : Level} (hd : level.tiles.Distinct) {r : Run} {k : Treasure}
    (h : k.Tallies level.tiles r.landings r.world) : r.Gathers level k := by
  have hworld := h.distinct hd
  obtain ⟨f, hf, htraced⟩ := h.traced
  refine ⟨fun t ht hk => ⟨f t, ?_, (htraced t ht).id, ?_, (htraced t ht).taken hk⟩,
    fun t' ht' hk => ?_, h.held, h.total hd⟩
  · rw [← (htraced t ht).cell]
    exact hworld.at?_of_mem (hf ▸ List.mem_map_of_mem ht)
  · rw [(htraced t ht).left, and_iff_right hk]
  · obtain ⟨t, ht, rfl⟩ := List.mem_map.mp (hf ▸ ht')
    have htrace := htraced t ht
    exact ⟨t, ht, (htrace.left.mp hk).1, htrace.id.symm, htrace.cell.symm⟩

/-- **Each coin and each gem is taken once, on the first landing.** At any moment of any run of a
level that has been read, what lay on the cells that the run has landed on has been taken, once, and
has become floor for the rest of the run; all else still lies where it lay. -/
theorem gathers_of_reached {source : Text} {j : Json} {level : Level}
    (h : Level.read source j = .ok level) {r : Run} (hr : Reached level r) (k : Treasure) :
    r.Gathers level k ∧ ∀ r', r.Onward r' → r'.Gathers level k ∧
      ∀ t ∈ level.tiles, t.kind = k.kind → t.position ∈ r.landings →
        ∃ t', r'.world.tiles.at? t.position = some t' ∧ t'.id = t.id ∧ t'.kind = .floor := by
  have hd := Level.distinct_of_read h
  have hgathers : ∀ {r : Run}, Reached level r → r.Gathers level k :=
    fun hr => gathers_of_tallies hd (tallies_of_reached hd hr k).2
  refine ⟨hgathers hr, fun r' hon => ?_⟩
  have hlater := hgathers (reached_onward hr hon)
  refine ⟨hlater, fun t ht hk hpos => ?_⟩
  obtain ⟨t', hat, hid, -, htaken⟩ := hlater.left t ht hk
  exact ⟨t', hat, hid, htaken ((landings_onward hon).subset hpos)⟩

end Run

/-! ## A sample -/

/-- A level that is drawn in one row, with a coin, a gem and another coin on the way to the goal. -/
def yardFile : Json :=
  .obj [("id", .int 1), ("name", .str "Yard"), ("available_commands", .arr []),
    ("max_blocks", .int 9), ("layout", .arr [.str "So*oG"])]

/-- The level that is drawn. -/
def yard : Level :=
  { id := 1, name := "Yard", chapter := 1, chapterName := "", description := ""
    difficulty := .beginner, size := ⟨1, 5⟩
    tiles := [.plain "t-0-0" .start ⟨0, 0⟩, .plain "t-0-1" .coin ⟨0, 1⟩,
      .plain "t-0-2" .gem ⟨0, 2⟩, .plain "t-0-3" .coin ⟨0, 3⟩, .plain "t-0-4" .goal ⟨0, 4⟩]
    start := ⟨0, 0⟩, facing := .right, commands := [], maxBlocks := 9
    optimalBlocks := none, goal := .reachGoal, coinsRequired := 0, gemsRequired := 0
    hints := [] }

/-- Forward, back and forward again. -/
def toAndFro : List Block :=
  [⟨.moveForward, "1", 0, none⟩, ⟨.moveBackward, "2", 0, none⟩, ⟨.moveForward, "3", 0, none⟩]

open Run in
/-- The robot lands on the first coin twice and has one coin. -/
theorem gathers_toAndFro :
    let first := (((fresh yard none).start toAndFro .still).run.step .still).run
    let last := ((first.step .still).run.step .still).run
    last.landings = [⟨0, 1⟩, ⟨0, 0⟩, ⟨0, 1⟩] ∧ Treasure.coin.held last.world.robot = 1 ∧
      first.Gathers yard .coin ∧ last.Gathers yard .coin ∧
      ∃ t', last.world.tiles.at? ⟨0, 1⟩ = some t' ∧ t'.id = "t-0-1" ∧ t'.kind = .floor := by
  intro first last
  have hread : Level.read "yard.json" yardFile = .ok yard := by with_unfolding_all rfl
  have hfirst : Reached yard first := .step (.start (.fresh none) toAndFro .still) .still
  have hlast : first.Onward last := .step (.step .here .still) .still
  obtain ⟨hthen, hlater⟩ := gathers_of_reached hread hfirst .coin
  obtain ⟨hnow, htaken⟩ := hlater last hlast
  refine ⟨by decide +kernel, by decide +kernel, hthen, hnow, ?_⟩
  exact htaken (.plain "t-0-1" .coin ⟨0, 1⟩) (List.mem_cons_of_mem _ List.mem_cons_self) rfl
    (by decide +kernel)

end RobotPuzzle
