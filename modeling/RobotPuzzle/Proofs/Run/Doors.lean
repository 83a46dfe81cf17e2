import Mathlib.Algebra.Ring.Parity
import Mathlib.Data.List.DropRight
import RobotPuzzle.Proofs.Level.Reading
import RobotPuzzle.Proofs.Run.Reached

/-!
# Tiles and doors in the course of a run

A run changes coins, gems and doors, and no other tile. Each landing on a button makes the first
door that is left floor, so the doors go one after the other, in the order of the tiles; pressing a
button from in front of it toggles the first door that is left, and the others stay closed. So the
state of every door can be read off the history.

* `Run.openings`, `Run.toggles`: what the history says of the doors.
* `Step.Alters`: what one instruction can do to tiles.
* `Tiles.evolved_apply`: each instruction keeps to it.
* `Run.evolves_of_reached`: the tiles at any moment of any run.
-/

namespace RobotPuzzle

namespace Tiles

/-- The doors among tiles, in order. -/
def doors (tiles : Tiles) : Tiles := tiles.filter (·.kind = .door)

/-- Whether a button lies on a cell. -/
def hasButton (tiles : Tiles) (p : Position) : Bool := (tiles.at? p).any (·.kind = .button)

theorem mem_doors {tiles : Tiles} {d : Tile} : d ∈ tiles.doors ↔ d ∈ tiles ∧ d.kind = .door := by
  simp [doors]

end Tiles

/-- What opens a door for good. -/
def Tile.opening (door : Tile) : TileChange := ⟨door.id, some .floor, some true⟩

/-- What toggles a door. -/
def Tile.toggling (door : Tile) : TileChange := ⟨door.id, none, some !door.active.truthy⟩

namespace Step

/-- Whether a step landed on a button. -/
def opens (tiles : Tiles) (step : Step) : Bool := step.landing?.any tiles.hasButton

/-- Whether a step interacted with a button that the robot faces. -/
def presses (tiles : Tiles) (step : Step) : Bool :=
  step.command = .interact && tiles.hasButton (step.robot.cellAhead 1)

/-- How many steps landed on a button. -/
def openings (tiles : Tiles) (history : List Step) : Nat := history.countP (opens tiles)

/-- How many steps pressed a button since one landed on a button, or else since the start. -/
def toggles (tiles : Tiles) (history : List Step) : Nat :=
  (history.rtakeWhile fun step => !step.opens tiles).countP (presses tiles)

theorem openings_concat (tiles : Tiles) (history : List Step) (step : Step) :
    openings tiles (history ++ [step]) =
      openings tiles history + if step.opens tiles then 1 else 0 := by
  rw [openings, List.countP_append, List.countP_singleton]
  rfl

theorem toggles_concat (tiles : Tiles) (history : List Step) (step : Step) :
    toggles tiles (history ++ [step]) =
      if step.opens tiles then 0
      else toggles tiles history + if step.presses tiles then 1 else 0 := by
  rw [toggles, List.rtakeWhile_concat]
  cases step.opens tiles with
  | true => rfl
  | false => simp [toggles, List.countP_append, List.countP_singleton]

/-- What an instruction can do to tiles, by whether it lands on a button and whether it presses one:
change nothing, take a coin or a gem, make the first door that is left floor, or toggle it. -/
inductive Alters (tiles : Tiles) : (opens presses : Bool) → List TileChange → Prop where
  | rests : Alters tiles false false []
  | takes (t : Tile) (ht : t ∈ tiles) (hkind : t.kind = .coin ∨ t.kind = .gem) :
      Alters tiles false false [.toFloor t.id]
  | opens : Alters tiles true false
      ((tiles.firstOf? .door).toList.map Tile.opening)
  | toggles : Alters tiles false true
      ((tiles.firstOf? .door).toList.map Tile.toggling)

/-! ## One instruction -/

theorem alters_land (robot : Robot) (tiles : Tiles) :
    let e := robot.land tiles
    Alters tiles (e.success && tiles.hasButton e.robot.position) false e.changes := by
  unfold Robot.land
  split
  · next hat =>
    have hnone : tiles.hasButton robot.position = false := by simp [Tiles.hasButton, hat]
    simpa [Effect.quiet, hnone] using Alters.rests
  · next t hat =>
    obtain ⟨ht, -⟩ := Tiles.at?_eq_some hat
    have hbutton : tiles.hasButton robot.position = decide (t.kind = .button) := by
      simp [Tiles.hasButton, hat]
    split
    · exact .rests
    · next hkind => simpa [hbutton, hkind] using Alters.takes t ht (.inl hkind)
    · next hkind => simpa [hbutton, hkind] using Alters.takes t ht (.inr hkind)
    · next hkind =>
      have hopens := @Alters.opens tiles
      split
      · next d hd =>
        rw [show tiles.firstOf? .door = some d from hd] at hopens
        simpa [hbutton, hkind, Tile.opening] using hopens
      · next hd =>
        rw [show tiles.firstOf? .door = none from hd] at hopens
        simpa [Effect.quiet, hbutton, hkind] using hopens
    · next _ _ _ hkind =>
      have hnone : tiles.hasButton robot.position = false := by
        simpa [hbutton] using hkind
      simpa [Effect.quiet, hnone] using Alters.rests

theorem alters_interact (robot : Robot) (tiles : Tiles) :
    let e := robot.interact tiles
    Alters tiles false (tiles.hasButton (e.robot.cellAhead 1)) e.changes := by
  unfold Robot.interact
  split
  · next hat =>
    have hnone : tiles.hasButton (robot.cellAhead 1) = false := by simp [Tiles.hasButton, hat]
    simpa [Effect.quiet, hnone] using Alters.rests
  · next t hat =>
    have hbutton : tiles.hasButton (robot.cellAhead 1) = decide (t.kind = .button) := by
      simp [Tiles.hasButton, hat]
    split
    · next hkind =>
      have htoggles := @Alters.toggles tiles
      split
      · next hd =>
        rw [show tiles.firstOf? .door = none from hd] at htoggles
        simpa [Effect.quiet, hbutton, hkind] using htoggles
      · next d hd =>
        rw [show tiles.firstOf? .door = some d from hd] at htoggles
        simpa [hbutton, hkind, Tile.toggling] using htoggles
    · next hkind => simpa [Effect.quiet, hbutton, hkind] using Alters.rests

/-- What an instruction does to tiles. -/
theorem alters_execute (block : Block) (robot : Robot) (tiles : Tiles) (size : GridSize) :
    let step := execute block robot tiles size
    Alters tiles (step.opens tiles) (step.presses tiles) step.changes := by
  have hobeys := robot.settled.obeys size tiles block.command
  unfold execute
  generalize robot.settled.obey size tiles block.command = e at hobeys ⊢
  simp only [opens, presses, landing?]
  cases hobeys with
  | lands robot' hcommand =>
    have hne : block.command ≠ .interact := fun he => by simp [he, Command.lands] at hcommand
    have hland := alters_land robot' tiles
    cases hsuccess : (robot'.land tiles).success with
    | true => simpa [hcommand, hne, hsuccess] using hland
    | false => simpa [hne, hsuccess] using hland
  | blocked message hcommand =>
    have hne : block.command ≠ .interact := fun he => by simp [he, Command.lands] at hcommand
    simpa [hne, Effect.failure] using Alters.rests
  | interacts hcommand =>
    simpa [hcommand, Command.lands] using alters_interact robot.settled tiles
  | rests robot' hlands hinteracts =>
    simpa [hlands, hinteracts, Effect.quiet] using Alters.rests

end Step

/-! ## What becomes of tiles -/

namespace Tile

variable {t t' : Tile}

/-- What lasts of a tile: its id, cell and link. Only coins, gems and doors change, and their kind
to nothing but floor. -/
structure Lasts (t t' : Tile) : Prop where
  id : t'.id = t.id
  cell : t'.position = t.position
  link : t'.link = t.link
  kind : t'.kind = t.kind ∨ t'.kind = .floor
  same : t.kind ≠ .coin → t.kind ≠ .gem → t.kind ≠ .door → t' = t

/-- A change for a coin, a gem or a door, which keeps its kind or makes it floor. -/
theorem Lasts.on (h : t.Lasts t') {c : TileChange}
    (hc : c.id = t.id → (t.kind = .coin ∨ t.kind = .gem ∨ t.kind = .door) ∧
      (c.kind = none ∨ c.kind = some .floor)) : t.Lasts (c.on t') := by
  by_cases hid : c.id = t'.id
  · obtain ⟨hkind, hfloor⟩ := hc (hid.trans h.id)
    refine ⟨(c.id_on t').trans h.id, (c.position_on t').trans h.cell, ?_, ?_, ?_⟩
    · rw [TileChange.on, if_pos hid]
      exact h.link
    · rw [TileChange.on, if_pos hid]
      rcases hfloor with hk | hk
      · simpa [hk] using h.kind
      · simp [hk]
    · intro hcoin hgem hdoor
      rcases hkind with hk | hk | hk <;> contradiction
  · rwa [TileChange.on, if_neg hid]

/-- Door number `i` after some openings and, since the last one, some toggles: the doors before are
floor, the first one that is left is open after an odd number of toggles, the others are closed. -/
def asDoor (openings toggles i : Nat) (d : Tile) : Tile :=
  if i < openings then { d with kind := .floor, active := .bool true }
  else { d with active := .bool (i = openings ∧ Odd toggles) }

theorem id_asDoor (m n i : Nat) (d : Tile) : (d.asDoor m n i).id = d.id := by
  unfold asDoor
  split <;> rfl

theorem asDoor_opened (m n i : Nat) (d : Tile) :
    d.asDoor (m + 1) 0 i =
      if i = m then (d.asDoor m n m).opening.on (d.asDoor m n m) else d.asDoor m n i := by
  unfold asDoor
  rcases Nat.lt_trichotomy i m with h | rfl | h
  · simp [h, Nat.lt_succ_of_lt h, Nat.ne_of_lt h]
  · simp [opening, TileChange.on]
  · simp [Nat.not_lt_of_gt h, Nat.ne_of_gt h, show ¬ i < m + 1 by omega]

theorem asDoor_toggled (m n i : Nat) (d : Tile) :
    d.asDoor m (n + 1) i =
      if i = m then (d.asDoor m n m).toggling.on (d.asDoor m n m) else d.asDoor m n i := by
  unfold asDoor
  by_cases h : i = m
  · simp [h, toggling, TileChange.on, Json.truthy, Nat.odd_add_one, -Nat.not_odd_iff_even]
  · simp [h]

/-- The first door that is left is the one behind those that have been opened. -/
theorem find?_asDoor {doors : List Tile} (hdoors : ∀ d ∈ doors, d.kind = .door) (m n : Nat) :
    (doors.mapIdx (asDoor m n)).find? (·.kind == .door) = doors[m]?.map (asDoor m n m) := by
  induction doors generalizing m with
  | nil => rfl
  | cons d rest ih =>
    have hrest : ∀ d ∈ rest, d.kind = .door := fun e he => hdoors e (List.mem_cons_of_mem d he)
    have hd : d.kind = .door := hdoors d List.mem_cons_self
    cases m with
    | zero => simp [asDoor, hd]
    | succ m =>
      have hshift : (fun i => asDoor (m + 1) n (i + 1)) = asDoor m n := by
        funext i e
        simp [asDoor]
      have hsame : asDoor (m + 1) n (m + 1) = asDoor m n m := congrFun hshift m
      have hfloor : ((d.asDoor (m + 1) n 0).kind == .door) = false := by simp [asDoor]
      rw [List.mapIdx_cons, List.find?_cons, hfloor, hshift, List.getElem?_cons_succ, hsame]
      exact ih hrest m

end Tile

namespace Tiles

variable {tiles : Tiles} {f : Tile → Tile}

theorem hasButton_map (hf : ∀ t ∈ tiles, t.Lasts (f t)) (p : Position) :
    hasButton (tiles.map f) p = tiles.hasButton p := by
  rw [hasButton, hasButton, at?_map fun t ht => (hf t ht).cell]
  cases hat : tiles.at? p with
  | none => rfl
  | some t =>
    have hlasts := hf t (at?_eq_some hat).1
    by_cases hkind : t.kind = .button
    · have hsame : f t = t := hlasts.same (by simp [hkind]) (by simp [hkind]) (by simp [hkind])
      simp [hsame]
    · have hother : (f t).kind ≠ .button := by
        rcases hlasts.kind with h | h <;> rw [h]
        · exact hkind
        · decide
      simp [hkind, hother]

/-- No tile becomes one of another kind than floor. -/
theorem firstOf?_map (hf : ∀ t ∈ tiles, t.Lasts (f t)) {kind : TileKind} (hkind : kind ≠ .floor) :
    firstOf? (tiles.map f) kind =
      ((tiles.filter (·.kind = kind)).map f).find? (·.kind == kind) := by
  unfold firstOf?
  induction tiles with
  | nil => rfl
  | cons t rest ih =>
    have hrest := ih fun u hu => hf u (List.mem_cons_of_mem t hu)
    by_cases ht : t.kind = kind
    · rw [List.filter_cons_of_pos (by simpa using ht), List.map_cons, List.map_cons,
        List.find?_cons, List.find?_cons, hrest]
    · have hne : (f t).kind ≠ kind := by
        rcases (hf t List.mem_cons_self).kind with h | h <;> rw [h]
        · exact ht
        · exact hkind.symm
      rw [List.filter_cons_of_neg (by simpa using ht), List.map_cons,
        List.find?_cons_of_neg (by simpa using hne), hrest]

/-- The tiles of a level have become what its history says. -/
def Evolved (tiles : Tiles) (history : List Step) (now : Tiles) : Prop :=
  ∃ f : Tile → Tile, now = tiles.map f ∧ (∀ t ∈ tiles, t.Lasts (f t)) ∧
    tiles.doors.map f =
      tiles.doors.mapIdx (Tile.asDoor (Step.openings tiles history) (Step.toggles tiles history))

theorem Evolved.distinct {history : List Step} {now : Tiles} (hd : tiles.Distinct)
    (h : tiles.Evolved history now) : now.Distinct := by
  obtain ⟨f, rfl, hf, -⟩ := h
  exact hd.map fun t ht => ⟨(hf t ht).id, (hf t ht).cell⟩

theorem evolved_initial (level : Level) :
    level.tiles.Evolved [] level.initialWorld.tiles := by
  refine ⟨Tile.atStart, rfl, fun t _ => ?_, ?_⟩
  · unfold Tile.atStart
    split
    · next hkind => exact ⟨rfl, rfl, rfl, .inl rfl, fun _ _ hdoor => absurd hkind hdoor⟩
    · exact ⟨rfl, rfl, rfl, .inl rfl, fun _ _ _ => rfl⟩
  · apply List.ext_getElem?
    intro i
    rw [List.getElem?_map, List.getElem?_mapIdx]
    cases hi : level.tiles.doors[i]? with
    | none => rfl
    | some d =>
      have hkind := (mem_doors.mp (List.mem_of_getElem? hi)).2
      simp [Tile.atStart, Tile.asDoor, hkind, Step.openings, Step.toggles]

/-- A change for one door leaves the others as they are. -/
theorem map_on_doors (hd : tiles.Distinct) {g : Nat → Tile → Tile} (hg : ∀ i d, (g i d).id = d.id)
    (hdoors : tiles.doors.map f = tiles.doors.mapIdx g) {m : Nat} {d : Tile}
    (hm : tiles.doors[m]? = some d) {c : TileChange} (hc : c.id = d.id) :
    tiles.doors.map (fun t => c.on (f t)) =
      tiles.doors.mapIdx fun i e => if i = m then c.on (g i e) else g i e := by
  apply List.ext_getElem?
  intro i
  have hi := congrArg (fun doors => doors[i]?) hdoors
  simp only [List.getElem?_map, List.getElem?_mapIdx] at hi ⊢
  cases he : tiles.doors[i]? with
  | none => rfl
  | some e =>
    have hfe : f e = g i e := by simpa [he] using hi
    by_cases him : i = m
    · simp [him, hfe]
    · have hne : c.id ≠ (g i e).id := by
        intro hid
        have hsame : e = d := hd.eq_of_id (mem_doors.mp (List.mem_of_getElem? he)).1
          (mem_doors.mp (List.mem_of_getElem? hm)).1 ((hg i e).symm.trans (hid.symm.trans hc))
        have hnodup : tiles.doors.Nodup := hd.ids.of_map.filter _
        exact him ((List.getElem?_inj (List.getElem?_eq_some_iff.mp he).1 hnodup).mp
          (he.trans (hsame ▸ hm.symm)))
      simp [him, hfe, TileChange.on, hne]

/-- The first door that is left changes, if one is. -/
theorem evolved_on_first (hd : tiles.Distinct) (hf : ∀ t ∈ tiles, t.Lasts (f t)) {m n m' n' : Nat}
    (hdoors : tiles.doors.map f = tiles.doors.mapIdx (Tile.asDoor m n)) {c : Tile → TileChange}
    (hid : ∀ d, (c d).id = d.id) (hkind : ∀ d, (c d).kind = none ∨ (c d).kind = some .floor)
    (hnext : ∀ i (d : Tile), d.asDoor m' n' i =
      if i = m then (c (d.asDoor m n m)).on (d.asDoor m n m) else d.asDoor m n i) :
    let changes := (firstOf? (tiles.map f) .door).toList.map c
    ∃ g, (tiles.map fun t => changes.foldl (fun t c => c.on t) (f t)) = tiles.map g ∧
      (∀ t ∈ tiles, t.Lasts (g t)) ∧
      tiles.doors.map g = tiles.doors.mapIdx (Tile.asDoor m' n') := by
  have hfirst : firstOf? (tiles.map f) .door = tiles.doors[m]?.map (Tile.asDoor m n m) := by
    rw [firstOf?_map hf (by decide)]
    refine Eq.trans ?_ (Tile.find?_asDoor (fun d hd => (mem_doors.mp hd).2) m n)
    rw [← hdoors]
    rfl
  rw [hfirst]
  cases hm : tiles.doors[m]? with
  | none =>
    refine ⟨f, rfl, hf, hdoors.trans (List.mapIdx_eq_mapIdx_iff.mpr fun i hi => ?_)⟩
    have hne : i ≠ m := (Nat.lt_of_lt_of_le hi (List.getElem?_eq_none_iff.mp hm)).ne
    rw [hnext, if_neg hne]
  | some d =>
    have hc : (c (d.asDoor m n m)).id = d.id := (hid _).trans (d.id_asDoor m n m)
    refine ⟨_, rfl, fun t ht => (hf t ht).on fun htid => ⟨.inr (.inr ?_), hkind _⟩,
      (map_on_doors hd (fun i e => e.id_asDoor m n i) hdoors hm hc).trans
        (List.mapIdx_eq_mapIdx_iff.mpr fun i hi => ?_)⟩
    · obtain ⟨hmem, hdoor⟩ := mem_doors.mp (List.mem_of_getElem? hm)
      rw [hd.eq_of_id ht hmem (htid.symm.trans hc)]
      exact hdoor
    · rw [hnext]
      by_cases him : i = m
      · subst him
        obtain ⟨_, rfl⟩ := List.getElem?_eq_some_iff.mp hm
        rfl
      · rw [if_neg him, if_neg him]

/-- **An instruction changes tiles as the history says.** -/
theorem evolved_apply {history : List Step} {now : Tiles} (hd : tiles.Distinct)
    (h : tiles.Evolved history now) {step : Step}
    (ha : Step.Alters now (step.opens now) (step.presses now) step.changes) :
    tiles.Evolved (history ++ [step]) (now.apply step.changes) := by
  obtain ⟨f, rfl, hf, hdoors⟩ := h
  have hbutton : hasButton (tiles.map f) = tiles.hasButton := funext (hasButton_map hf)
  have hopens : step.opens (tiles.map f) = step.opens tiles := by simp [Step.opens, hbutton]
  have hpresses : step.presses (tiles.map f) = step.presses tiles := by
    simp [Step.presses, hbutton]
  have happly : apply (tiles.map f) step.changes =
      tiles.map fun t => step.changes.foldl (fun t c => c.on t) (f t) := by
    rw [apply, List.map_map]
    rfl
  rw [hopens, hpresses] at ha
  rw [Evolved, Step.openings_concat, Step.toggles_concat, happly]
  generalize step.opens tiles = opens, step.presses tiles = presses, step.changes = changes,
    Step.openings tiles history = m, Step.toggles tiles history = n at *
  cases ha with
  | rests => exact ⟨f, rfl, hf, hdoors⟩
  | takes u hu hkind =>
    obtain ⟨t₀, ht₀, rfl⟩ := List.mem_map.mp hu
    have hkind₀ : t₀.kind = .coin ∨ t₀.kind = .gem := by
      rcases (hf t₀ ht₀).kind with h | h
      · rwa [h] at hkind
      · simp [h] at hkind
    have hsame : ∀ t ∈ tiles, (f t₀).id = t.id → t = t₀ := fun t ht hid =>
      hd.eq_of_id ht ht₀ (hid.symm.trans (hf t₀ ht₀).id)
    refine ⟨_, rfl, fun t ht => (hf t ht).on fun hid => ⟨?_, .inr rfl⟩, ?_⟩
    · rw [hsame t ht hid]
      exact hkind₀.imp_right .inl
    · refine Eq.trans (List.map_congr_left fun d hdoor => ?_) hdoors
      obtain ⟨hmem, hdoor⟩ := mem_doors.mp hdoor
      refine if_neg fun hid => ?_
      rw [hsame d hmem (hid.trans (hf d hmem).id)] at hdoor
      simp [hdoor] at hkind₀
  | opens =>
    exact evolved_on_first hd hf hdoors (fun _ => rfl) (fun _ => .inr rfl) (Tile.asDoor_opened m n)
  | toggles =>
    exact evolved_on_first hd hf hdoors (fun _ => rfl) (fun _ => .inl rfl) (Tile.asDoor_toggled m n)

end Tiles

namespace Run

/-! ## Runs of a level -/

/-- What has become of a level's tiles at a moment of a run. -/
structure Evolves (r : Run) (level : Level) : Prop where
  length : r.world.tiles.length = level.tiles.length
  /-- Each tile keeps its id, cell and link, and all of it if it is no coin, gem or door. -/
  kept : ∀ (i : Nat) (t t' : Tile), level.tiles[i]? = some t → r.world.tiles[i]? = some t' →
    t'.id = t.id ∧ t'.position = t.position ∧ t'.link = t.link ∧
      (t.kind ≠ .coin → t.kind ≠ .gem → t.kind ≠ .door → t' = t)
  /-- As many doors have been opened for good as there were landings on buttons. The next one has
  been toggled since the last of these landings, and the others are closed. -/
  doors : ∀ (i : Nat) (d : Tile), level.tiles.doors[i]? = some d →
    ∃ d', r.world.tiles.at? d.position = some d' ∧ d'.id = d.id ∧
      let m := min level.tiles.doors.length (Step.openings level.tiles r.history)
      (i < m → d'.kind = .floor ∧ d'.active = .bool true) ∧
      (i = m → d'.kind = .door ∧ d'.active = .bool (Odd (Step.toggles level.tiles r.history))) ∧
      (m < i → d'.kind = .door ∧ d'.active = .bool false)

theorem evolved_of_reached {level : Level} (hd : level.tiles.Distinct) {r : Run}
    (hr : Reached level r) : level.tiles.Evolved r.history r.world.tiles := by
  refine (holds_of_reached (P := fun history world => level.tiles.Evolved history world.tiles)
    (Tiles.evolved_initial level) (fun history world block isLast h => ?_) hr).2
  exact Tiles.evolved_apply hd h
    (Step.alters_execute block world.robot world.tiles level.size)

/-- Where a door is now, and what has become of it. -/
theorem at?_door {level : Level} (hd : level.tiles.Distinct) {r : Run}
    (h : level.tiles.Evolved r.history r.world.tiles) {i : Nat} {d : Tile}
    (hi : level.tiles.doors[i]? = some d) :
    r.world.tiles.at? d.position = some (d.asDoor (Step.openings level.tiles r.history)
      (Step.toggles level.tiles r.history) i) := by
  obtain ⟨f, hf, hlasts, hdoors⟩ := h
  have hfi := congrArg (fun doors => doors[i]?) hdoors
  simp only [List.getElem?_map, List.getElem?_mapIdx, hi, Option.map_some] at hfi
  have hmem := (Tiles.mem_doors.mp (List.mem_of_getElem? hi)).1
  rw [hf, Tiles.at?_map fun t ht => (hlasts t ht).cell, hd.at?_of_mem hmem, Option.map_some, hfi]

theorem evolves_of_evolved {level : Level} (hd : level.tiles.Distinct) {r : Run}
    (h : level.tiles.Evolved r.history r.world.tiles) : r.Evolves level := by
  refine ⟨?_, fun i t t' ht ht' => ?_, fun i d hi => ⟨_, at?_door hd h hi, d.id_asDoor _ _ i, ?_⟩⟩
  · obtain ⟨f, hf, -⟩ := h
    rw [hf, List.length_map]
  · obtain ⟨f, hf, hlasts, -⟩ := h
    rw [hf, List.getElem?_map, ht, Option.map_some, Option.some.injEq] at ht'
    have hlast := hlasts t (List.mem_of_getElem? ht)
    rw [← ht']
    exact ⟨hlast.id, hlast.cell, hlast.link, hlast.same⟩
  · have hkind : d.kind = .door := (Tiles.mem_doors.mp (List.mem_of_getElem? hi)).2
    have hlt : i < level.tiles.doors.length := (List.getElem?_eq_some_iff.mp hi).1
    intro m
    refine ⟨fun him => ?_, fun him => ?_, fun him => ?_⟩
    · rw [Tile.asDoor, if_pos (show i < _ by omega)]
      exact ⟨rfl, rfl⟩
    · have hopen : i = Step.openings level.tiles r.history := by omega
      rw [Tile.asDoor, if_neg (by omega)]
      simp [hkind, hopen]
    · have hclosed : i ≠ Step.openings level.tiles r.history := by omega
      rw [Tile.asDoor, if_neg (by omega)]
      simp [hkind, hclosed]

/-- **The tiles and doors at any moment.** At any moment of any run of a level that has been read,
the tiles and the doors are as the history says, and a door that has been opened for good stays as
it is for the rest of the run. -/
theorem evolves_of_reached {source : Text} {j : Json} {level : Level}
    (h : Level.read source j = .ok level) {r : Run} (hr : Reached level r) :
    r.Evolves level ∧ ∀ r', r.Onward r' → r'.Evolves level ∧
      ∀ (i : Nat) (d : Tile), level.tiles.doors[i]? = some d →
        i < min level.tiles.doors.length (Step.openings level.tiles r.history) →
        r'.world.tiles.at? d.position = r.world.tiles.at? d.position := by
  have hd := Level.distinct_of_read h
  have hnow := evolved_of_reached hd hr
  refine ⟨evolves_of_evolved hd hnow, fun r' hon => ?_⟩
  have hlater := evolved_of_reached hd (reached_onward hr hon)
  refine ⟨evolves_of_evolved hd hlater, fun i d hi him => ?_⟩
  have hmore : Step.openings level.tiles r.history ≤ Step.openings level.tiles r'.history :=
    (history_onward hon).sublist.countP_le
  rw [at?_door hd hlater hi, at?_door hd hnow hi, Tile.asDoor, Tile.asDoor,
    if_pos (by omega), if_pos (by omega)]

end Run

/-! ## A sample -/

/-- A level that is drawn in one row, with two buttons, each before a door. -/
def hallwayFile : Json :=
  .obj [("id", .int 1), ("name", .str "Hallway"), ("available_commands", .arr []),
    ("max_blocks", .int 9), ("layout", .arr [.str "SbDbDG"])]

/-- The level that is drawn. -/
def hallway : Level :=
  { id := 1, name := "Hallway", chapter := 1, chapterName := "", description := ""
    difficulty := .beginner, size := ⟨1, 6⟩
    tiles := [.plain "t-0-0" .start ⟨0, 0⟩, .plain "t-0-1" .button ⟨0, 1⟩,
      .plain "t-0-2" .door ⟨0, 2⟩, .plain "t-0-3" .button ⟨0, 3⟩, .plain "t-0-4" .door ⟨0, 4⟩,
      .plain "t-0-5" .goal ⟨0, 5⟩]
    start := ⟨0, 0⟩, facing := .right, commands := [], maxBlocks := 9
    optimalBlocks := none, goal := .reachGoal, coinsRequired := 0, gemsRequired := 0
    hints := [] }

/-- Onto the first button, through the first door, and a press of the second button. -/
def intoHallway : List Block :=
  [⟨.moveForward, "1", 0, none⟩, ⟨.moveForward, "2", 0, none⟩, ⟨.interact, "3", 0, none⟩,
    ⟨.moveForward, "4", 0, none⟩]

open Run in
/-- The first door is opened for good, then the second one is toggled once and is open. The landing
on the second button leaves the first door as it is. -/
theorem evolves_intoHallway :
    let started := ((fresh hallway none).start intoHallway .still).run
    let pressed := (((started.step .still).run.step .still).run.step .still).run
    let landed := (pressed.step .still).run
    Step.openings hallway.tiles pressed.history = 1 ∧
      Step.toggles hallway.tiles pressed.history = 1 ∧ pressed.Evolves hallway ∧
      landed.Evolves hallway ∧
      landed.world.tiles.at? ⟨0, 2⟩ = pressed.world.tiles.at? ⟨0, 2⟩ := by
  intro started pressed landed
  have hread : Level.read "hallway.json" hallwayFile = .ok hallway := by with_unfolding_all rfl
  have hpressed : Reached hallway pressed :=
    .step (.step (.step (.start (.fresh none) intoHallway .still) .still) .still) .still
  have hlanded : pressed.Onward landed := .step .here .still
  have hopenings : Step.openings hallway.tiles pressed.history = 1 := by decide +kernel
  obtain ⟨hthen, hlater⟩ := evolves_of_reached hread hpressed
  obtain ⟨hnow, hstays⟩ := hlater landed hlanded
  refine ⟨hopenings, by decide +kernel, hthen, hnow, ?_⟩
  exact hstays 0 (.plain "t-0-2" .door ⟨0, 2⟩) rfl (by rw [hopenings]; decide)

end RobotPuzzle
