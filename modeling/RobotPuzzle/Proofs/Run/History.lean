import Mathlib.Logic.Function.Basic
import RobotPuzzle.Proofs.Run.Doors

/-!
# The history as a log

The history of a run tells all that has happened in it. The tile changes of its steps, applied to
the level's tiles at once, give the tiles of the world, and its last step has the world's robot.

Changes that are applied at once are collected into one update for each id. Of every field the last
value that is given counts, and a field that no change gives is left alone, so that an update does
to a tile what its changes do to it one after the other, whichever ids tiles and changes share.

* `TileUpdate.on_merge`: a merged update does what its parts do in turn.
* `TileUpdates.on_enter`: what one more change adds to the updates.
* `Tiles.applyAtOnce_eq_apply`, `Tiles.applyAtOnce_append`: changes may be applied at once, one after
  the other, or in parts.
* `Run.history_logs`: the log of any run at any moment.
-/

namespace RobotPuzzle

/-! ## Changes at once -/

/-- New values for some of the fields of a tile. -/
structure TileUpdate where
  kind : Option TileKind
  active : Option Bool

namespace TileUpdate

/-- No new value. -/
def blank : TileUpdate := ⟨none, none⟩

/-- Two updates in one. Where both give a field, the later one counts. -/
def merge (earlier later : TileUpdate) : TileUpdate :=
  ⟨later.kind.or earlier.kind, later.active.or earlier.active⟩

/-- The tile with the new values. -/
def on (u : TileUpdate) (t : Tile) : Tile :=
  { t with
    kind := u.kind.getD t.kind
    active := (u.active.map Json.bool).getD t.active }

theorem on_blank (t : Tile) : blank.on t = t := rfl

/-- A merged update does what its parts do in turn. -/
theorem on_merge (earlier later : TileUpdate) (t : Tile) :
    (earlier.merge later).on t = later.on (earlier.on t) := by
  obtain ⟨kind, active⟩ := later
  cases kind <;> cases active <;> rfl

end TileUpdate

/-- The fields that a change gives. -/
def TileChange.update (c : TileChange) : TileUpdate := ⟨c.kind, c.active⟩

theorem TileChange.on_eq (c : TileChange) (t : Tile) :
    c.on t = if c.id = t.id then c.update.on t else t := rfl

/-- The updates that changes collect, by the ids of tiles; none for an id that no change names. -/
abbrev TileUpdates := Text → Option TileUpdate

namespace TileUpdates

/-- The updates with a change merged into that of its id. -/
def enter (updates : TileUpdates) (c : TileChange) : TileUpdates :=
  Function.update updates c.id (some (((updates c.id).getD .blank).merge c.update))

/-- The updates that changes collect. -/
def ofChanges (changes : List TileChange) : TileUpdates := changes.foldl enter fun _ => none

/-- The tile with the update of its id. -/
def on (updates : TileUpdates) (t : Tile) : Tile :=
  match updates t.id with
  | some u => u.on t
  | none => t

variable {updates : TileUpdates}

theorem on_eq (updates : TileUpdates) (t : Tile) :
    updates.on t = ((updates t.id).getD .blank).on t := by
  unfold on
  cases updates t.id with
  | some u => rfl
  | none => exact (TileUpdate.on_blank t).symm

theorem id_on (updates : TileUpdates) (t : Tile) : (updates.on t).id = t.id := by
  rw [on_eq]
  rfl

/-- One more change does what it would do behind the others. -/
theorem on_enter (updates : TileUpdates) (c : TileChange) (t : Tile) :
    (updates.enter c).on t = c.on (updates.on t) := by
  rw [c.on_eq, id_on]
  by_cases hid : c.id = t.id
  · have hupdate : updates.enter c t.id =
        some (((updates t.id).getD .blank).merge c.update) := by
      rw [enter, hid, Function.update_self]
    rw [if_pos hid, on_eq, hupdate, Option.getD_some, TileUpdate.on_merge, ← on_eq]
  · have hupdate : updates.enter c t.id = updates t.id :=
      Function.update_of_ne (Ne.symm hid) _ _
    rw [if_neg hid, on_eq, hupdate, ← on_eq]

theorem on_foldl_enter (updates : TileUpdates) (changes : List TileChange) (t : Tile) :
    (changes.foldl enter updates).on t = changes.foldl (fun t c => c.on t) (updates.on t) := by
  induction changes generalizing updates with
  | nil => rfl
  | cons c rest ih => rw [List.foldl_cons, List.foldl_cons, ih, on_enter]

end TileUpdates

namespace Tiles

/-- The tiles after changes that are collected first, and applied to each tile at once. -/
def applyAtOnce (tiles : Tiles) (changes : List TileChange) : Tiles :=
  tiles.map (TileUpdates.ofChanges changes).on

/-- **Changes may be applied at once** or one after the other. -/
theorem applyAtOnce_eq_apply (tiles : Tiles) (changes : List TileChange) :
    tiles.applyAtOnce changes = tiles.apply changes :=
  List.map_congr_left fun t _ => TileUpdates.on_foldl_enter (fun _ => none) changes t

/-- Changes may be applied in parts. -/
theorem applyAtOnce_append (tiles : Tiles) (a b : List TileChange) :
    tiles.applyAtOnce (a ++ b) = (tiles.applyAtOnce a).applyAtOnce b := by
  rw [applyAtOnce_eq_apply, applyAtOnce_eq_apply, applyAtOnce_eq_apply, apply_append]

end Tiles

/-! ## Runs -/

namespace Run

/-- The tile changes of a run, in order. -/
def changes (r : Run) : List TileChange := r.history.flatMap Step.changes

/-- The history of a run of a level tells what has become of its tiles and its robot. -/
structure Logs (level : Level) (r : Run) : Prop where
  tiles : level.tiles.atStart.apply r.changes = r.world.tiles
  /-- The robot is that of the last step, and stands at the start before any step. -/
  robot : r.world.robot =
    (r.history.getLast?.map Step.robot).getD (.fresh level.start level.facing)

theorem logs_of_reached {level : Level} {r : Run} (hr : Reached level r) : r.Logs level := by
  have hlog := holds_of_reached
    (P := fun history world =>
      level.tiles.atStart.apply (history.flatMap Step.changes) = world.tiles ∧
        world.robot =
          (history.getLast?.map Step.robot).getD (.fresh level.start level.facing))
    ⟨Tiles.apply_nil _, rfl⟩ ?_ hr
  · exact ⟨hlog.2.1, hlog.2.2⟩
  · rintro history world block isLast ⟨htiles, -⟩
    refine ⟨?_, ?_⟩
    · rw [List.flatMap_append, List.flatMap_singleton, Tiles.apply_append, htiles]
      rfl
    · rw [List.getLast?_concat]
      rfl

/-- **The history is a complete log.** Whatever ids tiles and changes share, applying changes one
after the other is applying them at once, and so is applying them in two parts. Of every run of a
level at any moment, the changes of the history, applied to the level's tiles with their doors
closed, give the tiles of the world, while the last step has its robot. -/
theorem history_logs :
    (∀ (tiles : Tiles) (changes : List TileChange),
      tiles.apply changes = tiles.applyAtOnce changes) ∧
    (∀ (tiles : Tiles) (a b : List TileChange),
      (tiles.applyAtOnce a).applyAtOnce b = tiles.applyAtOnce (a ++ b)) ∧
    ∀ (level : Level) (r : Run), Reached level r → r.Logs level :=
  ⟨fun tiles changes => (tiles.applyAtOnce_eq_apply changes).symm,
    fun tiles a b => (tiles.applyAtOnce_append a b).symm, fun _ _ hr => logs_of_reached hr⟩

end Run

/-! ## A sample -/

/-- A level with a button before two doors that have one id. -/
def gateway : Level :=
  { hallway with
    tiles := [.plain "start" .start ⟨0, 0⟩, .plain "b" .button ⟨0, 1⟩, .plain "gate" .door ⟨0, 2⟩,
      .plain "gate" .door ⟨0, 3⟩, .plain "end" .goal ⟨0, 4⟩] }

/-- Three presses of the button, and a step onto it. -/
def throughGateway : List Block :=
  [⟨.interact, "1", 0, none⟩, ⟨.interact, "2", 0, none⟩, ⟨.interact, "3", 0, none⟩,
    ⟨.moveForward, "4", 0, none⟩]

open Run in
/-- The doors are opened, closed, opened and made floor by one update. -/
theorem logs_throughGateway :
    let started := ((fresh gateway none).start throughGateway .still).run
    let landed := (started.turn .still 3).run
    let changes : List TileChange :=
      [⟨"gate", none, some true⟩, ⟨"gate", none, some false⟩, ⟨"gate", none, some true⟩,
        ⟨"gate", some .floor, some true⟩]
    landed.changes = changes ∧ landed.Logs gateway ∧
      gateway.tiles.atStart.applyAtOnce changes = landed.world.tiles ∧
      landed.world.tiles.map Tile.kind = [.start, .button, .floor, .floor, .goal] ∧
      landed.world.robot.position = ⟨0, 1⟩ := by
  intro started landed changes
  have hreached : Reached gateway landed :=
    reached_turn (.start (.fresh none) throughGateway .still) .still 3
  obtain ⟨hatOnce, -, hlogs⟩ := history_logs
  have hlanded := hlogs gateway landed hreached
  have hchanges : landed.changes = changes := by decide +kernel
  have htiles := hlanded.tiles
  rw [hchanges, hatOnce] at htiles
  exact ⟨hchanges, hlanded, htiles, by decide +kernel, by decide +kernel⟩

end RobotPuzzle
