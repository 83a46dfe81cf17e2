import RobotPuzzle.Catalog.Basic
import RobotPuzzle.Program.Basic
import RobotPuzzle.Progress.Store
import RobotPuzzle.Run.Basic

/-!
# Where forbidden moves do not come from

A move that the table of stages does not allow is a session's own fault. Whatever a session relies
on faults for other reasons only: the catalog, however its files are written, the store, the program
and the run.

* `Permitted`: a result that is no forbidden move.
* `Permitted.bind`: results that are got one from the other.
* `Catalog.permitted_find`, `Store.permitted_isOpen`, `Program.permitted_move`,
  `Run.permitted_step` and their like: what a session asks for.
-/

namespace RobotPuzzle

/-- Whether a fault is a move that the table of stages does not allow. -/
def Fault.isForbiddenMove : Fault → Bool
  | .forbiddenMove _ _ => true
  | _ => false

/-- A result that is no forbidden move. -/
def Permitted {α : Type} (x : Except Fault α) : Prop :=
  ∀ fault, x = .error fault → fault.isForbiddenMove = false

variable {α β : Type}

theorem permitted_ok (a : α) : Permitted (.ok a : Except Fault α) := fun _ h => by cases h

theorem permitted_error {fault : Fault} (h : fault.isForbiddenMove = false) :
    Permitted (.error fault : Except Fault α) := fun _ h' => by cases h'; exact h

theorem Permitted.bind {x : Except Fault α} {f : α → Except Fault β} (hx : Permitted x)
    (hf : ∀ a, Permitted (f a)) : Permitted (x >>= f) := by
  cases x with
  | error fault => exact permitted_error (hx fault rfl)
  | ok a => exact hf a

theorem Permitted.map {x : Except Fault α} (hx : Permitted x) (f : α → β) :
    Permitted (x.map f) := by
  cases x with
  | error fault => exact permitted_error (hx fault rfl)
  | ok a => exact permitted_ok (f a)

theorem eq_error_of_map {x : Except Fault α} {f : α → β} {fault : Fault}
    (h : x.map f = .error fault) : x = .error fault := by
  cases x with
  | error fault' => exact congrArg Except.error (Except.error.inj h)
  | ok a => cases h

theorem permitted_mapM {f : α → Except Fault β} (hf : ∀ a, Permitted (f a)) (as : List α) :
    Permitted (as.mapM f) := by
  induction as with
  | nil => exact permitted_ok []
  | cons a rest ih =>
    rw [List.mapM_cons]
    exact (hf a).bind fun b => ih.bind fun bs => permitted_ok (b :: bs)

theorem permitted_filterM {f : α → Except Fault Bool} (hf : ∀ a, Permitted (f a)) (as : List α) :
    Permitted (as.filterM f) := by
  have haux : ∀ kept, Permitted (as.filterAuxM f kept) := by
    induction as with
    | nil => exact permitted_ok
    | cons a rest ih => exact fun kept => (hf a).bind fun b => ih _
  exact (haux []).bind fun kept => permitted_ok kept.reverse

theorem Checked.permitted_result (c : Checked α) : Permitted c.result := by
  cases c with
  | good a => exact permitted_ok a
  | bad issues => exact permitted_error rfl

theorem Json.permitted_integerValue (j : Json) : Permitted j.integerValue := by
  unfold integerValue
  split
  · exact permitted_ok _
  · exact permitted_ok _
  · split
    · exact permitted_ok _
    · split <;> exact permitted_error rfl
  · split
    · exact permitted_ok _
    · exact permitted_error rfl
  all_goals exact permitted_error rfl

/-! ## Reading levels -/

namespace Layout

theorem permitted_members (j : Json) : Permitted (members j) := by
  cases j with
  | str | arr | obj => exact permitted_ok _
  | null | bool | int | real => exact permitted_error rfl

theorem permitted_tile (source : Text) (row col : Nat) (symbol : Json) :
    Permitted (tile source row col symbol) := by
  unfold tile
  repeat' split
  all_goals first | exact permitted_ok _ | exact permitted_error rfl

theorem permitted_rowTiles (source : Text) (row col : Nat) (symbols : List Json) :
    Permitted (rowTiles source row col symbols) := by
  induction symbols generalizing col with
  | nil => exact permitted_ok []
  | cons symbol rest ih =>
    exact (permitted_tile source row col symbol).bind fun t => (ih (col + 1)).bind fun more =>
      permitted_ok (t :: more)

theorem permitted_tilesFrom (source : Text) (row : Nat) (lines : List Json) :
    Permitted (tilesFrom source row lines) := by
  induction lines generalizing row with
  | nil => exact permitted_ok []
  | cons line rest ih =>
    exact (permitted_members line).bind fun symbols =>
      (permitted_rowTiles source row 0 symbols).bind fun here => (ih (row + 1)).bind fun below =>
        permitted_ok (here ++ below)

theorem permitted_extent (layout : Json) : Permitted (extent layout) := by
  have hwidth : ∀ line, Permitted ((members line).map List.length) :=
    fun line => (permitted_members line).map List.length
  refine (permitted_members layout).bind fun lines => ?_
  refine (permitted_mapM hwidth lines).bind fun widths => ?_
  split
  · exact permitted_error rfl
  · exact permitted_ok _

end Layout

namespace Level

theorem permitted_annotations (entries : List Json) : Permitted (annotations entries) := by
  fun_induction annotations entries with
  | case1 => exact permitted_ok []
  | case2 => exact permitted_error rfl
  | case3 _ _ _ _ ih => exact ih.bind fun _ => permitted_ok _
  | case4 _ _ _ _ _ _ ih => exact ih
  | case5 => exact permitted_error rfl
  | case6 _ _ _ ih => exact ih

theorem permitted_drawnTiles (source : Text) (fields : Fields) (layout : Json) :
    Permitted (drawnTiles source fields layout) :=
  (Layout.permitted_members layout).bind fun lines =>
    (Layout.permitted_tilesFrom source 0 lines).bind fun _ =>
      (Layout.permitted_members _).bind fun entries =>
        (permitted_annotations entries).bind fun _ => permitted_ok _

theorem permitted_positionFields (entry : Fields) : Permitted (positionFields entry) := by
  unfold positionFields
  split
  · exact permitted_ok _
  · exact permitted_error rfl
  · exact permitted_ok _

theorem permitted_listedTile (source : Text) (entry : Fields) :
    Permitted (listedTile source entry) := by
  refine (permitted_positionFields entry).bind fun position => ?_
  dsimp only
  split
  · show Permitted (.error _)
    exact permitted_error rfl
  · split
    · exact permitted_error rfl
    · exact Checked.permitted_result _

theorem permitted_listedTiles (source : Text) (entries : List Json) :
    Permitted (listedTiles source entries) := by
  fun_induction listedTiles source entries with
  | case1 => exact permitted_ok []
  | case2 entry rest ih =>
    exact (permitted_listedTile source entry).bind fun t => ih.bind fun more =>
      permitted_ok (t :: more)
  | case3 _ _ _ ih => exact ih

theorem permitted_mentions (j : Json) (name : Text) : Permitted (mentions j name) := by
  cases j with
  | str | arr | obj => exact permitted_ok _
  | null | bool | int | real => exact permitted_error rfl

theorem permitted_missingFields (j : Json) : Permitted (missingFields j) := by
  refine (permitted_filterM (fun name => ?_) _).bind fun missing => ?_
  · exact (permitted_mentions j _).bind fun _ => permitted_ok _
  · exact (permitted_mentions j _).bind fun _ => (permitted_mentions j _).bind fun _ =>
      (permitted_mentions j _).bind fun _ => permitted_ok _

theorem permitted_extentOf (fields : Fields) : Permitted (extentOf fields) := by
  unfold extentOf
  split
  · split
    · exact Layout.permitted_extent _
    · exact permitted_error rfl
  · split
    · exact Layout.permitted_extent _
    · exact permitted_error rfl
  · exact permitted_ok _

theorem permitted_startOf (source : Text) (fields : Fields) (tiles : Tiles) :
    Permitted (startOf source fields tiles) := by
  unfold startOf
  split
  case h_1 | h_2 =>
    split
    · exact permitted_ok _
    · exact permitted_error rfl
  · split
    · exact permitted_error rfl
    · refine (Json.permitted_integerValue _).bind fun row => ?_
      split
      · exact permitted_error rfl
      · exact (Json.permitted_integerValue _).bind fun col => permitted_ok _
  · exact permitted_ok _

theorem permitted_tilesOf (source : Text) (fields : Fields) :
    Permitted (tilesOf source fields) := by
  unfold tilesOf
  split
  · exact permitted_drawnTiles source fields _
  · split
    · exact (Layout.permitted_members _).bind fun entries => permitted_listedTiles source entries
    · exact permitted_error rfl

theorem permitted_readFields (source : Text) (fields : Fields) :
    Permitted (readFields source fields) := by
  refine (permitted_tilesOf source fields).bind fun tiles => ?_
  refine (permitted_extentOf fields).bind fun size => ?_
  refine (permitted_startOf source fields tiles).bind fun start => ?_
  refine (Checked.permitted_result _).bind fun level => ?_
  split
  · exact permitted_error rfl
  · exact permitted_ok level

theorem permitted_read (source : Text) (j : Json) : Permitted (read source j) := by
  refine (permitted_missingFields j).bind fun missing => ?_
  split
  · split
    · exact permitted_readFields source _
    · exact permitted_error rfl
  · exact permitted_error rfl

end Level

/-! ## Catalogs -/

theorem Content.permitted_read (c : Content) : Permitted c.read := by
  have htext : ∀ s, Permitted (readText s) := fun s => by
    unfold readText
    split
    · exact permitted_error rfl
    · exact permitted_ok _
  unfold read
  split
  · split
    · exact permitted_error rfl
    · exact htext _
  · exact htext _
  · exact permitted_ok _

theorem LevelFile.permitted_readInto (index : LevelIndex) (files : List LevelFile) :
    Permitted (readInto index files) := by
  induction files generalizing index with
  | nil => exact permitted_ok index
  | cons f rest ih =>
    refine f.content.permitted_read.bind fun j => (Level.permitted_read _ j).bind fun level => ?_
    dsimp only
    split
    · show Permitted (.error _)
      exact permitted_error rfl
    · exact ih _

namespace Catalog

theorem permitted_index (c : Catalog) : Permitted c.index := by
  unfold index
  split
  · exact permitted_ok _
  · exact permitted_error rfl
  · exact LevelFile.permitted_readInto _ _

theorem permitted_find (c : Catalog) (key : Json) : Permitted (c.find key) := by
  refine c.permitted_index.bind fun index => ?_
  split
  · split
    · exact permitted_ok _
    · exact permitted_error rfl
  · exact permitted_error rfl

theorem permitted_next (c : Catalog) (id : Int) : Permitted (c.next id) :=
  c.permitted_index.bind fun _ => permitted_ok _

end Catalog

/-! ## Stores -/

theorem Folder.permitted_read (text : String) : Permitted (read text) := by
  unfold read
  split
  · exact permitted_error rfl
  · exact Checked.permitted_result _

theorem Folder.permitted_get (f : Folder) (id : Int) : Permitted (f.get id) := by
  unfold get
  split
  · exact permitted_ok none
  · exact (permitted_read _).map some

namespace Store

theorem permitted_get (s : Store) (id : Int) : Permitted (s.get id) := by
  cases s with
  | memory ledger => exact permitted_ok _
  | files folder => exact folder.permitted_get id

theorem permitted_all (s : Store) : Permitted s.all := by
  cases s with
  | memory ledger => exact permitted_ok _
  | files folder =>
    exact (permitted_mapM (fun _ => Folder.permitted_read _) _).bind fun _ => permitted_ok _

theorem permitted_find (s : Store) (key : Json) : Permitted (s.find key) := by
  cases s with
  | memory ledger =>
    unfold find
    simp only
    split
    · exact permitted_ok _
    · exact permitted_error rfl
  | files folder =>
    cases key with
    | int | bool => exact folder.permitted_get _
    | real | str | null | arr | obj => exact permitted_error rfl

theorem permitted_isOpen (s : Store) (key : Json) : Permitted (s.isOpen key) := by
  unfold isOpen
  split
  · exact permitted_error rfl
  · exact permitted_ok true
  · refine (s.permitted_find key).bind fun own => ?_
    split
    · exact permitted_ok true
    · exact (s.permitted_find key.pred).bind fun before => permitted_ok _

theorem permitted_isUnlocked (s : Store) (id : Int) : Permitted (s.isUnlocked id) := by
  rw [← isOpen_int]
  exact s.permitted_isOpen (.int id)

theorem permitted_totalStars (s : Store) : Permitted s.totalStars :=
  s.permitted_all.bind fun _ => permitted_ok _

theorem permitted_unlock (s : Store) (id : Int) : Permitted (s.unlock id) := by
  refine (s.permitted_get id).bind fun current => ?_
  split
  · exact permitted_ok _
  · exact permitted_ok _

theorem permitted_record (s : Store) (o : Outcome) (next : Option Int) :
    Permitted (s.record o next).1 := by
  unfold record recordThen
  split
  · next fault h => exact permitted_error (s.permitted_get o.levelId fault h)
  · simp only
    split
    · split
      · exact permitted_ok _
      · next fault h => exact permitted_error (permitted_unlock _ _ fault h)
    · exact permitted_ok _

end Store

/-! ## Programs -/

theorem Spot.permitted_insertion (s : Spot) (n : Nat) : Permitted (s.insertion n) := by
  unfold insertion
  repeat' split
  all_goals first | exact permitted_ok _ | exact permitted_error rfl

theorem Spot.permitted_nearest (s : Spot) (n : Nat) : Permitted (s.nearest n) := by
  unfold nearest
  repeat' split
  all_goals first | exact permitted_ok _ | exact permitted_error rfl

namespace Program

theorem permitted_add (p : Program) (command : Command) (spot : Spot) (n : Nat) :
    Permitted (p.add command spot n) := by
  unfold add
  split
  · exact (spot.permitted_insertion _).bind fun _ => permitted_ok _
  · exact permitted_ok _

theorem permitted_move (p : Program) (id : Text) (spot : Spot) : Permitted (p.move id spot) := by
  unfold move
  split
  · exact (spot.permitted_nearest _).bind fun _ => permitted_ok _
  · exact permitted_ok _

theorem permitted_setRepeats (p : Program) (id : Text) (count : Int) :
    Permitted (p.setRepeats id (.ok count)) := by
  unfold setRepeats
  split
  · exact permitted_ok _
  · split <;> exact permitted_ok _

/-- A count that names nothing is the only fault of a loop that is set. -/
theorem eq_of_setRepeats_error {p : Program} {id : Text} {fault fault' : Fault}
    (h : p.setRepeats id (.error fault) = .error fault') : fault' = fault := by
  unfold setRepeats at h
  split at h
  · cases h
  · split at h
    · exact (Except.error.inj h).symm
    · cases h

end Program

/-! ## Runs -/

theorem Instant.permitted_toFloat (i : Instant) : Permitted i.toFloat := by
  unfold toFloat
  repeat' split
  all_goals first | exact permitted_ok _ | exact permitted_error rfl

theorem Instant.permitted_wholePart (x : Float) : Permitted (wholePart x) := by
  unfold wholePart
  split
  · exact permitted_ok _
  · split <;> exact permitted_error rfl

theorem Instant.permitted_millisBetween (start now : Instant) :
    Permitted (start.millisBetween now) := by
  unfold millisBetween
  split
  · exact permitted_ok _
  · exact now.permitted_toFloat.bind fun _ => start.permitted_toFloat.bind fun _ =>
      (permitted_wholePart _).bind fun _ => permitted_ok _

namespace Outcome

theorem permitted_checked (o : Outcome) : Permitted o.checked := by
  unfold checked
  dsimp only
  split
  · exact permitted_ok o
  · exact permitted_error rfl

theorem permitted_success (level : Level) (robot : Robot) (counts : Counts) :
    Permitted (success level robot counts) := by
  have hscore : Permitted (Scoring.score level robot counts.blocksUsed) := by
    unfold Scoring.score
    split
    · exact permitted_ok _
    · exact permitted_error rfl
  exact hscore.bind fun _ => permitted_checked _

end Outcome

namespace Run

theorem permitted_conclude (r : Run) (reason : Option Text) (clock : Clock) :
    Permitted (r.conclude reason clock) := by
  have helapsed : Permitted (r.elapsed clock) := by
    unfold elapsed
    split
    · exact permitted_ok 0
    · exact Instant.permitted_millisBetween _ _
  refine helapsed.bind fun time => ?_
  dsimp only
  split
  · exact Outcome.permitted_success _ _ _
  · exact Outcome.permitted_checked _

theorem permitted_finish (r : Run) (step : Option Step) (reason : Option Text) (clock : Clock) :
    Permitted (r.finish step reason clock).value := by
  unfold finish
  dsimp only
  split
  · exact permitted_ok _
  · next fault h => exact permitted_error (r.permitted_conclude reason clock fault h)

theorem permitted_step (r : Run) (clock : Clock) : Permitted (r.step clock).value := by
  unfold step
  split
  · exact permitted_ok _
  · split
    · exact permitted_finish _ _ _ _
    · dsimp only
      split
      · exact permitted_ok _
      · exact permitted_finish _ _ _ _

end Run

end RobotPuzzle
