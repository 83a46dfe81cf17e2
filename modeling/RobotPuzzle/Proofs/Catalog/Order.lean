import Mathlib.Order.Bounds.Basic
import RobotPuzzle.Proofs.Catalog.Questions
import RobotPuzzle.Proofs.Level.Reading

/-!
# The order of levels

An index that has been read from files is in ascending order of ids, without an id twice, and all
ids are positive. So an id finds its level, and the level that follows an id is the one with the
least id above it.

* `LevelIndex.exists_read_of_readInto`: what an index holds has been read from files.
* `LevelIndex.ordered_readInto`: what has been read is in order.
* `LevelIndex.get?_eq_some`, `LevelIndex.next?_eq_some`: what is found in an index in order.
* `Catalog.IsRead`: a catalog has its levels from files.
-/

namespace RobotPuzzle

/-- The level that a file holds. -/
def LevelFile.level (f : LevelFile) : Except Fault Level := do
  Level.read f.name (← f.content.read)

namespace LevelIndex

/-- Ids are positive and ascend. -/
structure Ordered (index : LevelIndex) : Prop where
  ascending : index.Pairwise (·.id < ·.id)
  positive : ∀ level ∈ index, 1 ≤ level.id

variable {index : LevelIndex} {level : Level} {id : Int}

theorem mem_ids : id ∈ index.ids ↔ ∃ level ∈ index, level.id = id := by simp [ids]

theorem id_mem_ids (h : level ∈ index) : level.id ∈ index.ids := mem_ids.mpr ⟨level, h, rfl⟩

/-! ## Reading -/

theorem get?_eq_none : index.get? id = none ↔ id ∉ index.ids := by
  simp [get?, ids]

theorem ascending_insert (h : index.Pairwise (·.id < ·.id)) (hnew : level.id ∉ index.ids) :
    (insert level index).Pairwise (·.id < ·.id) := by
  induction index with
  | nil => simp [insert]
  | cons other rest ih =>
    obtain ⟨hother, hrest⟩ := List.pairwise_cons.mp h
    have hne : other.id ≠ level.id := fun he => hnew (he ▸ id_mem_ids List.mem_cons_self)
    unfold insert
    split
    · next hlt =>
      refine List.pairwise_cons.mpr ⟨fun l hl => ?_, h⟩
      rcases List.mem_cons.mp hl with rfl | hl
      · exact hlt
      · exact Int.lt_trans hlt (hother l hl)
    · next hge =>
      refine List.pairwise_cons.mpr ⟨fun l hl => ?_, ih hrest fun hmem => hnew ?_⟩
      · rcases mem_insert.mp hl with rfl | hl
        · omega
        · exact hother l hl
      · exact List.mem_cons_of_mem _ hmem

theorem ordered_insert (h : index.Ordered) (hnew : level.id ∉ index.ids)
    (hpositive : 1 ≤ level.id) : (insert level index).Ordered := by
  refine ⟨ascending_insert h.ascending hnew, fun l hl => ?_⟩
  rcases mem_insert.mp hl with rfl | hl
  · exact hpositive
  · exact h.positive l hl

theorem ordered_nil : Ordered [] := ⟨List.Pairwise.nil, fun _ h => absurd h List.not_mem_nil⟩

/-- A file adds a level with an id of its own. -/
theorem readInto_cons_eq_ok {read : LevelIndex} {f : LevelFile} {rest : List LevelFile} :
    LevelFile.readInto index (f :: rest) = .ok read ↔
      ∃ level, f.level = .ok level ∧ level.id ∉ index.ids ∧
        LevelFile.readInto (index.insert level) rest = .ok read := by
  have hlevel : ∀ next : Level → Except Fault LevelIndex,
      (f.content.read >>= fun j => Level.read f.name j >>= next) = f.level >>= next := by
    intro next
    rw [LevelFile.level]
    cases f.content.read <;> rfl
  rw [LevelFile.readInto, hlevel, bind_eq_ok]
  simp only [← get?_eq_none]
  refine exists_congr fun level => and_congr_right fun _ => ?_
  cases index.get? level.id with
  | none => simp
  | some other => simp [bind, Except.bind, throw, throwThe, MonadExceptOf.throw]

/-- What is in an index that has been read was in it before, or is read from a file. -/
theorem exists_read_of_readInto {files : List LevelFile} {read : LevelIndex}
    (hread : LevelFile.readInto index files = .ok read) (h : level ∈ read) :
    level ∈ index ∨ ∃ f ∈ files, ∃ j, Level.read f.name j = .ok level := by
  induction files generalizing index with
  | nil =>
    cases hread
    exact .inl h
  | cons f rest ih =>
    obtain ⟨other, hother, -, hread⟩ := readInto_cons_eq_ok.mp hread
    rcases ih hread with hmem | ⟨g, hg, hlevel⟩
    · rcases mem_insert.mp hmem with rfl | hmem
      · obtain ⟨j, -, hj⟩ := bind_eq_ok.mp hother
        exact .inr ⟨f, List.mem_cons_self, j, hj⟩
      · exact .inl hmem
    · exact .inr ⟨g, List.mem_cons_of_mem f hg, hlevel⟩

/-- What has been read from files is in order. -/
theorem ordered_readInto {files : List LevelFile} {read : LevelIndex} (h : index.Ordered)
    (hread : LevelFile.readInto index files = .ok read) : read.Ordered := by
  induction files generalizing index with
  | nil =>
    cases hread
    exact h
  | cons f rest ih =>
    obtain ⟨level, hlevel, hnew, hread⟩ := readInto_cons_eq_ok.mp hread
    obtain ⟨j, -, hj⟩ := bind_eq_ok.mp hlevel
    exact ih (ordered_insert h hnew (Level.one_le_id_of_read hj)) hread

/-! ## Finding -/

theorem Ordered.eq_of_id (h : index.Ordered) {other : Level} (hl : level ∈ index)
    (ho : other ∈ index) (he : level.id = other.id) : level = other := by
  refine List.inj_on_of_nodup_map (f := Level.id) ?_ hl ho he
  exact List.pairwise_map.mpr (h.ascending.imp fun hlt he => by omega)

/-- An id finds its level. -/
theorem Ordered.get?_eq_some (h : index.Ordered) :
    index.get? id = some level ↔ level ∈ index ∧ level.id = id := by
  constructor
  · intro hget
    exact ⟨List.mem_of_find?_eq_some hget, by simpa using List.find?_some hget⟩
  · rintro ⟨hmem, rfl⟩
    cases hget : index.get? level.id with
    | none => exact absurd (id_mem_ids hmem) (get?_eq_none.mp hget)
    | some other =>
      have hother : other.id = level.id := by simpa using List.find?_some hget
      rw [h.eq_of_id (List.mem_of_find?_eq_some hget) hmem hother]

/-- The ids above an id. -/
def above (index : LevelIndex) (id : Int) : Set Int := {i | i ∈ index.ids ∧ id < i}

/-- The ids below an id. -/
def below (index : LevelIndex) (id : Int) : Set Int := {i | i ∈ index.ids ∧ i < id}

theorem next?_eq_none : index.next? id = none ↔ ∀ i ∈ index.ids, i ≤ id := by
  simp [next?, ids]

theorem le_of_next? (h : index.Pairwise (·.id < ·.id)) (hnext : index.next? id = some level) :
    ∀ other ∈ index, id < other.id → level.id ≤ other.id := by
  induction index with
  | nil => exact fun _ h => absurd h List.not_mem_nil
  | cons first rest ih =>
    obtain ⟨hfirst, hrest⟩ := List.pairwise_cons.mp h
    intro other hother hlt
    unfold next? at hnext
    rw [List.find?_cons] at hnext
    by_cases hid : id < first.id
    · simp only [hid, decide_true] at hnext
      cases hnext
      rcases List.mem_cons.mp hother with rfl | hother
      · exact Int.le_refl _
      · exact Int.le_of_lt (hfirst other hother)
    · simp only [hid, decide_false] at hnext
      rcases List.mem_cons.mp hother with rfl | hother
      · exact absurd hlt hid
      · exact ih hrest hnext other hother hlt

/-- The level that follows an id is the one with the least id above it. -/
theorem Ordered.next?_eq_some (h : index.Ordered) :
    index.next? id = some level ↔ level ∈ index ∧ IsLeast (index.above id) level.id := by
  have hleast : ∀ level, index.next? id = some level →
      level ∈ index ∧ IsLeast (index.above id) level.id := by
    intro level hnext
    have hmem : level ∈ index := List.mem_of_find?_eq_some hnext
    refine ⟨hmem, ⟨id_mem_ids hmem, lt_of_next? hnext⟩, ?_⟩
    rintro i ⟨hi, hlt⟩
    obtain ⟨other, hother, rfl⟩ := mem_ids.mp hi
    exact le_of_next? h.ascending hnext other hother hlt
  refine ⟨hleast level, fun ⟨hmem, hlevel⟩ => ?_⟩
  cases hnext : index.next? id with
  | none =>
    have hle := next?_eq_none.mp hnext level.id (id_mem_ids hmem)
    have hlt := hlevel.1.2
    omega
  | some other =>
    obtain ⟨hother, hbest⟩ := hleast other hnext
    rw [h.eq_of_id hmem hother (hlevel.unique hbest)]

/-- An id is the next one above another exactly if that one is the next one below. -/
theorem isLeast_above_iff {before : Int} :
    (before ∈ index.ids ∧ IsLeast (index.above before) id) ↔
      (id ∈ index.ids ∧ IsGreatest (index.below id) before) := by
  constructor
  · rintro ⟨hbefore, ⟨hid, hlt⟩, hleast⟩
    refine ⟨hid, ⟨hbefore, hlt⟩, fun i hi => ?_⟩
    by_contra hgt
    have hle : id ≤ i := hleast ⟨hi.1, by omega⟩
    have hlt' : i < id := hi.2
    omega
  · rintro ⟨hid, ⟨hbefore, hlt⟩, hgreatest⟩
    refine ⟨hbefore, ⟨hid, hlt⟩, fun i hi => ?_⟩
    by_contra hgt
    have hle : i ≤ before := hgreatest ⟨hi.1, by omega⟩
    have hlt' : before < i := hi.2
    omega

end LevelIndex

namespace Catalog

variable {c : Catalog} {index : LevelIndex}

theorem find_of_index (h : c.index = .ok index) (id : Int) :
    c.find (.int id) = match index.get? id with
      | some level => .ok level
      | none => .error (.noLevel (.int id) c.folder) := by
  simp only [find_int, get, h, bind, Except.bind]
  rfl

theorem next_of_index (h : c.index = .ok index) (id : Int) : c.next id = .ok (index.next? id) := by
  simp only [next, h]
  rfl

theorem following_of_index (h : c.index = .ok index) (id : Int) :
    c.following id = (index.next? id).map Level.id := by
  simp only [following, next_of_index h]

/-- A catalog has its levels from files. -/
def IsRead (c : Catalog) : Prop :=
  ∀ index, c.index = .ok index → ∃ files, LevelFile.readInto [] files = .ok index

/-- The catalog of a folder has its levels from there. -/
theorem isRead_ofFiles (folder : String) (files : Option (List LevelFile)) :
    (ofFiles folder files).IsRead := by
  intro index hindex
  cases files with
  | none => cases hindex
  | some files => exact ⟨_, hindex⟩

/-- Its levels have been read. -/
theorem IsRead.exists_read (hread : c.IsRead) (h : c.index = .ok index) {level : Level}
    (hlevel : level ∈ index) : ∃ (source : Text) (j : Json), Level.read source j = .ok level := by
  obtain ⟨files, hfiles⟩ := hread index h
  rcases LevelIndex.exists_read_of_readInto hfiles hlevel with hnil | ⟨f, -, j, hj⟩
  · cases hnil
  · exact ⟨f.name, j, hj⟩

end Catalog

end RobotPuzzle
