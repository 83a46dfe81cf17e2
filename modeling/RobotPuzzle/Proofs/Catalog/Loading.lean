import RobotPuzzle.Proofs.Catalog.Order
import RobotPuzzle.Proofs.Level.Source

/-!
# Loading level files

The files of a folder are read in the order of their names, and each level is put in its place. It
is the levels alone that matter: they can be loaded if every file that is meant to be played holds
one and no two have the same id, and they are then indexed in ascending order. What a file is called
only shows in what is said of its faults.

* `LevelIndex.eq_of_perm`: levels make one index at most.
* `LevelFile.readInto_eq_ok`: the files that are read, and what is indexed.
* `Catalog.index_eq_ok`: the same for a folder.
* `LevelFile.loadable_congr`, `LevelFile.levels_perm`: names do not matter.
-/

namespace RobotPuzzle

namespace LevelIndex

variable {index : LevelIndex}

theorem insert_perm (level : Level) (index : LevelIndex) :
    (insert level index).Perm (level :: index) := by
  induction index with
  | nil => exact .refl _
  | cons other rest ih =>
    unfold insert
    split
    · exact .refl _
    · exact (ih.cons other).trans (.swap level other rest)

/-- Puts levels in their places, one after the other. -/
def insertAll (levels : List Level) (index : LevelIndex) : LevelIndex :=
  levels.foldl (fun index level => insert level index) index

theorem insertAll_perm (levels : List Level) (index : LevelIndex) :
    (insertAll levels index).Perm (levels ++ index) := by
  induction levels generalizing index with
  | nil => exact .refl _
  | cons level rest ih =>
    exact (ih _).trans (((insert_perm level index).append_left rest).trans List.perm_middle)

/-- Levels make one index at most. -/
theorem eq_of_perm {other : LevelIndex} (h : index.Pairwise (·.id < ·.id))
    (h' : other.Pairwise (·.id < ·.id)) (hperm : index.Perm other) : index = other :=
  hperm.eq_of_pairwise (fun _ _ _ _ hlt hgt => absurd hlt (Int.lt_asymm hgt)) h h'

end LevelIndex

/-- The level that a file with this content holds, if it holds one. -/
def Content.level? (content : Content) : Option Level :=
  (LevelFile.level ⟨"", content⟩).toOption

namespace LevelFile

variable {files others : List LevelFile}

/-- The levels that files hold. -/
def held (files : List LevelFile) : List Level := files.filterMap fun f => f.level.toOption

/-- The levels that the candidates among files hold. -/
def levels (files : List LevelFile) : List Level := held (files.filter isCandidate)

/-- Every file that is meant to be played holds a level, and no two of these have the same id. -/
structure Loadable (files : List LevelFile) : Prop where
  held : ∀ f ∈ files, f.isCandidate = true → ∃ level, f.level = .ok level
  distinct : ((levels files).map Level.id).Nodup

/-- The candidates among two collections of files have the same contents: they differ in their names,
and in the files that are passed over. -/
def SameContents (files others : List LevelFile) : Prop :=
  ((others.filter isCandidate).map content).Perm ((files.filter isCandidate).map content)

/-- New names that make no file a candidate, and none a draft, leave the contents the same. -/
theorem sameContents_rename {rename : LevelFile → String}
    (h : ∀ f ∈ files, isCandidate ⟨rename f, f.content⟩ = f.isCandidate) :
    SameContents files (files.map fun f => ⟨rename f, f.content⟩) := by
  have hkept : files.filter (isCandidate ∘ fun f => ⟨rename f, f.content⟩) =
      files.filter isCandidate := List.filter_congr h
  rw [SameContents, List.filter_map, List.map_map, hkept]
  exact .refl _

/-! ## Reading files into an index -/

/-- Files are read if each holds a level, with an id of its own, and all levels are then put in
their places. -/
theorem readInto_eq_ok {index read : LevelIndex} (h : index.ids.Nodup) :
    readInto index files = .ok read ↔
      (∀ f ∈ files, ∃ level, f.level = .ok level) ∧
        ((LevelFile.held files).map Level.id ++ index.ids).Nodup ∧
        read = LevelIndex.insertAll (LevelFile.held files) index := by
  induction files generalizing index with
  | nil => simp [readInto, LevelFile.held, LevelIndex.insertAll, h, eq_comm]
  | cons f rest ih =>
    rw [LevelIndex.readInto_cons_eq_ok, List.forall_mem_cons]
    cases hlevel : f.level with
    | error fault => simp
    | ok level =>
      have hheld : LevelFile.held (f :: rest) = level :: LevelFile.held rest := by
        simp [LevelFile.held, hlevel, Except.toOption]
      have hinsert : (LevelIndex.ids (index.insert level)).Perm (level.id :: index.ids) :=
        (LevelIndex.insert_perm level index).map Level.id
      have hids : ((LevelFile.held rest).map Level.id ++ LevelIndex.ids (index.insert level)).Perm
          (level.id :: ((LevelFile.held rest).map Level.id ++ index.ids)) :=
        (hinsert.append_left _).trans List.perm_middle
      rw [hheld]
      simp only [Except.ok.injEq, exists_eq_left', exists_eq', true_and, List.map_cons,
        List.cons_append]
      constructor
      · rintro ⟨hnew, hread⟩
        obtain ⟨hall, hnodup, rfl⟩ :=
          (ih (hinsert.nodup_iff.mpr (List.nodup_cons.mpr ⟨hnew, h⟩))).mp hread
        exact ⟨hall, hids.nodup_iff.mp hnodup, rfl⟩
      · rintro ⟨hall, hnodup, rfl⟩
        have hrest := hids.nodup_iff.mpr hnodup
        refine ⟨fun hmem => ?_, (ih hrest.of_append_right).mpr ⟨hall, hrest, rfl⟩⟩
        exact (List.nodup_cons.mp hnodup).1 (List.mem_append_right _ hmem)

theorem candidates_perm (files : List LevelFile) :
    (candidates files).Perm (files.filter isCandidate) := List.mergeSort_perm _ _

/-! ## Names -/

theorem level_toOption (f : LevelFile) : f.level.toOption = f.content.level? := by
  rw [Content.level?, level, level]
  cases f.content.read with
  | error fault => rfl
  | ok j =>
    show (Level.read f.name j).toOption = (Level.read "" j).toOption
    cases hread : Level.read f.name j with
    | ok level => rw [(Level.read_eq_ok_congr f.name "").mp hread]
    | error fault =>
      cases hother : Level.read "" j with
      | error other => rfl
      | ok level =>
        rw [(Level.read_eq_ok_congr f.name "").mpr hother] at hread
        cases hread

theorem exists_level_iff (f : LevelFile) :
    (∃ level, f.level = .ok level) ↔ f.content.level?.isSome = true := by
  rw [← level_toOption]
  cases f.level <;> simp [Except.toOption]

theorem levels_eq (files : List LevelFile) :
    levels files = ((files.filter isCandidate).map content).filterMap Content.level? := by
  rw [levels, LevelFile.held, List.filterMap_map]
  exact List.filterMap_congr fun f _ => level_toOption f

/-- Files with the same contents hold the same levels. -/
theorem levels_perm (h : SameContents files others) : (levels others).Perm (levels files) := by
  rw [levels_eq, levels_eq]
  exact h.filterMap _

/-- Whether files can be loaded does not depend on their names. -/
theorem loadable_congr (h : SameContents files others) : Loadable others ↔ Loadable files := by
  have hheld : ∀ files : List LevelFile,
      (∀ f ∈ files, f.isCandidate = true → ∃ level, f.level = .ok level) ↔
        ∀ c ∈ (files.filter isCandidate).map content, c.level?.isSome = true := by
    intro files
    simp only [exists_level_iff, List.forall_mem_map, List.mem_filter, and_imp]
  have hdistinct := ((levels_perm h).map Level.id).nodup_iff
  constructor
  · rintro ⟨hall, hids⟩
    refine ⟨(hheld files).mpr fun c hc => ?_, hdistinct.mp hids⟩
    exact (hheld others).mp hall c (h.mem_iff.mpr hc)
  · rintro ⟨hall, hids⟩
    refine ⟨(hheld others).mpr fun c hc => ?_, hdistinct.mpr hids⟩
    exact (hheld files).mp hall c (h.mem_iff.mp hc)

end LevelFile

/-! ## Loading a folder -/

namespace Catalog

open LevelFile

variable {folder : String} {files : List LevelFile} {index : LevelIndex}

theorem held_candidates_perm (files : List LevelFile) :
    (held (candidates files)).Perm (levels files) := (candidates_perm files).filterMap _

theorem index_eq_insertAll :
    Catalog.index ⟨folder, some files, none⟩ = .ok index ↔
      Loadable files ∧ index = LevelIndex.insertAll (held (candidates files)) [] := by
  have hheld : (∀ f ∈ candidates files, ∃ level, f.level = .ok level) ↔
      ∀ f ∈ files, f.isCandidate = true → ∃ level, f.level = .ok level := by
    simp only [(candidates_perm files).mem_iff, List.mem_filter, and_imp]
  have hdistinct : ((held (candidates files)).map Level.id ++ LevelIndex.ids []).Nodup ↔
      ((levels files).map Level.id).Nodup := by
    rw [LevelIndex.ids, List.map_nil, List.append_nil]
    exact ((held_candidates_perm files).map Level.id).nodup_iff
  have hnil : (LevelIndex.ids []).Nodup := List.nodup_nil
  rw [Catalog.index, readInto_eq_ok hnil, hheld, hdistinct, ← and_assoc]
  exact and_congr_left' ⟨fun h => ⟨h.1, h.2⟩, fun h => ⟨h.held, h.distinct⟩⟩

theorem exists_index_of_loadable (h : Loadable files) :
    ∃ index, Catalog.index ⟨folder, some files, none⟩ = .ok index :=
  ⟨_, index_eq_insertAll.mpr ⟨h, rfl⟩⟩

/-- What is indexed are the levels of the files in ascending order. -/
theorem index_eq_ok :
    Catalog.index ⟨folder, some files, none⟩ = .ok index ↔
      Loadable files ∧ index.Perm (levels files) ∧ index.Pairwise (·.id < ·.id) := by
  have hloaded : ∀ {index : LevelIndex}, Catalog.index ⟨folder, some files, none⟩ = .ok index →
      Loadable files ∧ index.Perm (levels files) ∧ index.Pairwise (·.id < ·.id) := by
    intro index h
    obtain ⟨hloadable, rfl⟩ := index_eq_insertAll.mp h
    have hall := LevelIndex.insertAll_perm (held (candidates files)) []
    rw [List.append_nil] at hall
    exact ⟨hloadable, hall.trans (held_candidates_perm files),
      (LevelIndex.ordered_readInto LevelIndex.ordered_nil h).ascending⟩
  refine ⟨hloaded, fun ⟨hloadable, hlevels, hascending⟩ => ?_⟩
  -- The index that is read has the same levels in the same order.
  obtain ⟨read, hread⟩ : ∃ read, Catalog.index ⟨folder, some files, none⟩ = .ok read :=
    exists_index_of_loadable hloadable
  obtain ⟨-, hlevels', hascending'⟩ := hloaded hread
  rw [LevelIndex.eq_of_perm hascending hascending' (hlevels.trans hlevels'.symm)]
  exact hread

end Catalog

end RobotPuzzle
