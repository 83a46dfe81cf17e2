import RobotPuzzle.Progress.Folder
import RobotPuzzle.Proofs.Json.Flat

/-!
# Progress files are read back

* `Progress.check_toJson`: the record of progress is checked to be that progress.
* `Folder.read_write`: what is written for progress is read as it.
* `Folder.fileName_injective`: no two levels share a file.
* `Folder.get_save_self`, `Folder.get_save_of_ne`: what is found after a save.
-/

namespace RobotPuzzle

namespace Progress

/-- Progress as files can hold it. -/
structure Valid (p : Progress) : Prop where
  zero_le_stars : 0 ≤ p.stars
  stars_le_three : p.stars ≤ 3

/-- The fields of the record of progress, by plain names. -/
def fields (p : Progress) : List (String × Json) :=
  [("level_id", .int p.levelId), ("completed", .bool p.completed), ("stars", .int p.stars),
    ("best_blocks", Json.orNull .int p.bestBlocks), ("best_time", Json.orNull .int p.bestTime),
    ("times_played", .int p.timesPlayed), ("unlocked", .bool p.unlocked)]

theorem toJson_eq (p : Progress) : p.toJson = .obj (p.fields.map Json.field) := rfl

/-- The names of the fields. -/
def fieldNames : List String :=
  ["level_id", "completed", "stars", "best_blocks", "best_time", "times_played", "unlocked"]

theorem map_fst_fields (p : Progress) : p.fields.map Prod.fst = fieldNames := rfl

theorem isPlain_of_mem_fieldNames {name : String} (h : name ∈ fieldNames) :
    ∀ c ∈ name.toList, Json.isPlain c = true := by
  have hall : fieldNames.all (fun name => name.toList.all Json.isPlain) = true := by decide
  exact List.all_eq_true.mp (List.all_eq_true.mp hall name h)

theorem isScalar_orNull (n : Option Int) : (Json.orNull Json.int n).isScalar = true := by
  cases n <;> rfl

theorem flat_fields (p : Progress) : Json.Flat p.fields where
  plain f hf :=
    isPlain_of_mem_fieldNames (p.map_fst_fields ▸ List.mem_map_of_mem hf)
  scalar f hf := by
    simp only [fields, List.mem_cons, List.not_mem_nil, or_false] at hf
    rcases hf with rfl | rfl | rfl | rfl | rfl | rfl | rfl
    all_goals first | rfl | exact isScalar_orNull _
  distinct := by
    rw [map_fst_fields]
    decide

theorem check_toJson {p : Progress} (h : p.Valid) : check p.toJson = .good p := by
  have hstars := Field.between_int h.zero_le_stars h.stars_le_three
  have hnullable : ∀ n : Option Int,
      Field.nullable Field.integer (Json.orNull .int n) = .good n := fun n =>
    Field.nullable_orNull (fun _ => nofun) fun n _ => Field.integer_int n
  simp [check, toJson, Field.record, Fields.required, Fields.optional, Fields.get?, hstars,
    hnullable, Field.integer_int, Field.boolean_bool, Checked.under, Seq.seq, Functor.map,
    Checked.seq, Checked.map]

end Progress

namespace Folder

theorem read_write {p : Progress} (h : p.Valid) : read (write p) = .ok p := by
  rw [read, write, Progress.toJson_eq, Json.read?_pretty p.flat_fields (List.cons_ne_nil _ _),
    ← Progress.toJson_eq]
  simp only [Progress.check_toJson h]
  rfl

theorem fileName_injective {m n : Int} (h : fileName m = fileName n) : m = n := by
  have hlist := congrArg String.toList h
  simp only [fileName, String.toList_append] at hlist
  have hpadded := List.append_cancel_left (List.append_cancel_right hlist)
  exact Numeral.padded_injective (String.toList_inj.mp hpadded)

theorem get_save_self (f : Folder) {p : Progress} (h : p.Valid) :
    (f.save p).get p.levelId = .ok (some p) := by
  simp only [get, save, text?_put_self, read_write h]
  rfl

theorem get_save_of_ne {p : Progress} {id : Int} (h : id ≠ p.levelId) (f : Folder) :
    (f.save p).get id = f.get id := by
  have hname : fileName id ≠ fileName p.levelId := fun e => h (fileName_injective e)
  rw [get, get, save, text?_put_of_ne hname]

end Folder

end RobotPuzzle
