import RobotPuzzle.Catalog.Basic

/-!
# What a catalog answers

A catalog that has been asked something keeps what it has read. Its answers do not change by that.

* `Catalog.find_remember`, `Catalog.following_congr`: the answers are those of what can be read.
* `Catalog.mem_of_find`: a level that is found is one of the catalog's.
-/

namespace RobotPuzzle

namespace Catalog

theorem remember_remember (c : Catalog) : c.remember.remember = c.remember := by
  cases h : c.index with
  | error fault => simp [remember, h]
  | ok index => simp [remember, h, index_of_loaded]

theorem folder_remember (c : Catalog) : c.remember.folder = c.folder := by
  unfold remember
  split <;> rfl

theorem find_remember (c : Catalog) (key : Json) : c.remember.find key = c.find key := by
  simp only [find, index_remember, folder_remember]

theorem next_congr {c c' : Catalog} (h : c'.index = c.index) : c'.next = c.next := by
  funext id
  simp only [next, h]

/-- The id of the level that follows an id in the catalog. -/
def following (c : Catalog) (id : Int) : Option Int :=
  match c.next id with
  | .error _ => none
  | .ok level => level.map Level.id

theorem following_congr {c c' : Catalog} (h : c'.index = c.index) :
    c'.following = c.following := by
  funext id
  simp only [following, next_congr h]

theorem mem_of_find {c : Catalog} {key : Json} {level : Level} (h : c.find key = .ok level) :
    ∃ index, c.index = .ok index ∧ level ∈ index := by
  simp only [find, bind, Except.bind] at h
  split at h
  · cases h
  · next index hindex =>
    split at h
    · split at h
      · next hget =>
        cases h
        obtain ⟨id, -, hid⟩ := Option.bind_eq_some_iff.mp hget
        exact ⟨index, hindex, List.mem_of_find?_eq_some hid⟩
      · cases h
    · cases h

end Catalog

end RobotPuzzle
