import RobotPuzzle.Proofs.Progress.Summary

/-!
# What records open

Recording outcomes completes the levels of completed ones, and opens the level of each outcome and
the level that follows a completed one. Nothing is closed again.

* `Records.completed_recordAll`, `Records.opened_recordAll`: which levels are completed, and which
  have been opened.
* `Store.isUnlocked_of_shows`: whether a store lets a level be played.
-/

namespace RobotPuzzle

namespace Records

/-- Whether a level has been completed. -/
def completed (r : Records) (id : Int) : Bool := (r id).any Progress.completed

/-- Whether a level has been opened. -/
def opened (r : Records) (id : Int) : Bool := (r id).any Progress.unlocked

variable {r : Records}

/-- A completed outcome completes its own level. -/
theorem completed_summed (r : Records) (calls : List Recording) (id : Int) :
    (r.summed calls).completed id = true ↔ r.completed id = true ∨
      ∃ o ∈ Recording.own calls id, o.completed = true := by
  unfold completed summed
  split
  · cases r id <;> simp [Progress.summed, Progress.opened]
  · next h => simp [Recording.own_eq_nil h]

/-- An outcome opens its own level, and a completed one another level. -/
theorem opened_summed (r : Records) (calls : List Recording) (id : Int) :
    (r.summed calls).opened id = true ↔
      r.opened id = true ∨ Recording.Concern calls id := by
  unfold opened summed
  split
  · next h => simp [Progress.summed, h]
  · next h => simp [h]

/-- The completed levels are those of completed outcomes. -/
theorem completed_recordAll (h : r.Valid) (following : Int → Option Int) {outcomes : List Outcome}
    (ho : ∀ o ∈ outcomes, o.Rated) (id : Int) :
    (r.recordAll following outcomes).completed id = true ↔
      r.completed id = true ∨ ∃ o ∈ outcomes, o.levelId = id ∧ o.completed = true := by
  rw [recordAll_eq_summed h following ho, completed_summed, Recording.own_followed]
  simp [and_assoc]

/-- The opened levels are those of outcomes, and those that follow completed ones. -/
theorem opened_recordAll (h : r.Valid) (following : Int → Option Int) {outcomes : List Outcome}
    (ho : ∀ o ∈ outcomes, o.Rated) (id : Int) :
    (r.recordAll following outcomes).opened id = true ↔
      r.opened id = true ∨ ∃ o ∈ outcomes, o.levelId = id ∨
        o.completed = true ∧ (following o.levelId).getD (o.levelId + 1) = id := by
  rw [recordAll_eq_summed h following ho, opened_summed]
  simp [Recording.Concern, Recording.own_followed, Recording.opens?_eq_some, Recording.followed,
    and_or_left, exists_or]

end Records

namespace Store

/-- A level may be played if it is the first one, has been opened, or the one with the id before it
has been completed. -/
theorem isUnlocked_of_shows {st : Store} {r : Records} (h : st.Shows r) (id : Int) :
    st.isUnlocked id =
      .ok (decide (id ≤ firstLevel) || r.opened id || r.completed (id - 1)) := by
  unfold isUnlocked
  by_cases hid : id ≤ firstLevel
  · simp [hid]
  · simp only [hid, if_false, h id, h (id - 1), bind, Except.bind]
    cases hu : r.opened id <;> simp_all [Records.opened, Records.completed, pure, Except.pure]

end Store

end RobotPuzzle
