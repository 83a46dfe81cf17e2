import RobotPuzzle.Progress.Store
import RobotPuzzle.Proofs.Progress.ReadBack
import RobotPuzzle.Proofs.Run.Rating

/-!
# What stores hold

Both kinds of store show records by level id (`Store.Shows`), and their operations do to the records
what is said here without either kind: nothing is lost between a save and the next look-up, and
recording does not fault.

* `Store.shows_save`, `Store.shows_unlock`, `Store.shows_record`: the operations on stores are those
  on records.
* `Records.valid_record`: records stay under the ids that they are for.
* `Records.unlock_self`, `Records.unlock_of_ne`: what opening a level does to the records.
-/

namespace RobotPuzzle

/-- A call that records an outcome. -/
structure Recording where
  outcome : Outcome
  /-- The level to open after a completed outcome, if it is not the one with the next id. -/
  next : Option Int
  deriving DecidableEq

namespace Recording

/-- The call for an outcome whose level is followed by the one that is told. -/
def followed (following : Int → Option Int) (o : Outcome) : Recording := ⟨o, following o.levelId⟩

theorem rated_followed (following : Int → Option Int) {outcomes : List Outcome}
    (ho : ∀ o ∈ outcomes, o.Rated) :
    ∀ c ∈ outcomes.map (followed following), c.outcome.Rated := by
  intro c hc
  obtain ⟨o, hmem, rfl⟩ := List.mem_map.mp hc
  exact ho o hmem

end Recording

/-- The records that a store shows, by level id. -/
abbrev Records := Int → Option Progress

namespace Records

/-- Each record is under the id that it is for, and can be held in a file. -/
structure Valid (r : Records) : Prop where
  levelId : ∀ id p, r id = some p → p.levelId = id
  record : ∀ id p, r id = some p → p.Valid

/-- The records with one more, or another one, under its id. -/
def save (r : Records) (p : Progress) : Records := fun id => if id = p.levelId then some p else r id

/-- The records with a level opened. -/
def unlock (r : Records) (id : Int) : Records :=
  match r id with
  | none => r.save (.opened id)
  | some p => if p.unlocked then r else r.save { p with unlocked := true }

/-- The records with an outcome merged, and the next level opened after a completed one. -/
def record (r : Records) (o : Outcome) (next : Option Int) : Records :=
  let saved := r.save (Progress.mergeInto (r o.levelId) o)
  if o.completed then saved.unlock (next.getD (o.levelId + 1)) else saved

/-- How often a level has been played. -/
def timesPlayed (r : Records) (id : Int) : Int := ((r id).map Progress.timesPlayed).getD 0

theorem save_self (r : Records) (p : Progress) : r.save p p.levelId = some p := if_pos rfl

theorem save_of_ne {p : Progress} {id : Int} (h : id ≠ p.levelId) (r : Records) :
    r.save p id = r id := if_neg h

/-! ## Validity -/

/-- No records. -/
def empty : Records := fun _ => none

theorem valid_empty : empty.Valid where
  levelId _ _ h := nomatch h
  record _ _ h := nomatch h

theorem valid_save {r : Records} (h : r.Valid) {p : Progress} (hp : p.Valid) :
    (r.save p).Valid := by
  refine ⟨fun id q hq => ?_, fun id q hq => ?_⟩
  all_goals
    unfold save at hq
    split at hq
    · next hid => cases hq; first | exact hid.symm | exact hp
    · first | exact h.levelId id q hq | exact h.record id q hq

theorem valid_opened (id : Int) : (Progress.opened id).Valid :=
  ⟨Int.le_refl 0, show (0 : Int) ≤ 3 by decide⟩

theorem valid_unlock {r : Records} (h : r.Valid) (id : Int) : (r.unlock id).Valid := by
  unfold unlock
  split
  · exact valid_save h (valid_opened id)
  · next p hp =>
    split
    · exact h
    · have hv := h.record id p hp
      exact valid_save h ⟨hv.zero_le_stars, hv.stars_le_three⟩

/-- The progress that an outcome is merged into. -/
theorem levelId_mergeInto {r : Records} (h : r.Valid) (o : Outcome) :
    (Progress.mergeInto (r o.levelId) o).levelId = o.levelId := by
  unfold Progress.mergeInto Progress.merge
  cases hr : r o.levelId with
  | none => rfl
  | some p => exact h.levelId o.levelId p hr

theorem valid_mergeInto {r : Records} (h : r.Valid) {o : Outcome} (ho : o.Rated) :
    (Progress.mergeInto (r o.levelId) o).Valid := by
  have hbase : ((r o.levelId).getD (.opened o.levelId)).Valid := by
    cases hr : r o.levelId with
    | none => exact valid_opened o.levelId
    | some p => exact h.record o.levelId p hr
  exact ⟨Int.le_trans ho.zero_le_stars (Int.le_max_right _ _),
    Int.max_le.mpr ⟨hbase.stars_le_three, ho.stars_le_three⟩⟩

theorem valid_record {r : Records} (h : r.Valid) {o : Outcome} (ho : o.Rated)
    (next : Option Int) : (r.record o next).Valid := by
  have hsaved := valid_save h (valid_mergeInto h ho)
  simp only [record]
  split
  · exact valid_unlock hsaved _
  · exact hsaved

/-! ## Opening a level -/

/-- A level that is opened has a record, which says so. -/
theorem unlock_self {r : Records} (h : r.Valid) (id : Int) :
    r.unlock id id = some { (r id).getD (.opened id) with unlocked := true } := by
  unfold unlock
  cases hp : r id with
  | none => exact save_self r (.opened id)
  | some p =>
    have hid := h.levelId id p hp
    cases hu : p.unlocked with
    | true =>
      simp only [hu, ↓reduceIte, hp, Option.getD_some]
      rw [← hu]
    | false =>
      simp only [hu, Bool.false_eq_true, ↓reduceIte, Option.getD_some]
      exact if_pos hid.symm

theorem unlock_of_ne {r : Records} (h : r.Valid) {target id : Int} (hne : id ≠ target) :
    r.unlock target id = r id := by
  unfold unlock
  cases hp : r target with
  | none => exact save_of_ne hne r
  | some p =>
    have hid := h.levelId target p hp
    simp only
    split
    · rfl
    · exact save_of_ne (hid.symm ▸ hne) r

/-! ## One outcome after the other -/

/-- The records with the outcomes of calls recorded one after the other. -/
def recordEach (r : Records) (calls : List Recording) : Records :=
  calls.foldl (fun r c => r.record c.outcome c.next) r

theorem valid_recordEach {r : Records} (h : r.Valid) {calls : List Recording}
    (hc : ∀ c ∈ calls, c.outcome.Rated) : (r.recordEach calls).Valid := by
  induction calls generalizing r with
  | nil => exact h
  | cons c rest ih =>
    exact ih (valid_record h (hc c List.mem_cons_self) c.next)
      fun c' hc' => hc c' (List.mem_cons_of_mem c hc')

/-- The records with outcomes recorded in turn, each with the level that follows. -/
def recordAll (r : Records) (following : Int → Option Int) (outcomes : List Outcome) : Records :=
  outcomes.foldl (fun r o => r.record o (following o.levelId)) r

theorem recordAll_eq_recordEach (r : Records) (following : Int → Option Int)
    (outcomes : List Outcome) :
    r.recordAll following outcomes =
      r.recordEach (outcomes.map (Recording.followed following)) := by
  rw [recordEach, List.foldl_map]
  rfl

theorem recordAll_append (r : Records) (following : Int → Option Int) (a b : List Outcome) :
    r.recordAll following (a ++ b) = (r.recordAll following a).recordAll following b :=
  List.foldl_append

theorem valid_recordAll {r : Records} (h : r.Valid) (following : Int → Option Int)
    {outcomes : List Outcome} (ho : ∀ o ∈ outcomes, o.Rated) :
    (r.recordAll following outcomes).Valid := by
  rw [recordAll_eq_recordEach]
  exact valid_recordEach h (Recording.rated_followed following ho)

end Records

/-- What a ledger holds is under the ids that it is for. -/
theorem Ledger.valid_get? {ledger : Ledger} (h : ∀ p ∈ ledger.entries, p.Valid) :
    Records.Valid ledger.get? where
  levelId _ _ hp := by simpa using List.find?_some hp
  record _ p hp := h p (List.mem_of_find?_eq_some hp)

namespace Store

/-- A store shows records: every look-up finds the record for the id. -/
def Shows (st : Store) (r : Records) : Prop := ∀ id, st.get id = .ok (r id)

theorem shows_save {st : Store} {r : Records} (h : st.Shows r) {p : Progress} (hp : p.Valid) :
    (st.save p).Shows (r.save p) := by
  intro id
  by_cases hid : id = p.levelId
  · subst hid
    rw [Records.save_self]
    cases st with
    | memory ledger => exact congrArg Except.ok (ledger.get?_save_self p)
    | files folder => exact folder.get_save_self hp
  · rw [Records.save_of_ne hid, ← h id]
    cases st with
    | memory ledger => exact congrArg Except.ok (Ledger.get?_save_of_ne hid ledger)
    | files folder => exact Folder.get_save_of_ne hid folder

theorem shows_unlock {st : Store} {r : Records} (h : st.Shows r) (hr : r.Valid) (id : Int) :
    ∃ st', st.unlock id = .ok st' ∧ st'.Shows (r.unlock id) := by
  simp only [unlock, h id, bind, Except.bind, Records.unlock]
  cases hp : r id with
  | none => exact ⟨_, rfl, shows_save h (Records.valid_opened id)⟩
  | some p =>
    cases hu : p.unlocked with
    | true =>
      simp only [hu, ↓reduceIte]
      exact ⟨st, rfl, h⟩
    | false =>
      have hv := hr.record id p hp
      have hsave := shows_save h (p := { p with unlocked := true })
        ⟨hv.zero_le_stars, hv.stars_le_three⟩
      simp only [hu, Bool.false_eq_true, ↓reduceIte]
      exact ⟨_, rfl, hsave⟩

/-- Recording an outcome does not fault, and the store shows it. -/
theorem shows_record {st : Store} {r : Records} (h : st.Shows r) (hr : r.Valid) {o : Outcome}
    (ho : o.Rated) (next : Option Int) :
    (∃ p, (st.record o next).1 = .ok p) ∧ (st.record o next).2.Shows (r.record o next) := by
  have hmerged := Records.valid_mergeInto hr ho
  have hsaved := shows_save h hmerged
  simp only [record, recordThen, h o.levelId, Records.record]
  cases hc : o.completed with
  | false => exact ⟨⟨_, rfl⟩, hsaved⟩
  | true =>
    obtain ⟨st', hst, hshows⟩ :=
      shows_unlock hsaved (Records.valid_save hr hmerged) (next.getD (o.levelId + 1))
    simp only [↓reduceIte, hst]
    exact ⟨⟨_, rfl⟩, hshows⟩

/-- The store with the outcomes of calls recorded one after the other. -/
def recordEach (st : Store) (calls : List Recording) : Store :=
  calls.foldl (fun st c => (st.record c.outcome c.next).2) st

theorem shows_recordEach {st : Store} {r : Records} (h : st.Shows r) (hr : r.Valid)
    {calls : List Recording} (hc : ∀ c ∈ calls, c.outcome.Rated) :
    (st.recordEach calls).Shows (r.recordEach calls) := by
  induction calls generalizing st r with
  | nil => exact h
  | cons c rest ih =>
    have hrated := hc c List.mem_cons_self
    exact ih (shows_record h hr hrated c.next).2 (Records.valid_record hr hrated c.next)
      fun c' hc' => hc c' (List.mem_cons_of_mem c hc')

/-- The store with outcomes recorded in turn, each with the level that follows. -/
def recordAll (st : Store) (following : Int → Option Int) (outcomes : List Outcome) : Store :=
  outcomes.foldl (fun st o => (st.record o (following o.levelId)).2) st

theorem recordAll_append (st : Store) (following : Int → Option Int) (a b : List Outcome) :
    st.recordAll following (a ++ b) = (st.recordAll following a).recordAll following b :=
  List.foldl_append

theorem shows_recordAll {st : Store} {r : Records} (h : st.Shows r) (hr : r.Valid)
    (following : Int → Option Int) {outcomes : List Outcome} (ho : ∀ o ∈ outcomes, o.Rated) :
    (st.recordAll following outcomes).Shows (r.recordAll following outcomes) := by
  have hsame : st.recordAll following outcomes =
      st.recordEach (outcomes.map (Recording.followed following)) := by
    rw [recordEach, List.foldl_map]
    rfl
  rw [hsame, Records.recordAll_eq_recordEach]
  exact shows_recordEach h hr (Recording.rated_followed following ho)

/-- How often a level has been played, going by a store. -/
def timesPlayed (st : Store) (id : Int) : Except Fault Int :=
  (st.get id).map fun p => (p.map Progress.timesPlayed).getD 0

theorem timesPlayed_of_shows {st : Store} {r : Records} (h : st.Shows r) (id : Int) :
    st.timesPlayed id = .ok (r.timesPlayed id) := by
  rw [timesPlayed, h id]
  rfl

end Store

end RobotPuzzle
