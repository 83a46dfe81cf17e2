import RobotPuzzle.Proofs.Catalog.Order
import RobotPuzzle.Proofs.Progress.Opening
import RobotPuzzle.Proofs.Session.Recording

/-!
# The lock on levels

A level can be selected if it is the first one, or if the level with the greatest id below it has
been completed, whatever gaps there are between the ids. The session goes by the records of its
store, where a level is open when it has been opened or the level with the id before it has been
completed; from an empty store, that comes to the same.

A level is named by its id, an integer. A double may also be equal to an id, but the number before
a great one is rounded, and may be the id of another level than the one before; what is said here is
about histories in which no level is named by a double.

* `Selectable`: when a level can be selected.
* `Session.isUnlocked_iff`: the store says so.
* `Session.gated_after`: every deed keeps the lock.
* `Session.locksExactly_performAll`: at every moment, selecting a level and going to the next one
  go by the lock.
-/

namespace RobotPuzzle

/-- Whether a value is no double. -/
def Json.isExact : Json → Bool
  | .real _ => false
  | _ => true

/-- Whether an action names no level by a double. -/
def Action.namesExactly : Action → Bool
  | .select key => key.isExact
  | _ => true

/-- Whether a deed names no level by a double. -/
def Deed.namesExactly : Deed → Bool
  | .act a => a.namesExactly
  | .beginPlay _ | .sleep _ => true

/-- Whether a deed picks a level. -/
def Deed.picks : Deed → Bool
  | .act (.select _) | .act .nextLevel => true
  | _ => false

/-! ## Levels that can be selected -/

/-- A level of the catalog can be selected after runs have ended with outcomes: it is the first one,
or the level with the greatest id below it has been completed. -/
def Selectable (index : LevelIndex) (outcomes : List Outcome) (id : Int) : Prop :=
  id ∈ index.ids ∧ (id = 1 ∨ ∃ before, IsGreatest (index.below id) before ∧
    ∃ o ∈ outcomes, o.levelId = before ∧ o.completed = true)

variable {index : LevelIndex} {outs : List Outcome} {id : Int}

/-- What can be selected stays so. -/
theorem Selectable.append (h : Selectable index outs id) (more : List Outcome) :
    Selectable index (outs ++ more) id := by
  obtain ⟨hid, hfirst | ⟨before, hbefore, o, ho, hcompleted⟩⟩ := h
  · exact ⟨hid, .inl hfirst⟩
  · exact ⟨hid, .inr ⟨before, hbefore, o, List.mem_append_left more ho, hcompleted⟩⟩

/-- A level is next after a completed one exactly if that one is next below it. -/
theorem selectable_of_completed {o : Outcome} (ho : o ∈ outs) (hcompleted : o.completed = true)
    (hlevel : o.levelId ∈ index.ids) (hnext : IsLeast (index.above o.levelId) id) :
    Selectable index outs id := by
  obtain ⟨hid, hbefore⟩ := LevelIndex.isLeast_above_iff.mp ⟨hlevel, hnext⟩
  exact ⟨hid, .inr ⟨o.levelId, hbefore, o, ho, rfl, hcompleted⟩⟩

/-- A run that has ended is over with its outcome. -/
theorem Scene.ended_of_entered? {before after : Scene} {limit : Option Int}
    (h : after.Coherent limit) {o : Outcome} (ho : before.entered? after = some o) :
    ∃ a, after.attempt = some a ∧ a.Ended o := by
  unfold entered? at ho
  split at ho
  · next hstage =>
    obtain ⟨a, o', ha, hlast, hended⟩ := h.ended hstage.2
    cases ho.symm.trans hlast
    exact ⟨a, ha, hended⟩
  · cases ho

namespace Session

/-- A session after runs have ended with outcomes, of levels that could be selected, as the level of
its attempt could. The store has recorded the outcomes, and nothing else. -/
structure Gated (s : Session) (index : LevelIndex) (outs : List Outcome) : Prop where
  orderly : s.Orderly
  loaded : s.catalog.index = .ok index
  rated : ∀ o ∈ outs, o.Rated
  shows : s.store.Shows (Records.empty.recordAll s.catalog.following outs)
  played : ∀ o ∈ outs, Selectable index outs o.levelId
  attempt : ∀ a, s.attempt = some a → a.level ∈ index ∧ Selectable index outs a.level.id

variable {s : Session}

/-- **The store opens what can be selected.** -/
theorem isUnlocked_iff (hindex : index.Ordered) (h : s.Gated index outs) (hid : id ∈ index.ids) :
    ∃ b, s.store.isUnlocked id = .ok b ∧ (b = true ↔ Selectable index outs id) := by
  have hcompleted := Records.completed_recordAll Records.valid_empty s.catalog.following h.rated
  have hopened := Records.opened_recordAll Records.valid_empty s.catalog.following h.rated
  refine ⟨_, Store.isUnlocked_of_shows h.shows id, ?_⟩
  simp only [Bool.or_eq_true, decide_eq_true_eq, hcompleted, hopened]
  constructor
  · rintro ((hle | hnone | ⟨o, ho, hlevel | ⟨hc, hfollowing⟩⟩) | hnone | ⟨o, ho, hlevel, hc⟩)
    · obtain ⟨level, hlevel, rfl⟩ := LevelIndex.mem_ids.mp hid
      have hpositive := hindex.positive level hlevel
      have hone : level.id ≤ 1 := hle
      exact ⟨hid, .inl (by omega)⟩
    · cases hnone
    · exact hlevel ▸ h.played o ho
    · rw [Catalog.following_of_index h.loaded] at hfollowing
      refine selectable_of_completed ho hc (h.played o ho).1 ?_
      cases hnext : index.next? o.levelId with
      | none =>
        have hle := LevelIndex.next?_eq_none.mp hnext id hid
        have hpast : o.levelId + 1 = id := by rw [hnext] at hfollowing; exact hfollowing
        omega
      | some level =>
        have hid' : level.id = id := by rw [hnext] at hfollowing; exact hfollowing
        exact hid' ▸ (hindex.next?_eq_some.mp hnext).2
    · cases hnone
    · refine selectable_of_completed ho hc (h.played o ho).1 ⟨⟨hid, by omega⟩, fun i hi => ?_⟩
      have hlt : o.levelId < i := hi.2
      omega
  · rintro ⟨-, hfirst | ⟨before, hbefore, o, ho, rfl, hc⟩⟩
    · exact .inl (.inl (Int.le_of_eq hfirst))
    · refine .inl (.inr (.inr ⟨o, ho, .inr ⟨hc, ?_⟩⟩))
      obtain ⟨level, hlevel, rfl⟩ := LevelIndex.mem_ids.mp hid
      have hnext : index.next? o.levelId = some level :=
        hindex.next?_eq_some.mpr ⟨hlevel, (LevelIndex.isLeast_above_iff.mpr ⟨hid, hbefore⟩).2⟩
      rw [Catalog.following_of_index h.loaded, hnext]
      rfl

/-! ## What a deed does to the level -/

/-- A value that is found is equal to the id. -/
theorem get?_of_find {c : Catalog} (h : c.index = .ok index) {key : Json} {level : Level}
    (hfind : c.find key = .ok level) : ∃ i, key.whole? = some i ∧ index.get? i = some level := by
  simp only [Catalog.find, h, bind, Except.bind] at hfind
  split at hfind
  · split at hfind
    · next found hget =>
      cases hfind
      exact Option.bind_eq_some_iff.mp hget
    · cases hfind
  · cases hfind

/-- A value that is no double opens the level that it names as the level's id does. -/
theorem isOpen_of_find {c : Catalog} (hindex : index.Ordered) (h : c.index = .ok index)
    {key : Json} (hkey : key.isExact = true) {level : Level} (hfind : c.find key = .ok level)
    (st : Store) : level ∈ index ∧ st.isOpen key = st.isUnlocked level.id := by
  obtain ⟨i, hwhole, hget⟩ := get?_of_find h hfind
  obtain ⟨hlevel, rfl⟩ := hindex.get?_eq_some.mp hget
  refine ⟨hlevel, ?_⟩
  cases key with
  | int n =>
    cases hwhole
    exact st.isOpen_int level.id
  | bool b =>
    have hpositive := hindex.positive level hlevel
    have hid : (if b then 1 else 0) = level.id := Option.some.inj hwhole
    cases b with
    | false => rw [← hid] at hpositive; cases hpositive
    | true =>
      rw [Store.isUnlocked_of_le_one (Int.le_of_eq hid.symm)]
      rfl
  | real x => cases hkey
  | null | str | arr | obj => cases hwhole

theorem attempt_move (s : Session) (target : Stage) : (s.move target).2.attempt = s.attempt := by
  rcases s.move_cases target with h | h <;> rw [h]
  rfl

theorem attempt_enterLevel (s : Session) (level : Level) :
    (s.enterLevel level).2.attempt = some (.fresh level s.limit) := by
  have hmove := attempt_move (s.begin level) .countdown
  unfold enterLevel
  split <;> next heq => rw [heq] at hmove; exact hmove

/-- Selecting a level keeps the attempt, or begins one at a level that is open. -/
theorem attempt_select {s : Session} {key : Json} {a : Attempt}
    (h : (s.select key).2.attempt = some a) :
    s.attempt = some a ∨ s.catalog.find key = .ok a.level ∧ s.store.isOpen key = .ok true := by
  unfold select at h
  split at h
  · split at h
    · exact .inl h
    · next level hfind =>
      simp only at h
      split at h
      · exact .inl h
      · exact .inl h
      · next hopen =>
        rw [attempt_enterLevel] at h
        cases h
        exact .inr ⟨hfind, hopen⟩
  · exact .inl h

theorem attempt_leaveForSelection (s : Session) : s.leaveForSelection.2.attempt = s.attempt := by
  rw [snd_leaveForSelection_eq]
  exact attempt_move s .levelSelect

/-- Going to the next level keeps the attempt, or begins one at a level that is open. -/
theorem attempt_nextLevel {s : Session} {a : Attempt} (h : s.nextLevel.2.attempt = some a) :
    s.attempt = some a ∨
      ∃ i, s.catalog.find (.int i) = .ok a.level ∧ s.store.isOpen (.int i) = .ok true := by
  unfold nextLevel at h
  split at h
  · exact .inl h
  · split at h
    · split at h
      · exact .inl h
      · rw [attempt_leaveForSelection] at h
        exact .inl h
      · next following _ =>
        simp only at h
        split at h
        · exact .inl h
        · rw [attempt_leaveForSelection] at h
          exact .inl h
        · have hselect : (s.consult.select (.int following.id)).2.attempt = some a := by
            split at h <;> next heq => rw [heq]; exact h
          refine (attempt_select hselect).imp_right fun ⟨hfind, hopen⟩ => ⟨following.id, ?_, hopen⟩
          rw [← s.catalog.find_remember]
          exact hfind
    · exact .inl h

/-- Where a level can be picked, only picking one leads to the countdown. -/
theorem stage_after_ne_countdown {s : Session} (hs : s.stage ∈ picking) {d : Deed}
    (hp : d.isPlayers = true) (hd : d.picks = false) : (s.after d).stage ≠ .countdown := by
  have hstage : s.stage = .levelSelect ∨ s.stage = .results ∨ s.stage = .failed := by
    simpa [picking] using hs
  have hne : ∀ stage ∈ [Stage.countdown, .building, .executing, .paused, .menu],
      s.stage ≠ stage := by
    rcases hstage with h | h | h <;> rw [h] <;> decide
  have hstays : (s.after d).stage = s.stage → (s.after d).stage ≠ .countdown :=
    fun h => h ▸ hne .countdown (by decide)
  have hmoves : ∀ {sources : List Stage} (target : Stage), target ≠ .countdown →
      (s.moveFrom sources target).2.stage ≠ .countdown := by
    intro sources target htarget
    rcases s.moveFrom_cases sources target with h | h <;> rw [h]
    · exact hne .countdown (by decide)
    · exact htarget
  have hediting : s.editing? = none := by simp [editing?, hne]
  cases d with
  | beginPlay speed => rcases speed with _ | fault | speed <;> exact hstays rfl
  | sleep millis => exact hstays rfl
  | act a =>
    cases a with
    | select | nextLevel => cases hd
    | transition | saveProgress => cases hp
    | openLevelSelect | backToMenu | finishCountdown | quitToLevelSelect =>
      exact hmoves _ (by decide)
    | add | remove | moveBlock | setRepeats | clearProgram | run =>
      refine hstays ?_
      simp [after, act, answer, add, remove, moveBlock, setRepeats, clearProgram, run, edit,
        hediting]
    | setSpeed speed => cases speed <;> exact hstays rfl
    | tick =>
      refine hstays ?_
      rw [after_tick, tick_of_not_executing (hne .executing (by decide))]
    | pause =>
      refine hstays ?_
      simp [after, act, answer, pause, hne]
    | resume =>
      refine hstays ?_
      show s.resume.2.stage = s.stage
      rcases s.resume_cases with h | ⟨-, hs, -, -⟩
      · rw [h]
      · exact absurd hs (hne .paused (by decide))
    | stop =>
      refine hstays ?_
      show s.stop.2.stage = s.stage
      rcases s.stop_cases with h | ⟨-, hs | hs, -, -⟩
      · rw [h]
      · exact absurd hs (hne .executing (by decide))
      · exact absurd hs (hne .paused (by decide))
    | retry =>
      show s.retry.2.stage ≠ .countdown
      rcases s.retry_cases with h | ⟨a, -, -, h⟩ <;> rw [h]
      · exact hne .countdown (by decide)
      · exact show Stage.building ≠ .countdown by decide
    | reset =>
      show s.reset.stage ≠ .countdown
      rw [s.stage_reset]
      decide
    | world | history | progress | isOpen | totalStars => exact hstays rfl

/-- A passage that does not pick a level keeps it. -/
theorem Passage.level {s : Session} {c : Scene} (h : Passage s c)
    (hpick : s.stage ∈ picking → c.stage ≠ .countdown) {a' : Attempt}
    (ha' : c.attempt = some a') : ∃ a, s.attempt = some a ∧ a.level = a'.level := by
  cases h with
  | stay | walk | resume => exact ⟨a', ha', rfl⟩
  | begin key level hstage => exact absurd rfl (hpick hstage)
  | edit a program hstage ha hlevel =>
    cases ha'
    exact ⟨a, ha, hlevel.symm⟩
  | refuse a hstage ha | start a stream hstage ha | rewind a hstage ha | turn a hstage ha
  | conclude a report o hstage ha =>
    cases ha'
    exact ⟨a, ha, rfl⟩
  | reset => cases ha'

/-- A deed keeps the level, or picks one that is open. -/
theorem level_after {s : Session} {d : Deed} (hp : d.isPlayers = true)
    (hexact : d.namesExactly = true) {a' : Attempt} (ha' : (s.after d).attempt = some a') :
    (∃ a, s.attempt = some a ∧ a.level = a'.level) ∨
      ∃ key : Json, key.isExact = true ∧ s.catalog.find key = .ok a'.level ∧
        s.store.isOpen key = .ok true := by
  cases hpicks : d.picks with
  | false =>
    exact .inl ((leads_after hp s).passage.level
      (fun hs => stage_after_ne_countdown hs hp hpicks) ha')
  | true =>
    cases d with
    | beginPlay | sleep => cases hpicks
    | act action =>
      cases action with
      | select key =>
        rcases attempt_select ha' with ha | hfound
        · exact .inl ⟨a', ha, rfl⟩
        · exact .inr ⟨key, hexact, hfound⟩
      | nextLevel =>
        rcases attempt_nextLevel ha' with ha | ⟨i, hfound⟩
        · exact .inl ⟨a', ha, rfl⟩
        · exact .inr ⟨.int i, rfl, hfound⟩
      | _ => cases hpicks

/-! ## The lock of a history -/

theorem gated_fresh {catalog : Catalog} (hindex : catalog.index = .ok index) {store : Store}
    (hstore : store.Shows .empty) (clock : Clock) (limit : Option Int) (speed : Speed) :
    (fresh catalog store clock limit speed).Gated index [] where
  orderly := orderly_fresh catalog store clock limit speed
  loaded := hindex
  rated _ h := absurd h List.not_mem_nil
  shows := hstore
  played _ h := absurd h List.not_mem_nil
  attempt _ h := by cases h

/-- **Every deed keeps the lock.** -/
theorem gated_after {s : Session} (hindex : index.Ordered) (h : s.Gated index outs) {d : Deed}
    (hp : d.isPlayers = true) (hexact : d.namesExactly = true) :
    (s.after d).Gated index (outs ++ (s.scene.entered? (s.after d).scene).toList) := by
  have hleads := leads_after hp s
  have horderly := orderly_of_leads h.orderly hleads
  have hattempt : ∀ a, (s.after d).attempt = some a →
      a.level ∈ index ∧ Selectable index outs a.level.id := by
    intro a ha
    rcases level_after hp hexact ha with ⟨b, hb, hlevel⟩ | ⟨key, hkey, hfind, hopen⟩
    · exact hlevel ▸ h.attempt b hb
    · obtain ⟨hmem, hsame⟩ := isOpen_of_find hindex h.loaded hkey hfind s.store
      obtain ⟨b, hunlocked, hiff⟩ := isUnlocked_iff hindex h (LevelIndex.id_mem_ids hmem)
      refine ⟨hmem, hiff.mp ?_⟩
      cases hunlocked.symm.trans (hsame.symm.trans hopen)
      rfl
  have hnew : ∀ o ∈ (s.scene.entered? (s.after d).scene).toList,
      o.Rated ∧ Selectable index outs o.levelId := by
    intro o ho
    have hentered := Option.mem_toList.mp ho
    obtain ⟨a, ha, hended⟩ := Scene.ended_of_entered? horderly.coherent hentered
    exact ⟨hended.reports.toRated, hended.reports.levelId ▸ (hattempt a ha).2⟩
  have hrated : ∀ o ∈ outs ++ (s.scene.entered? (s.after d).scene).toList, o.Rated := by
    intro o ho
    rcases List.mem_append.mp ho with ho | ho
    · exact h.rated o ho
    · exact (hnew o ho).1
  refine
    { orderly := horderly
      loaded := hleads.index.trans h.loaded
      rated := hrated
      shows := ?_
      played := fun o ho => ?_
      attempt := fun a ha => ⟨(hattempt a ha).1, (hattempt a ha).2.append _⟩ }
  · have hstore : (s.after d).store = s.store.recordAll s.catalog.following _ :=
      Scene.store_of_passage hleads.passage h.orderly.listed
    rw [hstore, Catalog.following_congr hleads.index, Records.recordAll_append]
    exact Store.shows_recordAll h.shows
      (Records.valid_recordAll Records.valid_empty s.catalog.following h.rated)
      s.catalog.following fun o ho => (hnew o ho).1
  · rcases List.mem_append.mp ho with ho | ho
    · exact (h.played o ho).append _
    · exact (hnew o ho).2.append _

theorem outcomes_append (s : Session) (a b : List Deed) :
    s.outcomes (a ++ b) = s.outcomes a ++ (s.follow a).outcomes b := by
  induction a generalizing s with
  | nil => rfl
  | cons d rest ih => rw [List.cons_append, outcomes, outcomes, ih, follow_cons, List.append_assoc]

/-- At every moment of a history, the lock is as the outcomes until then demand. -/
theorem gated_follow {s : Session} (hindex : index.Ordered) (h : s.Gated index outs)
    {deeds : List Deed} (hp : ∀ d ∈ deeds, d.isPlayers = true ∧ d.namesExactly = true) :
    (s.follow deeds).Gated index (outs ++ s.outcomes deeds) := by
  induction deeds generalizing s outs with
  | nil =>
    rw [outcomes, List.append_nil]
    exact h
  | cons d rest ih =>
    obtain ⟨hplayers, hexact⟩ := hp d List.mem_cons_self
    rw [outcomes, ← List.append_assoc]
    exact ih (gated_after hindex h hplayers hexact) fun e he => hp e (List.mem_cons_of_mem d he)

/-! ## Picking levels -/

/-- A session enters the countdown of a level with a fresh attempt at it. -/
structure Enters (s s' : Session) (level : Level) : Prop where
  stage : s'.stage = .countdown
  attempt : s'.attempt = some (.fresh level s.limit)

/-- Picking levels goes by what can be selected after runs have ended with outcomes. -/
structure LocksExactly (s : Session) (index : LevelIndex) (outs : List Outcome) : Prop where
  /-- What can be selected is entered when it is picked. -/
  opens : s.stage ∈ picking → ∀ id, Selectable index outs id →
    ∃ level ∈ index, level.id = id ∧ (s.select (.int id)).1 = .ok level ∧
      s.Enters (s.select (.int id)).2 level
  /-- A level of the catalog that cannot be selected is locked. -/
  locks : s.stage ∈ picking → ∀ id ∈ index.ids, ¬ Selectable index outs id →
    (s.select (.int id)).1 = .error (.levelLocked (.int id)) ∧
      (s.select (.int id)).2.scene = s.scene
  /-- Other levels are not there. -/
  lacks : s.stage ∈ picking → ∀ id, id ∉ index.ids →
    (s.select (.int id)).1 = .error (.noLevel (.int id) s.catalog.folder) ∧
      (s.select (.int id)).2.scene = s.scene
  /-- After a run, there is a level of the catalog to go on from. -/
  current : s.stage.isOver = true → ∃ a, s.attempt = some a ∧ a.level ∈ index
  /-- The next level is entered if it can be selected. -/
  goesOn : s.stage.isOver = true → ∀ a, s.attempt = some a →
    ∀ id, IsLeast (index.above a.level.id) id → Selectable index outs id →
    ∃ level ∈ index, level.id = id ∧ s.nextLevel.1 = .ok (some level) ∧
      s.Enters s.nextLevel.2 level
  /-- Otherwise levels are picked. -/
  leaves : s.stage.isOver = true → ∀ a, s.attempt = some a →
    (∀ id, IsLeast (index.above a.level.id) id → ¬ Selectable index outs id) →
    s.nextLevel.1 = .ok none ∧ s.nextLevel.2.stage = .levelSelect

theorem select_of_get? {s : Session} (hs : s.stage ∈ picking) (h : s.catalog.index = .ok index)
    {level : Level} (hget : index.get? id = some level) :
    s.select (.int id) =
      match s.store.isUnlocked id with
      | .error fault => (.error fault, s.consult)
      | .ok false => (.error (.levelLocked (.int id)),
          s.consult.log .error ("[Session] Level " ++ (Json.int id).text ++ " is locked"))
      | .ok true => s.consult.enterLevel level := by
  have hpicking : picking.contains s.stage = true := by simpa using hs
  unfold select
  rw [if_pos hpicking, Catalog.find_of_index h, hget]
  simp only [Store.isOpen_int]
  rfl

/-- An open level is entered. -/
theorem enters_enterLevel {s : Session} (hs : s.stage ∈ picking) (level : Level) :
    (s.enterLevel level).1 = .ok level ∧ s.Enters (s.enterLevel level).2 level := by
  have hmove : (s.begin level).move .countdown = (.ok (), (s.begin level).goTo .countdown) :=
    move_of_mem (countdown_mem_next hs)
  unfold enterLevel
  rw [hmove]
  exact ⟨rfl, rfl, rfl⟩

theorem enters_select {s : Session} (hindex : index.Ordered) (h : s.Gated index outs)
    (hs : s.stage ∈ picking) (hid : Selectable index outs id) :
    ∃ level ∈ index, level.id = id ∧ (s.select (.int id)).1 = .ok level ∧
      s.Enters (s.select (.int id)).2 level := by
  obtain ⟨level, hlevel, rfl⟩ := LevelIndex.mem_ids.mp hid.1
  obtain ⟨b, hunlocked, hiff⟩ := isUnlocked_iff hindex h hid.1
  have hget : index.get? level.id = some level := hindex.get?_eq_some.mpr ⟨hlevel, rfl⟩
  obtain ⟨hok, hstage, hattempt⟩ := enters_enterLevel (s := s.consult) hs level
  rw [select_of_get? hs h.loaded hget, hunlocked, hiff.mpr hid]
  exact ⟨level, hlevel, rfl, hok, hstage, hattempt⟩

theorem leaveForSelection_of_isOver {s : Session} (h : s.stage.isOver = true) :
    s.leaveForSelection = (.ok none, s.goTo .levelSelect) := by
  unfold leaveForSelection
  rw [move_of_mem (mem_next_of_mem_walks (levelSelect_mem_next h))]

theorem mem_picking_of_isOver {stage : Stage} (h : stage.isOver = true) : stage ∈ picking := by
  cases stage <;> revert h <;> decide

theorem nextLevel_of_next? {s : Session} {a : Attempt} (hs : s.stage.isOver = true)
    (ha : s.attempt = some a) (h : s.catalog.index = .ok index) :
    s.nextLevel =
      match index.next? a.level.id with
      | none => s.consult.leaveForSelection
      | some following =>
        match s.store.isUnlocked following.id with
        | .error fault => (.error fault, s.consult)
        | .ok false => s.consult.leaveForSelection
        | .ok true =>
          match s.consult.select (.int following.id) with
          | (.error fault, s) => (.error fault, s)
          | (.ok level, s) => (.ok (some level), s) := by
  unfold nextLevel
  rw [ha]
  simp only [hs, if_true, Catalog.next_of_index h]
  cases index.next? a.level.id <;> rfl

/-- Asking the catalog keeps the lock. -/
theorem gated_consult {s : Session} (h : s.Gated index outs) : s.consult.Gated index outs where
  orderly := orderly_of_leads h.orderly s.leads_consult
  loaded := s.catalog.index_remember.trans h.loaded
  rated := h.rated
  shows := Catalog.following_congr s.catalog.index_remember ▸ h.shows
  played := h.played
  attempt := h.attempt

theorem locksExactly_of_gated {s : Session} (hindex : index.Ordered) (h : s.Gated index outs) :
    s.LocksExactly index outs where
  opens hs _ hid := enters_select hindex h hs hid
  locks hs id hid hnot := by
    obtain ⟨level, hlevel, rfl⟩ := LevelIndex.mem_ids.mp hid
    obtain ⟨b, hunlocked, hiff⟩ := isUnlocked_iff hindex h hid
    have hget : index.get? level.id = some level := hindex.get?_eq_some.mpr ⟨hlevel, rfl⟩
    have hb : b = false := by
      cases b with
      | false => rfl
      | true => exact absurd (hiff.mp rfl) hnot
    rw [select_of_get? hs h.loaded hget, hunlocked, hb]
    exact ⟨rfl, rfl⟩
  lacks hs id hid := by
    have hpicking : picking.contains s.stage = true := by simpa using hs
    unfold select
    rw [if_pos hpicking, Catalog.find_of_index h.loaded, LevelIndex.get?_eq_none.mpr hid]
    exact ⟨rfl, rfl⟩
  current hover := by
    obtain ⟨a, -, ha, -⟩ := Scene.Coherent.ended h.orderly.coherent hover
    exact ⟨a, ha, (h.attempt a ha).1⟩
  goesOn hover a ha id hleast hid := by
    obtain ⟨level, hlevel, rfl⟩ := LevelIndex.mem_ids.mp hid.1
    obtain ⟨b, hunlocked, hiff⟩ := isUnlocked_iff hindex h hid.1
    have hnext : index.next? a.level.id = some level := hindex.next?_eq_some.mpr ⟨hlevel, hleast⟩
    obtain ⟨entered, hmem, hsame, hok, henters⟩ :=
      enters_select hindex (gated_consult h) (mem_picking_of_isOver hover) hid
    refine ⟨entered, hmem, hsame, ?_⟩
    rw [nextLevel_of_next? hover ha h.loaded, hnext]
    simp only [hunlocked, hiff.mpr hid]
    generalize s.consult.select (.int level.id) = r at hok henters ⊢
    obtain ⟨value, s'⟩ := r
    cases hok
    exact ⟨rfl, henters.stage, henters.attempt⟩
  leaves hover a ha hnone := by
    have hleave : s.consult.leaveForSelection = (.ok none, s.consult.goTo .levelSelect) :=
      leaveForSelection_of_isOver hover
    rw [nextLevel_of_next? hover ha h.loaded]
    cases hnext : index.next? a.level.id with
    | none =>
      simp only [hleave]
      exact ⟨trivial, rfl⟩
    | some following =>
      obtain ⟨hmem, hleast⟩ := hindex.next?_eq_some.mp hnext
      obtain ⟨b, hunlocked, hiff⟩ := isUnlocked_iff hindex h (LevelIndex.id_mem_ids hmem)
      have hb : b = false := by
        cases b with
        | false => rfl
        | true => exact absurd (hiff.mp rfl) (hnone following.id hleast)
      simp only [hunlocked, hb, hleave]
      exact ⟨trivial, rfl⟩

/-- **The lock on levels is exact.** With a catalog that has been read from files and a store that
holds nothing at first, a level can be picked at any moment of what players do exactly if it is the
first one, or the level with the greatest id below it has been completed. The next level is entered
under the same condition. What can be selected stays so. -/
theorem locksExactly_performAll {files : List LevelFile} {index : LevelIndex}
    (hread : LevelFile.readInto [] (LevelFile.candidates files) = .ok index) {catalog : Catalog}
    (hloaded : catalog.index = .ok index) {store : Store} (hstore : store.Shows .empty)
    (clock : Clock) (limit : Option Int) (speed : Speed) :
    let s := fresh catalog store clock limit speed
    (∀ deeds : List Deed, (∀ d ∈ deeds, d.isPlayers = true ∧ d.namesExactly = true) →
      (s.follow deeds).LocksExactly index (s.outcomes deeds) ∧
      ∀ more id, Selectable index (s.outcomes deeds) id →
        Selectable index (s.outcomes (deeds ++ more)) id) ∧
    ∀ requests : List Request, Request.arePlayers requests = true →
      (∀ d ∈ deedsAll requests s, d.namesExactly = true) →
      s.follow (deedsAll requests s) = (performAll requests s).2 ∧
      ∀ moment, moment <+: deedsAll requests s →
        (s.follow moment).LocksExactly index (s.outcomes moment) := by
  intro s
  have hindex := LevelIndex.ordered_readInto LevelIndex.ordered_nil hread
  have hfresh : s.Gated index [] := gated_fresh hloaded hstore clock limit speed
  have hlock : ∀ deeds : List Deed, (∀ d ∈ deeds, d.isPlayers = true ∧ d.namesExactly = true) →
      (s.follow deeds).LocksExactly index (s.outcomes deeds) := fun deeds hp =>
    locksExactly_of_gated hindex (gated_follow hindex hfresh hp)
  refine ⟨fun deeds hp => ⟨hlock deeds hp, fun more id hid => ?_⟩, fun requests hp hexact =>
    ⟨follow_deedsAll requests s, fun moment hm => hlock moment fun d hd => ⟨?_, ?_⟩⟩⟩
  · rw [outcomes_append]
    exact hid.append _
  · exact isPlayers_of_mem_deedsAll hp (hm.subset hd)
  · exact hexact d (hm.subset hd)

end Session

/-! ## A sample -/

/-- A level with the goal next to the start, under some id. -/
def hopFile (id : Int) : Json :=
  .obj [("id", .int id), ("name", .str "Hop"), ("available_commands", .arr [.str "move_forward"]),
    ("max_blocks", .int 2), ("layout", .arr [.str "SG"])]

/-- The level that is written down there. -/
def hop (id : Int) : Level :=
  { id, name := "Hop", chapter := 1, chapterName := "", description := ""
    difficulty := .beginner, size := ⟨1, 2⟩
    tiles := [.plain "t-0-0" .start ⟨0, 0⟩, .plain "t-0-1" .goal ⟨0, 1⟩]
    start := ⟨0, 0⟩, facing := .right, commands := [.moveForward], maxBlocks := 2
    optimalBlocks := none, goal := .reachGoal, coinsRequired := 0, gemsRequired := 0
    hints := [] }

/-- Two levels, with a gap between their ids. -/
def hopFiles : List LevelFile :=
  [⟨"late.json", .value (hopFile 4)⟩, ⟨"early.json", .value (hopFile 1)⟩]

theorem readInto_hopFiles :
    LevelFile.readInto [] (LevelFile.candidates hopFiles) = .ok [hop 1, hop 4] := by
  have hlate : "late.json".endsWith ".json" = true ∧ "late.json".startsWith "_" = false := by
    decide +kernel
  have hearly : "early.json".endsWith ".json" = true ∧ "early.json".startsWith "_" = false := by
    decide +kernel
  have horder : ¬ "late.json" ≤ "early.json" := by decide +kernel
  have hcandidates : LevelFile.candidates hopFiles =
      [⟨"early.json", .value (hopFile 1)⟩, ⟨"late.json", .value (hopFile 4)⟩] := by
    simp [LevelFile.candidates, hopFiles, LevelFile.isCandidate, hlate, hearly, horder,
      List.mergeSort]
  rw [hcandidates]
  with_unfolding_all rfl

/-- A session with these levels. -/
def hopSession : Session :=
  .fresh ⟨"levels", some hopFiles, some [hop 1, hop 4]⟩ (.memory .empty) .still none .single

/-- The later level is picked in vain, and the first one is completed. -/
def hops : List Request :=
  [.act .openLevelSelect, .act (.select (.int 4)), .act (.select (.int 1)), .act .finishCountdown,
    .act (.add (.ok .moveForward) .unnamed), .act .run, .play none []]

open Session in
/-- The later level is locked at first, and entered when the first one has been completed. -/
theorem locksExactly_hops :
    ((hopSession.follow [.act .openLevelSelect]).select (.int 4)).1 =
        .error (.levelLocked (.int 4)) ∧
      ((hopSession.follow [.act .openLevelSelect]).select (.int 3)).1 =
        .error (.noLevel (.int 3) "levels") ∧
      ∃ level ∈ [hop 1, hop 4], level.id = 4 ∧
        (performAll hops hopSession).2.nextLevel.1 = .ok (some level) := by
  have hloaded : Catalog.index ⟨"levels", some hopFiles, some [hop 1, hop 4]⟩ =
      .ok [hop 1, hop 4] := rfl
  have hempty : Store.Shows (.memory .empty) .empty := fun _ => rfl
  obtain ⟨hdeeds, hrequests⟩ :=
    locksExactly_performAll readInto_hopFiles hloaded hempty .still none .single
  obtain ⟨hend, hmoments⟩ := hrequests hops (by decide +kernel) (by decide +kernel)
  have hfirst := (hdeeds [.act .openLevelSelect] (by decide)).1
  have hlast := hmoments _ (List.prefix_refl _)
  rw [hend] at hlast
  have hpicking : (hopSession.follow [.act .openLevelSelect]).stage ∈ picking := by decide +kernel
  refine ⟨(hfirst.locks hpicking 4 (by decide) ?_).1, (hfirst.lacks hpicking 3 (by decide)).1, ?_⟩
  · rintro ⟨-, hone | ⟨before, -, o, ho, -⟩⟩
    · exact absurd hone (by decide)
    · exact absurd ho List.not_mem_nil
  · have hover : (performAll hops hopSession).2.stage.isOver = true := by decide +kernel
    have hlevel : (performAll hops hopSession).2.attempt.map (·.level.id) = some 1 := by
      decide +kernel
    have hcompleted : (hopSession.outcomes (deedsAll hops hopSession)).any
        (fun o => o.levelId == 1 && o.completed) = true := by decide +kernel
    have hleast : IsLeast (LevelIndex.above [hop 1, hop 4] 1) 4 := by
      refine ⟨⟨by decide, by decide⟩, fun i hi => ?_⟩
      have hid : i = 1 ∨ i = 4 := by simpa [LevelIndex.ids, hop] using hi.1
      have hlt : 1 < i := hi.2
      omega
    obtain ⟨a, ha, hid⟩ := Option.map_eq_some_iff.mp hlevel
    obtain ⟨o, ho, hmatch⟩ := List.any_eq_true.mp hcompleted
    obtain ⟨hone, hdone⟩ : o.levelId = 1 ∧ o.completed = true := by simpa using hmatch
    have hselectable : Selectable [hop 1, hop 4]
        (hopSession.outcomes (deedsAll hops hopSession)) 4 := by
      refine selectable_of_completed ho hdone ?_ ?_ <;> rw [hone]
      · decide
      · exact hleast
    obtain ⟨level, hmem, hsame, hok, -⟩ := hlast.goesOn hover a ha 4 (hid ▸ hleast) hselectable
    exact ⟨level, hmem, hsame, hok⟩

end RobotPuzzle
