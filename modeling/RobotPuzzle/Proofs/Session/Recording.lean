import RobotPuzzle.Proofs.Progress.Summary
import RobotPuzzle.Proofs.Session.Coherence

/-!
# What a session records

A session records the outcome of a run when the run ends, once, and nothing else: the store is the
one that it began with, with the outcomes recorded in turn with which it came to the results or
failed. No other deed touches it.

* `Scene.store_of_passage`: what a passage records.
* `Session.keepsBooks_follow`: what any order of players' deeds records.
* `Session.keepsBooks_performAll`: what requests record, from a fresh session.
-/

namespace RobotPuzzle

theorem Store.recordIn_of_index {c : Catalog} {index : LevelIndex} (h : c.index = .ok index)
    (st : Store) (o : Outcome) : st.recordIn c o = st.recordAll c.following [o] := by
  simp only [recordIn, recordAll, Catalog.following, Catalog.next, h, List.foldl_cons,
    List.foldl_nil]
  rfl

namespace Scene

/-- The level of the attempt is one of a catalog's. -/
def Listed (c : Scene) (catalog : Catalog) : Prop :=
  ∀ a, c.attempt = some a → ∃ index, catalog.index = .ok index ∧ a.level ∈ index

/-- The outcome with which the results or the stage for failed runs are entered, if they are. -/
def entered? (before after : Scene) : Option Outcome :=
  if before.stage.isOver = false ∧ after.stage.isOver = true then after.lastOutcome else none

theorem entered?_eq_none {before after : Scene} (h : after.stage.isOver = false) :
    before.entered? after = none := by
  simp [entered?, h]

theorem entered?_of_stage {before after : Scene} (h : after.stage = before.stage) :
    before.entered? after = none := by
  simp [entered?, h]

theorem entered?_ending {before after : Scene} {o : Outcome} (hb : before.stage = .executing)
    (ha : after.stage = Session.ending o) (ho : after.lastOutcome = some o) :
    before.entered? after = some o := by
  rw [entered?, hb, ha, Session.isOver_ending, if_pos ⟨rfl, rfl⟩, ho]

open Session

/-- Every passage keeps the level in the catalog. -/
theorem listed_of_passage {s : Session} {c : Scene} (h : Passage s c)
    (hs : s.scene.Listed s.catalog) : c.Listed s.catalog := by
  cases h with
  | stay | walk | resume => exact hs
  | begin key level hstage hfound hopen =>
    intro a ha
    cases ha
    exact Catalog.mem_of_find hfound
  | edit a program hstage ha hlevel =>
    intro b hb
    cases hb
    have hlisted := hs a ha
    rwa [Attempt.level, ← hlevel] at hlisted
  | refuse a hstage ha | start a stream hstage ha | rewind a hstage ha | turn a hstage ha
  | conclude a report o hstage ha =>
    intro b hb
    cases hb
    exact hs a ha
  | reset =>
    intro b hb
    cases hb

/-- A passage records the outcome with which a run ends, if it ends there, and nothing else. -/
theorem store_of_passage {s : Session} {c : Scene} (h : Passage s c)
    (hs : s.scene.Listed s.catalog) :
    c.store = s.store.recordAll s.catalog.following (s.scene.entered? c).toList := by
  have hquiet : s.scene.entered? c = none → c.store = s.store →
      c.store = s.store.recordAll s.catalog.following (s.scene.entered? c).toList :=
    fun hnone hstore => by rw [hnone]; exact hstore
  cases h with
  | stay | edit | refuse | turn => exact hquiet (entered?_of_stage rfl) rfl
  | walk target h =>
    have htarget : ∀ move ∈ walks, move.2.isOver = false := by decide
    exact hquiet (entered?_eq_none (htarget _ h)) rfl
  | resume a hstage ha =>
    refine hquiet (entered?_eq_none ?_) rfl
    show Stage.isOver (if a.run.isExhausted then .building else .executing) = false
    split <;> rfl
  | begin | start | rewind | reset => exact hquiet (entered?_eq_none rfl) rfl
  | conclude a report o hstage ha hvalue ho =>
    obtain ⟨index, hindex, -⟩ := hs a ha
    rw [entered?_ending hstage rfl rfl]
    exact s.store.recordIn_of_index hindex o

/-- The outcome that a run ends with is rated. -/
theorem rated_of_entered? {before after : Scene} {limit : Option Int} (h : after.Coherent limit)
    {o : Outcome} (ho : before.entered? after = some o) : o.Rated := by
  unfold entered? at ho
  split at ho
  · next hstage =>
    obtain ⟨a, o', -, hlast, hended⟩ := h.ended hstage.2
    cases ho.symm.trans hlast
    exact hended.reports.toRated
  · cases ho

end Scene

namespace Session

/-- The outcomes of the runs that end while deeds are done. -/
def outcomes (s : Session) : List Deed → List Outcome
  | [] => []
  | d :: rest => (s.scene.entered? (s.after d).scene).toList ++ (s.after d).outcomes rest

/-- A session is in order: its parts fit together, and its level is one of its catalog's. -/
structure Orderly (s : Session) : Prop where
  coherent : s.Coherent
  listed : s.scene.Listed s.catalog

theorem orderly_fresh (catalog : Catalog) (store : Store) (clock : Clock) (limit : Option Int)
    (speed : Speed) : (fresh catalog store clock limit speed).Orderly :=
  ⟨coherent_fresh catalog store clock limit speed, fun a h => by cases h⟩

theorem orderly_of_leads {s s' : Session} (hs : s.Orderly) (h : s.Leads s') : s'.Orderly := by
  refine ⟨coherent_of_leads hs.coherent h, fun a ha => ?_⟩
  rw [h.index]
  exact Scene.listed_of_passage h.passage hs.listed a ha

/-- What the store of a session has come to when deeds have been done, from a store that showed
`ledger`. -/
structure KeepsBooks (s : Session) (ledger : Records) (deeds : List Deed) : Prop where
  /-- The outcomes of the runs that ended have been recorded in turn, and nothing else. -/
  store : (s.follow deeds).store = s.store.recordAll s.catalog.following (s.outcomes deeds)
  shows : (s.follow deeds).store.Shows (ledger.recordAll s.catalog.following (s.outcomes deeds))
  /-- A level has been played once more for each of its runs that ended. -/
  timesPlayed : ∀ id, ∃ n, s.store.timesPlayed id = .ok n ∧
    (s.follow deeds).store.timesPlayed id =
      .ok (n + (s.outcomes deeds).countP (·.levelId = id))
  /-- A deed that ends a run records the outcome of the run. -/
  records : ∀ d : Deed, d.isPlayers = true →
    (s.follow deeds).stage.isOver = false → ((s.follow deeds).after d).stage.isOver = true →
    ∃ a o, ((s.follow deeds).after d).attempt = some a ∧ a.Ended o ∧
      ((s.follow deeds).after d).lastOutcome = some o ∧
      ((s.follow deeds).after d).store =
        ((s.follow deeds).store.record o (s.catalog.following o.levelId)).2
  /-- A deed that does not end a run leaves the store alone. -/
  quiet : ∀ d : Deed, d.isPlayers = true →
    (s.follow deeds).stage.isOver = true ∨ ((s.follow deeds).after d).stage.isOver = false →
    ((s.follow deeds).after d).store = (s.follow deeds).store

theorem store_follow {s : Session} (hs : s.Orderly) {deeds : List Deed}
    (hp : ∀ d ∈ deeds, d.isPlayers = true) :
    (s.follow deeds).store = s.store.recordAll s.catalog.following (s.outcomes deeds) := by
  induction deeds generalizing s with
  | nil => rfl
  | cons d rest ih =>
    have hl := leads_after (hp d List.mem_cons_self) s
    have hrest := ih (orderly_of_leads hs hl) fun d' hd => hp d' (List.mem_cons_of_mem d hd)
    have hstep : (s.after d).store = _ := Scene.store_of_passage hl.passage hs.listed
    rw [follow_cons, hrest, Catalog.following_congr hl.index, hstep, outcomes,
      Store.recordAll_append]

theorem rated_of_mem_outcomes {s : Session} (hs : s.Orderly) {deeds : List Deed}
    (hp : ∀ d ∈ deeds, d.isPlayers = true) {o : Outcome} (ho : o ∈ s.outcomes deeds) :
    o.Rated := by
  induction deeds generalizing s with
  | nil => cases ho
  | cons d rest ih =>
    have hl := leads_after (hp d List.mem_cons_self) s
    have hs' := orderly_of_leads hs hl
    rcases List.mem_append.mp ho with ho | ho
    · exact Scene.rated_of_entered? hs'.coherent (Option.mem_toList.mp ho)
    · exact ih hs' (fun d' hd => hp d' (List.mem_cons_of_mem d hd)) ho

theorem following_follow (s : Session) {deeds : List Deed}
    (hp : ∀ d ∈ deeds, d.isPlayers = true) :
    (s.follow deeds).catalog.following = s.catalog.following := by
  refine Catalog.following_congr ?_
  exact follow_induction (P := fun s' => s'.catalog.index = s.catalog.index) rfl
    (fun _ _ h hl => hl.index.trans h) hp

theorem keepsBooks_follow {s : Session} (hs : s.Orderly) {ledger : Records}
    (hshows : s.store.Shows ledger) (hvalid : ledger.Valid) {deeds : List Deed}
    (hp : ∀ d ∈ deeds, d.isPlayers = true) : s.KeepsBooks ledger deeds := by
  have hrated : ∀ o ∈ s.outcomes deeds, o.Rated := fun o => rated_of_mem_outcomes hs hp
  have hstore := store_follow hs hp
  have hfinal : (s.follow deeds).store.Shows _ :=
    hstore ▸ Store.shows_recordAll hshows hvalid s.catalog.following hrated
  have hnow : (s.follow deeds).Orderly := follow_induction hs (fun _ _ => orderly_of_leads) hp
  have hstep : ∀ d : Deed, d.isPlayers = true → ((s.follow deeds).after d).store = _ :=
    fun d hd => Scene.store_of_passage (leads_after hd (s.follow deeds)).passage hnow.listed
  refine
    { store := hstore
      shows := hfinal
      timesPlayed := fun id => ⟨_, Store.timesPlayed_of_shows hshows id, ?_⟩
      records := fun d hd hbefore hafter => ?_
      quiet := fun d hd h => ?_ }
  · rw [Store.timesPlayed_of_shows hfinal,
      Records.timesPlayed_recordAll hvalid s.catalog.following hrated]
  · have hthen := coherent_of_leads hnow.coherent (leads_after hd (s.follow deeds))
    obtain ⟨a, o, ha, ho, hended⟩ := Scene.Coherent.ended hthen hafter
    have hentered : (s.follow deeds).scene.entered? ((s.follow deeds).after d).scene = some o :=
      (if_pos ⟨hbefore, hafter⟩).trans ho
    refine ⟨a, o, ha, hended, ho, ?_⟩
    rw [hstep d hd, hentered, following_follow s hp]
    rfl
  · have hentered : (s.follow deeds).scene.entered? ((s.follow deeds).after d).scene = none := by
      refine if_neg fun hover => ?_
      rcases h with h | h
      · exact absurd (hover.1.symm.trans h) (by decide)
      · exact absurd (h.symm.trans hover.2) (by decide)
    rw [hstep d hd, hentered]
    rfl

/-- **Every outcome is recorded exactly once**, and nothing else is. A fresh session whose store
shows records, each under its own id, keeps its books in any order of players' deeds, and at every
moment of what players' requests come to, those made during sleeps included. -/
theorem keepsBooks_performAll (catalog : Catalog) (store : Store) (clock : Clock)
    (limit : Option Int) (speed : Speed) {ledger : Records} (hshows : store.Shows ledger)
    (hvalid : ledger.Valid) :
    let s := fresh catalog store clock limit speed
    (∀ deeds : List Deed, (∀ d ∈ deeds, d.isPlayers = true) → s.KeepsBooks ledger deeds) ∧
    ∀ requests : List Request, Request.arePlayers requests = true →
      s.follow (deedsAll requests s) = (performAll requests s).2 ∧
      ∀ moment, moment <+: deedsAll requests s → s.KeepsBooks ledger moment := by
  intro s
  have hdeeds : ∀ deeds : List Deed, (∀ d ∈ deeds, d.isPlayers = true) →
      s.KeepsBooks ledger deeds := fun deeds hp =>
    keepsBooks_follow (orderly_fresh catalog store clock limit speed) hshows hvalid hp
  refine ⟨hdeeds, fun requests hp => ⟨follow_deedsAll requests s, fun moment hm => ?_⟩⟩
  exact hdeeds moment fun d hd => isPlayers_of_mem_deedsAll hp (hm.subset hd)

end Session

/-! ## A sample -/

/-- The visit to the corridor, with ticks behind its end, a second run that is stopped and a third
one that is played to its end. -/
def corridorVisits : List Request :=
  corridorVisit ++ [.act .tick, .play none [], .act .retry, .act .run, .act .tick, .act .stop,
    .act .run, .play none []]

open Session in
/-- Two of the three runs of the visits end, and the level has been played twice; a folder that was
not there counts the end of the first visit. -/
theorem keepsBooks_corridorVisits :
    (performAll corridorVisits (corridorSession (.memory .empty))).2.store.timesPlayed 1 =
        .ok 2 ∧
      (performAll corridorVisit (corridorSession (.files .absent))).2.store.timesPlayed 1 =
        .ok 1 := by
  have hplayed : ∀ (store : Store) (requests : List Request) (n : Nat), store.Shows .empty →
      Request.arePlayers requests = true →
      ((corridorSession store).outcomes
        (deedsAll requests (corridorSession store))).countP (·.levelId = 1) = n →
      (performAll requests (corridorSession store)).2.store.timesPlayed 1 = .ok n := by
    intro store requests n hshows hp hcount
    obtain ⟨hend, hparts⟩ := (keepsBooks_performAll ⟨"levels", none, some [corridor]⟩ store .still
      none .single hshows Records.valid_empty).2 requests hp
    obtain ⟨before, hbefore, hafter⟩ := (hparts _ (List.prefix_refl _)).timesPlayed 1
    have hzero : Except.ok before = Except.ok 0 :=
      hbefore.symm.trans (Store.timesPlayed_of_shows hshows 1)
    cases hzero
    rw [hend] at hafter
    rw [← hcount, ← Int.zero_add (List.countP _ _ : Int)]
    exact hafter
  exact ⟨hplayed _ _ 2 (fun _ => rfl) (by decide +kernel) (by decide +kernel),
    hplayed _ _ 1 (fun _ => rfl) (by decide +kernel) (by decide +kernel)⟩

end RobotPuzzle
