import RobotPuzzle.Proofs.Catalog.Questions
import RobotPuzzle.Proofs.Program.Edits
import RobotPuzzle.Proofs.Session.Deed

/-!
# What a deed can do

A session's rules are about four of its parts, its scene: the stage, the attempt, the outcome of the
last run and the progress. Everything that a player's deed can do to them is listed in `Passage`,
with what the deed depends on, so that a rule is kept by every deed when it is kept by each passage.

* `Session.conclude_eq`, `Session.tick_of_ending`: what the end of a run comes to.
* `Session.leads_after`: a player's deed makes a passage, and keeps the cap and the catalog.
* `Session.follow_induction`: what holds at first and is kept by every passage holds throughout.
-/

namespace RobotPuzzle

/-- The progress after an outcome has been recorded, with the level that follows in a catalog. -/
def Store.recordIn (st : Store) (c : Catalog) (o : Outcome) : Store :=
  match c.next o.levelId with
  | .error _ => st
  | .ok following => (st.record o (following.map Level.id)).2

theorem Store.recordIn_remember (st : Store) (c : Catalog) (o : Outcome) :
    st.recordIn c.remember o = st.recordIn c o := by
  simp only [recordIn, Catalog.next_congr c.index_remember]

/-- What a session's rules are about. -/
structure Scene where
  stage : Stage
  attempt : Option Attempt
  lastOutcome : Option Outcome
  store : Store

namespace Session

/-- The scene of a session. -/
def scene (s : Session) : Scene := ⟨s.stage, s.attempt, s.lastOutcome, s.store⟩

/-- The moves that change nothing but the stage, whatever the attempt. -/
def walks : List (Stage × Stage) :=
  [(.menu, .levelSelect), (.levelSelect, .menu), (.countdown, .building), (.building, .paused),
    (.executing, .paused), (.results, .levelSelect), (.failed, .levelSelect)]

/-- The stages from which an attempt is put back to its editor. -/
def rewinding : List Stage := [.executing, .paused, .results, .failed]

/-- The stage in which a run ends. -/
def ending (o : Outcome) : Stage := if o.completed then .results else .failed

/-- The scenes that a player's deed can lead to. -/
inductive Passage (s : Session) : Scene → Prop where
  | stay : Passage s s.scene
  | walk (target : Stage) (h : (s.stage, target) ∈ walks) :
      Passage s { s.scene with stage := target }
  | begin (key : Json) (level : Level) (hstage : s.stage ∈ picking)
      (hfound : s.catalog.find key = .ok level) (hopen : s.store.isOpen key = .ok true) :
      Passage s { s.scene with
        stage := .countdown, attempt := some (.fresh level s.limit), lastOutcome := none }
  | edit (a : Attempt) (program : Program) (hstage : s.stage = .building)
      (ha : s.attempt = some a) (hlevel : program.level = a.program.level) :
      Passage s { s.scene with attempt := some { a with program } }
  /-- The program is too long to run. -/
  | refuse (a : Attempt) (hstage : s.stage = .building) (ha : s.attempt = some a)
      (hlong : Unrolled.unroll a.run.cap a.program.blocks = none) :
      Passage s { s.scene with attempt := some { a with run := a.run.reset } }
  | start (a : Attempt) (stream : List Block) (hstage : s.stage = .building)
      (ha : s.attempt = some a)
      (hstream : Unrolled.unroll a.run.cap a.program.blocks = some stream) :
      Passage s { s.scene with
        stage := .executing
        attempt := some { a with
          run := { a.run.reset with
            stream, blocksUsed := a.program.blocks.length, startedAt := some s.clock.next } }
        lastOutcome := none }
  /-- A pause ends. -/
  | resume (a : Attempt) (hstage : s.stage = .paused) (ha : s.attempt = some a) :
      Passage s { s.scene with stage := if a.run.isExhausted then .building else .executing }
  | rewind (a : Attempt) (hstage : s.stage ∈ rewinding) (ha : s.attempt = some a) :
      Passage s { s.scene with
        stage := .building, attempt := some { a with run := a.run.reset } }
  /-- A step of the run brings no outcome. -/
  | turn (a : Attempt) (hstage : s.stage = .executing) (ha : s.attempt = some a)
      (hrunning : ∀ report, (a.run.step s.clock).value = .ok report → report.outcome = none) :
      Passage s { s.scene with attempt := some { a with run := (a.run.step s.clock).run } }
  /-- A step of the run brings its outcome. -/
  | conclude (a : Attempt) (report : Report) (o : Outcome) (hstage : s.stage = .executing)
      (ha : s.attempt = some a) (hvalue : (a.run.step s.clock).value = .ok report)
      (ho : report.outcome = some o) :
      Passage s {
        stage := ending o
        attempt := some { a with run := (a.run.step s.clock).run }
        lastOutcome := some o
        store := s.store.recordIn s.catalog o }
  | reset : Passage s { s.scene with stage := .menu, attempt := none, lastOutcome := none }

/-- A session leads to another one by a passage, and the cap and the catalog stay, although the
catalog may have been read. -/
structure Leads (s s' : Session) : Prop where
  passage : Passage s s'.scene
  limit : s'.limit = s.limit
  catalog : s'.catalog = s.catalog ∨ s'.catalog = s.catalog.remember

/-! ## Moves -/

theorem leads_self (s : Session) : s.Leads s := ⟨.stay, rfl, .inl rfl⟩

/-- Where a session leads depends on the scene, the cap and the catalog alone. -/
theorem Leads.of_scene {s s' s'' : Session} (h : s.Leads s') (hs : s''.scene = s'.scene)
    (hl : s''.limit = s'.limit) (hc : s''.catalog = s'.catalog) : s.Leads s'' :=
  ⟨hs ▸ h.passage, hl.trans h.limit, hc ▸ h.catalog⟩

theorem leads_goTo {s : Session} {target : Stage} (h : (s.stage, target) ∈ walks) :
    s.Leads (s.goTo target) := ⟨.walk target h, rfl, .inl rfl⟩

/-- A move is made or refused. -/
theorem move_cases (s : Session) (target : Stage) :
    (s.move target).2 = s ∨ (s.move target).2 = s.goTo target := by
  unfold move
  split
  · exact .inr rfl
  · exact .inl rfl

theorem snd_moveAndAnswer_eq (s : Session) (target : Stage) :
    (s.moveAndAnswer target).2 = (s.move target).2 := by
  unfold moveAndAnswer
  split <;> next h => rw [h]

theorem snd_leaveForSelection_eq (s : Session) :
    s.leaveForSelection.2 = (s.move .levelSelect).2 := by
  unfold leaveForSelection
  split <;> next h => rw [h]

theorem moveFrom_cases (s : Session) (sources : List Stage) (target : Stage) :
    (s.moveFrom sources target).2 = s ∨ (s.moveFrom sources target).2 = s.goTo target := by
  unfold moveFrom
  split
  · rw [snd_moveAndAnswer_eq]
    exact s.move_cases target
  · exact .inl rfl

theorem moveAndAnswer_of_mem {s : Session} {target : Stage} (h : target ∈ s.stage.next) :
    s.moveAndAnswer target = (.ok true, s.goTo target) := by
  simp only [moveAndAnswer, move_of_mem h]

theorem snd_moveAndAnswer {s : Session} {target : Stage} (h : target ∈ s.stage.next) :
    (s.moveAndAnswer target).2 = s.goTo target :=
  congrArg Prod.snd (moveAndAnswer_of_mem h)

/-- The walks are allowed by the table of stages. -/
theorem mem_next_of_mem_walks {source target : Stage} (h : (source, target) ∈ walks) :
    target ∈ source.next := by
  cases source <;> cases target <;> revert h <;> decide

theorem leads_moveFrom {s : Session} {sources : List Stage} {target : Stage}
    (h : ∀ source ∈ sources, (source, target) ∈ walks) :
    s.Leads (s.moveFrom sources target).2 := by
  unfold moveFrom
  split
  · next hs =>
    have hw := h s.stage (by simpa using hs)
    rw [snd_moveAndAnswer (mem_next_of_mem_walks hw)]
    exact leads_goTo hw
  · exact leads_self s

/-! ## Picking a level -/

theorem leads_consult (s : Session) : s.Leads s.consult := ⟨.stay, rfl, .inr rfl⟩

theorem Passage.of_consult {s : Session} {c : Scene} (h : Passage s.consult c) : Passage s c := by
  cases h with
  | stay => exact .stay
  | walk target h => exact .walk target h
  | begin key level hstage hfound hopen =>
    exact .begin key level hstage ((s.catalog.find_remember key).symm.trans hfound) hopen
  | edit a program hstage ha hlevel => exact .edit a program hstage ha hlevel
  | refuse a hstage ha hlong => exact .refuse a hstage ha hlong
  | start a stream hstage ha hstream => exact .start a stream hstage ha hstream
  | resume a hstage ha => exact .resume a hstage ha
  | rewind a hstage ha => exact .rewind a hstage ha
  | turn a hstage ha hrunning => exact .turn a hstage ha hrunning
  | conclude a report o hstage ha hvalue ho =>
    have hstore : s.consult.store.recordIn s.consult.catalog o = s.store.recordIn s.catalog o :=
      s.store.recordIn_remember s.catalog o
    rw [hstore]
    exact .conclude a report o hstage ha hvalue ho
  | reset => exact .reset

/-- Where a session leads that has asked its catalog something, it led before. -/
theorem leads_of_consult {s s' : Session} (h : s.consult.Leads s') : s.Leads s' := by
  refine ⟨h.passage.of_consult, h.limit, .inr ?_⟩
  rcases h.catalog with hc | hc
  · exact hc
  · exact hc.trans s.catalog.remember_remember

theorem countdown_mem_next {stage : Stage} (h : stage ∈ picking) : .countdown ∈ stage.next := by
  cases stage <;> revert h <;> decide

theorem leads_enterLevel {s : Session} {key : Json} {level : Level} (hstage : s.stage ∈ picking)
    (hfound : s.catalog.find key = .ok level) (hopen : s.store.isOpen key = .ok true) :
    s.Leads (s.enterLevel level).2 := by
  have hmove : (s.begin level).move .countdown = (.ok (), (s.begin level).goTo .countdown) :=
    move_of_mem (countdown_mem_next hstage)
  simp only [enterLevel, hmove]
  exact ⟨.begin key level hstage hfound hopen, rfl, .inl rfl⟩

theorem leads_select (s : Session) (key : Json) : s.Leads (s.select key).2 := by
  unfold select
  split
  · next hs =>
    have hstage : s.stage ∈ picking := by simpa using hs
    split
    · exact leads_consult s
    · next level hfound =>
      refine leads_of_consult ?_
      simp only
      split
      · exact leads_self _
      · exact (leads_self _).of_scene rfl rfl rfl
      · next hopen =>
        exact leads_enterLevel hstage ((s.catalog.find_remember key).trans hfound) hopen
  · exact leads_self s

theorem levelSelect_mem_next {stage : Stage} (h : stage.isOver = true) :
    (stage, .levelSelect) ∈ walks := by
  cases stage <;> revert h <;> decide

theorem leads_leaveForSelection {s : Session} (h : s.stage.isOver = true) :
    s.Leads s.leaveForSelection.2 := by
  have hw := levelSelect_mem_next h
  simp only [leaveForSelection, move_of_mem (mem_next_of_mem_walks hw)]
  exact leads_goTo hw

/-- Outside of the stages that end a run, no level follows. -/
theorem nextLevel_of_not_over {s : Session} (h : s.stage.isOver = false) :
    s.nextLevel = (.ok none, s) := by
  unfold nextLevel
  split
  · rfl
  · rw [h]
    rfl

theorem leads_nextLevel (s : Session) : s.Leads s.nextLevel.2 := by
  unfold nextLevel
  split
  · exact leads_self s
  · split
    · next hover =>
      split
      · exact leads_consult s
      · exact leads_of_consult (leads_leaveForSelection hover)
      · next following _ =>
        refine leads_of_consult ?_
        have hselect := leads_select s.consult (.int following.id)
        simp only
        split
        · exact leads_self _
        · exact leads_leaveForSelection hover
        · split <;> next h => rw [h] at hselect; exact hselect
    · exact leads_self s

/-! ## Editing -/

theorem editing?_eq_some {s : Session} {a : Attempt} (h : s.editing? = some a) :
    s.stage = .building ∧ s.attempt = some a := by
  unfold editing? at h
  split at h
  · next hs => exact ⟨hs, h⟩
  · cases h

theorem leads_withProgram {s : Session} {a : Attempt} (h : s.editing? = some a) {program : Program}
    (hlevel : program.level = a.program.level) : s.Leads (s.withProgram a program) := by
  obtain ⟨hstage, ha⟩ := editing?_eq_some h
  exact ⟨.edit a program hstage ha hlevel, rfl, .inl rfl⟩

theorem leads_edit (s : Session) {f : Program → Except Fault (Bool × Program)}
    (hf : ∀ p r, f p = .ok r → r.2.level = p.level) : s.Leads (s.edit f).2 := by
  unfold edit
  split
  · exact leads_self s
  · next a ha =>
    split
    · exact leads_self s
    · next h => exact leads_withProgram ha (hf _ _ h)

theorem leads_add (s : Session) (command : Except Fault Command) (spot : Spot) :
    s.Leads (s.add command spot).2 := by
  unfold add
  split
  · exact leads_self s
  · next a ha =>
    cases command with
    | error fault => exact leads_self s
    | ok command =>
      simp only [addTo]
      split
      · exact (leads_self s).of_scene rfl rfl rfl
      · next h => exact (leads_withProgram ha (Program.level_add h)).of_scene rfl rfl rfl
      · next h => exact (leads_withProgram ha (Program.level_add h)).of_scene rfl rfl rfl

/-! ## Running -/

theorem leads_setSpeed (s : Session) (speed : Except Fault Speed) :
    s.Leads (s.setSpeed speed).2 := by
  cases speed with
  | error fault => exact leads_self s
  | ok speed => exact (leads_self s).of_scene rfl rfl rfl

theorem leads_beginPlay (s : Session) (speed : Option (Except Fault Speed)) :
    s.Leads (s.beginPlay speed).2 := by
  rcases speed with _ | fault | speed
  · exact (leads_self s).of_scene rfl rfl rfl
  · exact leads_self s
  · exact (leads_self s).of_scene rfl rfl rfl

theorem leads_startRun {s : Session} {a : Attempt} (h : s.editing? = some a) :
    s.Leads (s.startRun a).2 := by
  obtain ⟨hstage, ha⟩ := editing?_eq_some h
  unfold startRun
  cases hu : Unrolled.unroll a.run.cap a.program.blocks with
  | none =>
    simp only [Run.start, hu]
    exact ⟨.refuse a hstage ha hu, rfl, .inl rfl⟩
  | some stream =>
    simp only [Run.start, hu]
    rw [snd_moveAndAnswer]
    · exact ⟨.start a stream hstage ha hu, rfl, .inl rfl⟩
    · show Stage.executing ∈ s.stage.next
      rw [hstage]
      decide

theorem leads_run (s : Session) : s.Leads s.run.2 := by
  unfold run
  split
  · exact leads_self s
  · next a ha =>
    split
    · exact (leads_self s).of_scene rfl rfl rfl
    · exact leads_startRun ha

theorem afterTurn_eq (s : Session) (a : Attempt) (turn : Turn Report) :
    ∃ journal, s.afterTurn a turn = { s.withRun a turn.run with clock := turn.clock, journal } := by
  unfold afterTurn
  split <;> exact ⟨_, rfl⟩

theorem tellStep_eq (s : Session) (report : Report) :
    ∃ message, s.tellStep report = { s with message } := by
  unfold tellStep
  repeat' split
  all_goals exact ⟨_, rfl⟩

theorem tellOutcome_eq (s : Session) (o : Outcome) :
    ∃ message, s.tellOutcome o = { s with message } := by
  unfold tellOutcome
  split <;> exact ⟨_, rfl⟩

theorem logOutcome_eq (s : Session) (o : Outcome) :
    ∃ journal, s.logOutcome o = { s with journal } := by
  unfold logOutcome
  split <;> exact ⟨_, rfl⟩

theorem snd_recordOutcome (s : Session) (o : Outcome) :
    (s.recordOutcome o).2 = { s.consult with store := s.store.recordIn s.catalog o } := by
  unfold recordOutcome Store.recordIn
  cases s.catalog.next o.levelId <;> rfl

theorem isOver_ending (o : Outcome) : (ending o).isOver = true := by
  unfold ending
  split <;> rfl

theorem ending_mem_next (o : Outcome) : ending o ∈ Stage.executing.next := by
  unfold ending
  split <;> decide

/-- A run that ends goes to the stage for its outcome, which is logged and recorded. -/
theorem conclude_eq {s : Session} (h : s.stage = .executing) (o : Outcome) :
    ∃ message, s.conclude o =
      (({ s with lastOutcome := some o, message }.goTo (ending o)).logOutcome o).recordOutcome o := by
  obtain ⟨message, hm⟩ := tellOutcome_eq { s with lastOutcome := some o } o
  have hmove : { s with lastOutcome := some o, message }.move (ending o) =
      (.ok (), { s with lastOutcome := some o, message }.goTo (ending o)) :=
    move_of_mem (show ending o ∈ s.stage.next from h ▸ ending_mem_next o)
  refine ⟨message, ?_⟩
  unfold conclude
  rw [hm, ← ending]
  simp only [hmove]

theorem snd_conclude {s : Session} (h : s.stage = .executing) (o : Outcome) :
    ∃ message journal, (s.conclude o).2 =
      { s.consult with
        stage := ending o, lastOutcome := some o, store := s.store.recordIn s.catalog o
        message, journal } := by
  obtain ⟨message, hconclude⟩ := conclude_eq h o
  obtain ⟨journal, hj⟩ :=
    logOutcome_eq ({ s with lastOutcome := some o, message }.goTo (ending o)) o
  refine ⟨message, journal, ?_⟩
  rw [hconclude, hj, snd_recordOutcome]
  rfl

/-! ## Ticks -/

section Ticks

variable {s : Session} {a : Attempt} {step : Option Step}

/-- A tick is refused, or there is a run that is on. -/
theorem tick_cases (s : Session) :
    s.tick = (.ok none, s) ∨ ∃ a, s.stage = .executing ∧ s.attempt = some a := by
  unfold tick
  split
  · next a hs ha => exact .inr ⟨a, hs, ha⟩
  · exact .inl rfl

theorem tick_of_fault (hs : s.stage = .executing) (ha : s.attempt = some a) {fault : Fault}
    (hvalue : (a.run.step s.clock).value = .error fault) :
    s.tick = (.error fault, s.afterTurn a (a.run.step s.clock)) := by
  unfold tick
  rw [hs, ha]
  simp only [hvalue]

/-- A tick whose step brings no outcome. -/
theorem tick_of_running (hs : s.stage = .executing) (ha : s.attempt = some a)
    (hvalue : (a.run.step s.clock).value = .ok ⟨step, none⟩) :
    s.tick = (.ok (some ⟨step, none⟩),
      (s.afterTurn a (a.run.step s.clock)).tellStep ⟨step, none⟩) := by
  unfold tick
  rw [hs, ha]
  simp only [hvalue]

/-- A tick whose step brings an outcome ends the run. -/
theorem tick_of_ending (hs : s.stage = .executing) (ha : s.attempt = some a) {o : Outcome}
    (hvalue : (a.run.step s.clock).value = .ok ⟨step, some o⟩) :
    let told := (s.afterTurn a (a.run.step s.clock)).tellStep ⟨step, some o⟩
    s.tick = ((told.conclude o).1.map fun _ => some ⟨step, some o⟩, (told.conclude o).2) := by
  intro told
  unfold tick
  rw [hs, ha]
  simp only [hvalue]
  rcases told.conclude o with ⟨fault | ⟨⟩, s'⟩ <;> rfl

theorem told_eq (s : Session) (a : Attempt) (turn : Turn Report) (report : Report) :
    ∃ journal message, (s.afterTurn a turn).tellStep report =
      { s.withRun a turn.run with clock := turn.clock, journal, message } := by
  obtain ⟨journal, hturn⟩ := s.afterTurn_eq a turn
  obtain ⟨message, htold⟩ :=
    tellStep_eq { s.withRun a turn.run with clock := turn.clock, journal } report
  exact ⟨journal, message, by rw [hturn, htold]⟩

end Ticks

theorem leads_tick (s : Session) : s.Leads s.tick.2 := by
  rcases s.tick_cases with h | ⟨a, hs, ha⟩
  · rw [h]
    exact leads_self s
  · rcases hvalue : (a.run.step s.clock).value with fault | ⟨step, _ | o⟩
    · obtain ⟨journal, hturn⟩ := s.afterTurn_eq a (a.run.step s.clock)
      rw [tick_of_fault hs ha hvalue, hturn]
      exact ⟨.turn a hs ha (fun report h => by simp [hvalue] at h), rfl, .inl rfl⟩
    · obtain ⟨journal, message, htold⟩ := s.told_eq a (a.run.step s.clock) ⟨step, none⟩
      have hrunning : ∀ r, (a.run.step s.clock).value = .ok r → r.outcome = none := fun r h =>
        Except.ok.inj (hvalue.symm.trans h) ▸ rfl
      rw [tick_of_running hs ha hvalue, htold]
      exact ⟨.turn a hs ha hrunning, rfl, .inl rfl⟩
    · obtain ⟨journal, message, htold⟩ := s.told_eq a (a.run.step s.clock) ⟨step, some o⟩
      let told : Session := { s.withRun a (a.run.step s.clock).run with
        clock := (a.run.step s.clock).clock, journal, message }
      obtain ⟨message', journal', hconclude⟩ := snd_conclude (s := told) hs o
      rw [tick_of_ending hs ha hvalue, htold, hconclude]
      exact ⟨.conclude a _ o hs ha hvalue rfl, rfl, .inr rfl⟩

/-! ## Leaving a run and going on with it -/

theorem paused_mem_walks {stage : Stage} (h : stage = .building ∨ stage = .executing) :
    (stage, .paused) ∈ walks := by
  rcases h with rfl | rfl <;> decide

theorem pause_eq {s : Session} (h : s.stage = .building ∨ s.stage = .executing) :
    s.pause = (.ok true, s.retire.goTo .paused) := by
  have hnext : .paused ∈ s.retire.stage.next := mem_next_of_mem_walks (paused_mem_walks h)
  unfold pause
  rw [if_pos (by simpa using h)]
  exact moveAndAnswer_of_mem hnext

/-- A pause is refused, or made from the editor or from a run that is on. -/
theorem pause_cases (s : Session) :
    s.pause = (.ok false, s) ∨ (s.stage = .building ∨ s.stage = .executing) ∧
      s.pause = (.ok true, s.retire.goTo .paused) := by
  by_cases h : s.stage = .building ∨ s.stage = .executing
  · exact .inr ⟨h, pause_eq h⟩
  · exact .inl (if_neg (by simpa using h))

theorem resumed_mem_next {s : Session} (hs : s.stage = .paused) (a : Attempt) :
    (if a.run.isExhausted then .building else .executing) ∈ s.stage.next := by
  rw [hs]
  cases a.run.isExhausted <;> decide

theorem resume_eq {s : Session} {a : Attempt} (hs : s.stage = .paused) (ha : s.attempt = some a) :
    s.resume = (.ok true, s.goTo (if a.run.isExhausted then .building else .executing)) := by
  have hnext := resumed_mem_next hs a
  unfold resume
  rw [hs, ha]
  exact moveAndAnswer_of_mem hnext

/-- The end of a pause is refused, or leads to the editor or back to the run. -/
theorem resume_cases (s : Session) :
    s.resume = (.ok false, s) ∨ ∃ a, s.stage = .paused ∧ s.attempt = some a ∧
      s.resume = (.ok true, s.goTo (if a.run.isExhausted then .building else .executing)) := by
  unfold resume
  split
  · next a hs ha => exact .inr ⟨a, hs, ha, moveAndAnswer_of_mem (resumed_mem_next hs a)⟩
  · exact .inl rfl

theorem attempt_resume (s : Session) : s.resume.2.attempt = s.attempt := by
  rcases s.resume_cases with h | ⟨a, -, -, h⟩ <;> rw [h]
  rfl

theorem building_mem_next {stage : Stage} (h : stage ∈ rewinding) : .building ∈ stage.next := by
  cases stage <;> revert h <;> decide

theorem mem_rewinding_of_on {stage : Stage} (h : stage = .executing ∨ stage = .paused) :
    stage ∈ rewinding := by
  rcases h with rfl | rfl <;> decide

theorem mem_rewinding_of_isOver {stage : Stage} (h : stage.isOver = true) : stage ∈ rewinding := by
  cases stage <;> revert h <;> decide

theorem stop_eq {s : Session} {a : Attempt} (hs : s.stage = .executing ∨ s.stage = .paused)
    (ha : s.attempt = some a) :
    s.stop = (.ok true, (s.retire.withRun a a.run.reset).goTo .building) := by
  have hnext : .building ∈ (s.retire.withRun a a.run.reset).stage.next :=
    building_mem_next (mem_rewinding_of_on hs)
  unfold stop
  rw [ha]
  dsimp only
  rw [if_pos (by simpa using hs)]
  exact moveAndAnswer_of_mem hnext

/-- A stop is refused, or puts an attempt back to its editor whose run is on or paused. -/
theorem stop_cases (s : Session) :
    s.stop = (.ok false, s) ∨
      ∃ a, (s.stage = .executing ∨ s.stage = .paused) ∧ s.attempt = some a ∧
        s.stop = (.ok true, (s.retire.withRun a a.run.reset).goTo .building) := by
  cases ha : s.attempt with
  | none => exact .inl (by simp [stop, ha])
  | some a =>
    by_cases hs : s.stage = .executing ∨ s.stage = .paused
    · exact .inr ⟨a, hs, rfl, stop_eq hs ha⟩
    · refine .inl ?_
      unfold stop
      rw [ha]
      exact if_neg (by simpa using hs)

theorem retry_eq {s : Session} {a : Attempt} (hs : s.stage.isOver = true)
    (ha : s.attempt = some a) :
    s.retry = (.ok true, { s.withRun a a.run.reset with message := "" }.goTo .building) := by
  have hnext : .building ∈ { s.withRun a a.run.reset with message := "" }.stage.next :=
    building_mem_next (mem_rewinding_of_isOver hs)
  unfold retry
  rw [ha]
  dsimp only
  rw [if_pos hs]
  exact moveAndAnswer_of_mem hnext

/-- A retry is refused, or puts an attempt back to its editor whose run is over. -/
theorem retry_cases (s : Session) :
    s.retry = (.ok false, s) ∨ ∃ a, s.stage.isOver = true ∧ s.attempt = some a ∧
      s.retry = (.ok true, { s.withRun a a.run.reset with message := "" }.goTo .building) := by
  cases ha : s.attempt with
  | none => exact .inl (by simp [retry, ha])
  | some a =>
    by_cases hs : s.stage.isOver = true
    · exact .inr ⟨a, hs, rfl, retry_eq hs ha⟩
    · refine .inl ?_
      unfold retry
      rw [ha]
      exact if_neg hs

theorem leads_pause (s : Session) : s.Leads s.pause.2 := by
  rcases s.pause_cases with h | ⟨hs, h⟩ <;> rw [h]
  · exact leads_self s
  · exact ⟨.walk .paused (paused_mem_walks hs), rfl, .inl rfl⟩

theorem leads_resume (s : Session) : s.Leads s.resume.2 := by
  rcases s.resume_cases with h | ⟨a, hs, ha, h⟩ <;> rw [h]
  · exact leads_self s
  · exact ⟨.resume a hs ha, rfl, .inl rfl⟩

theorem leads_stop (s : Session) : s.Leads s.stop.2 := by
  rcases s.stop_cases with h | ⟨a, hs, ha, h⟩ <;> rw [h]
  · exact leads_self s
  · exact ⟨.rewind a (mem_rewinding_of_on hs) ha, rfl, .inl rfl⟩

theorem leads_retry (s : Session) : s.Leads s.retry.2 := by
  rcases s.retry_cases with h | ⟨a, hs, ha, h⟩ <;> rw [h]
  · exact leads_self s
  · exact ⟨.rewind a (mem_rewinding_of_isOver hs) ha, rfl, .inl rfl⟩

/-! ## Going back to the menu -/

theorem leads_reset (s : Session) : s.Leads s.reset := by
  unfold reset
  simp only
  split
  · next h =>
    refine ⟨?_, rfl, .inl rfl⟩
    have hmenu : s.stage = .menu := h
    have hscene : scene { s.retire with attempt := none, lastOutcome := none, message := "" } =
        { s.scene with stage := .menu, attempt := none, lastOutcome := none } := by
      simp [scene, retire, hmenu]
    rw [hscene]
    exact .reset
  · exact ⟨.reset, rfl, .inl rfl⟩

theorem stage_reset (s : Session) : s.reset.stage = .menu := by
  unfold reset
  simp only
  split
  · next h => exact h
  · rfl

/-! ## All deeds -/

/-- **A player's deed makes a passage**, and keeps the cap and the catalog. -/
theorem leads_after {d : Deed} (h : d.isPlayers = true) (s : Session) : s.Leads (s.after d) := by
  cases d with
  | beginPlay speed => exact leads_beginPlay s speed
  | sleep millis => exact (leads_self s).of_scene rfl rfl rfl
  | act a =>
    cases a with
    | openLevelSelect => exact leads_moveFrom (by decide)
    | backToMenu => exact leads_moveFrom (by decide)
    | select key => exact leads_select s key
    | finishCountdown => exact leads_moveFrom (by decide)
    | add command spot => exact leads_add s command spot
    | remove id =>
      exact leads_edit s fun p r h => Except.ok.inj h ▸ p.level_remove id
    | moveBlock id spot => exact leads_edit s fun p r h => Program.level_move h
    | setRepeats id count => exact leads_edit s fun p r h => Program.level_setRepeats h
    | clearProgram => exact leads_edit s fun p r h => Except.ok.inj h ▸ rfl
    | setSpeed speed => exact leads_setSpeed s speed
    | run => exact leads_run s
    | tick => exact leads_tick s
    | pause => exact leads_pause s
    | resume => exact leads_resume s
    | stop => exact leads_stop s
    | retry => exact leads_retry s
    | nextLevel => exact leads_nextLevel s
    | quitToLevelSelect => exact leads_moveFrom (by decide)
    | reset => exact leads_reset s
    | transition target => cases h
    | saveProgress record => cases h
    | world | history | progress | isOpen | totalStars => exact leads_self s

theorem Leads.index {s s' : Session} (h : s.Leads s') : s'.catalog.index = s.catalog.index := by
  rcases h.catalog with hc | hc
  · rw [hc]
  · rw [hc, Catalog.index_remember]

/-- What holds of runs that have not begun, and is kept by a step, is kept by what a session leads
to. -/
theorem run_of_leads {P : Run → Prop} {s s' : Session}
    (hnew : ∀ r, r.history = [] → r.cursor = 0 → r.world = r.level.initialWorld → P r)
    (hstep : ∀ r clock, P r → P (r.step clock).run)
    (hs : ∀ a, s.attempt = some a → P a.run) (h : s.Leads s') :
    ∀ a, s'.attempt = some a → P a.run := by
  have hpassage := h.passage
  have hscene : s'.attempt = s'.scene.attempt := rfl
  rw [hscene]
  generalize s'.scene = c at hpassage ⊢
  intro b hb
  cases hpassage with
  | stay | walk | resume => exact hs b hb
  | begin | refuse | start | rewind =>
    cases hb
    exact hnew _ rfl rfl rfl
  | edit a program hstage ha =>
    cases hb
    exact hs a ha
  | turn a hstage ha | conclude a report o hstage ha =>
    cases hb
    exact hstep _ _ (hs a ha)
  | reset => cases hb

/-- What holds at first and is kept by players' deeds holds throughout. -/
theorem follow_induction {P : Session → Prop} {s : Session} (h : P s)
    (hstep : ∀ s s', P s → s.Leads s' → P s') {deeds : List Deed}
    (hp : ∀ d ∈ deeds, d.isPlayers = true) : P (s.follow deeds) := by
  induction deeds generalizing s with
  | nil => exact h
  | cons d rest ih =>
    exact ih (hstep s _ h (leads_after (hp d List.mem_cons_self) s))
      fun d' hd => hp d' (List.mem_cons_of_mem d hd)

end Session

end RobotPuzzle
