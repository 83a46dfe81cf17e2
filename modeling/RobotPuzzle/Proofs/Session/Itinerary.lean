import RobotPuzzle.Proofs.Faults
import RobotPuzzle.Proofs.Session.Coherence

/-!
# The itinerary of a session

The moves of a session, which its journal tells, lead from the menu to the stage that it is in. Each
is allowed by the table of stages, apart from a reset, which goes to the menu from anywhere; and no
deed runs into the table, for each looks at the stage first. Only a level that is picked where none
can be picked is refused as a forbidden move, and then nothing happens.

* `Session.proper_act`: an action makes one move of the table at most, and tells it.
* `Session.moves_follow`: the journal tells the moves that deeds make.
* `Session.forbidden_of_perform`: the moves that requests are refused.
* `Session.keepsToTable_performAll`: the itinerary of a fresh session.
-/

namespace RobotPuzzle

/-- Moves that lead from one stage to another, each from where the one before it went. -/
inductive Stage.Path : Stage → List (Stage × Stage) → Stage → Prop
  | here (s : Stage) : Path s [] s
  | go {s t u : Stage} {moves : List (Stage × Stage)} (h : Path t moves u) :
      Path s ((s, t) :: moves) u

theorem Stage.Path.append {s t u : Stage} {a b : List (Stage × Stage)} (h : Path s a t)
    (h' : Path t b u) : Path s (a ++ b) u := by
  induction h with
  | here s => exact h'
  | go _ ih => exact .go (ih h')

/-! ## What requests name -/

/-- The fault that an action carries in place of what it should name. -/
def Action.carried? : Action → Option Fault
  | .add (.error fault) _ | .setRepeats _ (.error fault) | .setSpeed (.error fault)
  | .transition (.error fault) | .saveProgress (.error fault) => some fault
  | _ => none

/-- The fault that a deed carries in place of what it should name. -/
def Deed.carried? : Deed → Option Fault
  | .act a => a.carried?
  | .beginPlay (some (.error fault)) => some fault
  | .beginPlay _ | .sleep _ => none

/-- The fault that a request carries in place of what it should name. -/
def Request.carried? : Request → Option Fault
  | .act a => a.carried?
  | .play (some (.error fault)) _ | .countdown (.error fault) _ => some fault
  | .play _ _ | .countdown _ _ => none

namespace Session

/-! ## Moves and journals -/

/-- The move from one session to another: none where the stage is the same, for no stage is left
for itself. -/
def change (s s' : Session) : List (Stage × Stage) :=
  if s'.stage = s.stage then [] else [(s.stage, s'.stage)]

theorem change_of_stage {s s' : Session} (h : s'.stage = s.stage) : s.change s' = [] := if_pos h

theorem path_change (s s' : Session) : Stage.Path s.stage (s.change s') s'.stage := by
  unfold change
  split
  · next h => rw [h]; exact .here _
  · exact .go (.here _)

/-- A session goes on, and its journal tells what becomes of the stage. -/
def Tells (s s' : Session) : Prop :=
  ∃ events, s'.journal = s.journal ++ events ∧ Journal.moves events = s.change s'

/-- A session goes on without a move. -/
structure Stays (s s' : Session) : Prop where
  stage : s'.stage = s.stage
  tells : s.Tells s'

/-- A session goes on with one move of the table, or none. -/
structure Moves (s s' : Session) : Prop where
  allowed : s'.stage = s.stage ∨ s'.stage ∈ s.stage.next
  tells : s.Tells s'

variable {s s' s'' : Session}

theorem stays_of_journal (hs : s'.stage = s.stage) (hj : s'.journal = s.journal) :
    s.Stays s' :=
  ⟨hs, [], hj.trans (List.append_nil _).symm, (change_of_stage hs).symm⟩

theorem stays_self (s : Session) : s.Stays s := stays_of_journal rfl rfl

/-- A single event is entered, which is no move. -/
theorem stays_of_entry {e : Event} (hs : s'.stage = s.stage) (hj : s'.journal = s.journal ++ [e])
    (he : e.move? = none) : s.Stays s' := by
  have hmoves : Journal.moves [e] = [] := by simp [Journal.moves, he]
  exact ⟨hs, [e], hj, hmoves.trans (change_of_stage hs).symm⟩

theorem stays_log (s : Session) (topic : Console.Topic) (message : Text) :
    s.Stays (s.log topic message) := stays_of_entry rfl rfl rfl

theorem Tells.trans (h : s.Tells s') (h' : s'.Tells s'')
    (hs : s.change s' ++ s'.change s'' = s.change s'') : s.Tells s'' := by
  obtain ⟨events, hj, hm⟩ := h
  obtain ⟨events', hj', hm'⟩ := h'
  refine ⟨events ++ events', ?_, ?_⟩
  · rw [hj', hj, List.append_assoc]
  · rw [Journal.moves_append, hm, hm', hs]

theorem Stays.trans (h : s.Stays s') (h' : s'.Stays s'') : s.Stays s'' := by
  have hs : s''.stage = s.stage := h'.stage.trans h.stage
  refine ⟨hs, h.tells.trans h'.tells ?_⟩
  rw [change_of_stage h.stage, change_of_stage h'.stage, change_of_stage hs]
  rfl

theorem Stays.moves (h : s.Stays s') : s.Moves s' := ⟨.inl h.stage, h.tells⟩

theorem Moves.after_stays (h : s'.Moves s'') (h' : s.Stays s') : s.Moves s'' := by
  refine ⟨h'.stage ▸ h.allowed, h'.tells.trans h.tells ?_⟩
  rw [change_of_stage h'.stage, List.nil_append]
  unfold change
  rw [h'.stage]

theorem Moves.then_stays (h : s.Moves s') (h' : s'.Stays s'') : s.Moves s'' := by
  refine ⟨h'.stage ▸ h.allowed, h.tells.trans h'.tells ?_⟩
  rw [change_of_stage h'.stage, List.append_nil]
  unfold change
  rw [h'.stage]

theorem tells_goTo {target : Stage} (h : s.stage ≠ target) : s.Tells (s.goTo target) := by
  refine ⟨[.logged .session s!"[Session] {s.stage.name} -> {target.name}",
    .moved s.stage target], ?_, ?_⟩
  · exact List.append_assoc ..
  · exact (if_neg (Ne.symm h)).symm

theorem moves_goTo {target : Stage} (h : target ∈ s.stage.next) : s.Moves (s.goTo target) := by
  refine ⟨.inr h, tells_goTo ?_⟩
  rintro rfl
  exact s.stage.not_mem_next_self h

/-! ## What actions do -/

/-- A result with one move of the table at most, and no forbidden one. -/
structure Proper {α : Type} (s : Session) (r : Result α) : Prop where
  moves : s.Moves r.2
  permitted : Permitted r.1

theorem proper_stay {α : Type} {x : Except Fault α} (hx : Permitted x) (h : s.Stays s') :
    s.Proper (x, s') := ⟨h.moves, hx⟩

theorem Proper.after_stays {α : Type} {r : Result α} (h : s'.Proper r) (h' : s.Stays s') :
    s.Proper r := ⟨h.moves.after_stays h', h.permitted⟩

theorem Proper.answer {α : Type} {r : Result α} (h : s.Proper r) (f : α → Answer) :
    s.Proper (answer f r) := ⟨h.moves, h.permitted.map f⟩

theorem proper_moveAndAnswer {target : Stage} (h : target ∈ s.stage.next) :
    s.Proper (s.moveAndAnswer target) := by
  rw [moveAndAnswer_of_mem h]
  exact ⟨moves_goTo h, permitted_ok true⟩

theorem proper_moveFrom {sources : List Stage} {target : Stage}
    (h : ∀ source ∈ sources, target ∈ source.next) : s.Proper (s.moveFrom sources target) := by
  unfold moveFrom
  split
  · next hs => exact proper_moveAndAnswer (h s.stage (by simpa using hs))
  · exact proper_stay (permitted_ok false) (stays_self s)

theorem stays_consult (s : Session) : s.Stays s.consult := stays_of_journal rfl rfl

theorem proper_enterLevel (hs : s.stage ∈ picking) (level : Level) :
    s.Proper (s.enterLevel level) := by
  have hnext : Stage.countdown ∈ (s.begin level).stage.next := countdown_mem_next hs
  simp only [enterLevel, move_of_mem hnext]
  have hmoves : s.Moves ((s.begin level).goTo .countdown) :=
    (moves_goTo hnext).after_stays (stays_of_journal rfl rfl)
  exact ⟨hmoves.then_stays (stays_log _ _ _), permitted_ok level⟩

theorem proper_select (hs : s.stage ∈ picking) (key : Json) : s.Proper (s.select key) := by
  unfold select
  rw [if_pos (by simpa using hs)]
  split
  · next fault h =>
    exact proper_stay (permitted_error (s.catalog.permitted_find key fault h)) (stays_consult s)
  · refine Proper.after_stays ?_ (stays_consult s)
    dsimp only
    split
    · next fault h =>
      exact proper_stay (permitted_error (s.store.permitted_isOpen key fault h)) (stays_self _)
    · exact proper_stay (permitted_error rfl) (stays_log _ _ _)
    · exact proper_enterLevel (s := s.consult) hs _

theorem proper_leaveForSelection (h : s.stage.isOver = true) : s.Proper s.leaveForSelection := by
  have hnext := mem_next_of_mem_walks (levelSelect_mem_next h)
  simp only [leaveForSelection, move_of_mem hnext]
  exact ⟨moves_goTo hnext, permitted_ok none⟩

theorem proper_nextLevel (s : Session) : s.Proper s.nextLevel := by
  unfold nextLevel
  split
  · exact proper_stay (permitted_ok none) (stays_self s)
  · next a _ =>
    split
    · next hover =>
      split
      · next fault h =>
        exact proper_stay (permitted_error (s.catalog.permitted_next _ fault h)) (stays_consult s)
      · exact (proper_leaveForSelection (s := s.consult) hover).after_stays (stays_consult s)
      · next following _ =>
        refine Proper.after_stays ?_ (stays_consult s)
        have hselect : s.consult.Proper (s.consult.select (.int following.id)) :=
          proper_select (by revert hover; cases hs : s.stage <;> simp [hs, consult] <;> decide) _
        dsimp only
        split
        · next fault h =>
          have hfault := s.store.permitted_isUnlocked _ fault h
          exact proper_stay (permitted_error hfault) (stays_self _)
        · exact proper_leaveForSelection hover
        · split
          · next fault s' h =>
            rw [h] at hselect
            exact ⟨hselect.moves, permitted_error (hselect.permitted fault rfl)⟩
          · next level s' h =>
            rw [h] at hselect
            exact ⟨hselect.moves, permitted_ok _⟩
    · exact proper_stay (permitted_ok none) (stays_self s)

/-! ## Editing and running -/

theorem stays_edit (s : Session) (f : Program → Except Fault (Bool × Program)) :
    s.Stays (s.edit f).2 := by
  unfold edit
  split
  · exact stays_self s
  · split <;> exact stays_of_journal rfl rfl

/-- An edit faults for the program's reasons alone. -/
theorem exists_of_edit {f : Program → Except Fault (Bool × Program)} {fault : Fault}
    (h : (s.edit f).1 = .error fault) : ∃ p, f p = .error fault := by
  unfold edit at h
  split at h
  · cases h
  · next a _ =>
    split at h
    · next hf =>
      cases h
      exact ⟨a.program, hf⟩
    · cases h

theorem proper_edit {f : Program → Except Fault (Bool × Program)} (hf : ∀ p, Permitted (f p)) :
    s.Proper (s.edit f) := by
  refine ⟨(s.stays_edit f).moves, fun fault h => ?_⟩
  obtain ⟨p, hp⟩ := exists_of_edit h
  exact hf p fault hp

theorem proper_add (command : Command) (spot : Spot) : s.Proper (s.add (.ok command) spot) := by
  unfold add
  split
  · exact proper_stay (permitted_ok none) (stays_self s)
  · next a _ =>
    simp only [addTo]
    split
    · next fault h =>
      exact proper_stay (permitted_error (Program.permitted_add _ _ _ _ fault h))
        (stays_of_journal rfl rfl)
    · exact proper_stay (permitted_ok none) (stays_of_journal rfl rfl)
    · exact proper_stay (permitted_ok _) (stays_of_journal rfl rfl)

theorem proper_run (s : Session) : s.Proper s.run := by
  unfold run
  split
  · exact proper_stay (permitted_ok false) (stays_self s)
  · next a ha =>
    obtain ⟨hstage, -⟩ := editing?_eq_some ha
    split
    · exact proper_stay (permitted_ok false) (stays_of_journal rfl rfl)
    · unfold startRun
      dsimp only
      split
      · exact proper_stay (permitted_ok false) (stays_of_entry rfl rfl rfl)
      · refine Proper.after_stays (proper_moveAndAnswer ?_) (stays_of_entry rfl rfl rfl)
        show Stage.executing ∈ s.stage.next
        rw [hstage]
        decide

theorem stays_afterTurn (a : Attempt) (turn : Turn Report) : s.Stays (s.afterTurn a turn) := by
  unfold afterTurn
  dsimp only
  split
  · exact stays_of_journal rfl rfl
  · exact stays_of_entry rfl rfl rfl

theorem stays_tellStep (report : Report) : s.Stays (s.tellStep report) := by
  obtain ⟨message, h⟩ := s.tellStep_eq report
  rw [h]
  exact stays_of_journal rfl rfl

theorem stays_logOutcome (o : Outcome) : s.Stays (s.logOutcome o) := by
  unfold logOutcome
  split <;> exact stays_log _ _ _

theorem stays_recordOutcome (o : Outcome) : s.Stays (s.recordOutcome o).2 := by
  rw [snd_recordOutcome]
  exact stays_of_journal rfl rfl

theorem permitted_recordOutcome (s : Session) (o : Outcome) : Permitted (s.recordOutcome o).1 := by
  unfold recordOutcome
  split
  · next fault h => exact permitted_error (s.catalog.permitted_next _ fault h)
  · exact (s.store.permitted_record o _).map _

theorem proper_conclude (hs : s.stage = .executing) (o : Outcome) : s.Proper (s.conclude o) := by
  obtain ⟨message, hconclude⟩ := conclude_eq hs o
  let told : Session := { s with lastOutcome := some o, message }
  have hnext : ending o ∈ told.stage.next := by
    show ending o ∈ s.stage.next
    rw [hs]
    exact ending_mem_next o
  rw [hconclude]
  have hend : s.Moves (told.goTo (ending o)) :=
    (moves_goTo hnext).after_stays (stays_of_journal rfl rfl)
  exact ⟨hend.then_stays ((stays_logOutcome o).trans (stays_recordOutcome o)),
    permitted_recordOutcome _ o⟩

theorem proper_tick (s : Session) : s.Proper s.tick := by
  rcases s.tick_cases with h | ⟨a, hs, ha⟩
  · rw [h]
    exact proper_stay (permitted_ok none) (stays_self s)
  · have hturn := stays_afterTurn (s := s) a (a.run.step s.clock)
    rcases hvalue : (a.run.step s.clock).value with fault | ⟨step, _ | o⟩
    · rw [tick_of_fault hs ha hvalue]
      exact proper_stay (permitted_error (a.run.permitted_step s.clock fault hvalue)) hturn
    · rw [tick_of_running hs ha hvalue]
      exact proper_stay (permitted_ok _) (hturn.trans (stays_tellStep _))
    · have htold := hturn.trans (stays_tellStep ⟨step, some o⟩)
      have hconclude := proper_conclude (htold.stage.trans hs) o
      rw [tick_of_ending hs ha hvalue]
      exact .after_stays ⟨hconclude.moves, hconclude.permitted.map _⟩ htold

/-- A request is granted by a move of the table, from a session in the same stage. -/
theorem proper_granted {target : Stage} (h : s.Stays s') (hnext : target ∈ s'.stage.next) :
    s.Proper (.ok true, s'.goTo target) :=
  ⟨(moves_goTo hnext).after_stays h, permitted_ok true⟩

theorem proper_refused (s : Session) : s.Proper (.ok false, s) :=
  proper_stay (permitted_ok false) (stays_self s)

theorem proper_pause (s : Session) : s.Proper s.pause := by
  rcases s.pause_cases with h | ⟨hs, h⟩ <;> rw [h]
  · exact proper_refused s
  · have hnext : .paused ∈ s.retire.stage.next := mem_next_of_mem_walks (paused_mem_walks hs)
    exact proper_granted (stays_of_journal rfl rfl) hnext

theorem proper_resume (s : Session) : s.Proper s.resume := by
  rcases s.resume_cases with h | ⟨a, hs, -, h⟩ <;> rw [h]
  · exact proper_refused s
  · exact proper_granted (stays_self s) (resumed_mem_next hs a)

theorem proper_stop (s : Session) : s.Proper s.stop := by
  rcases s.stop_cases with h | ⟨a, hs, -, h⟩ <;> rw [h]
  · exact proper_refused s
  · have hnext : .building ∈ (s.retire.withRun a a.run.reset).stage.next :=
      building_mem_next (mem_rewinding_of_on hs)
    exact proper_granted (stays_of_journal rfl rfl) hnext

theorem proper_retry (s : Session) : s.Proper s.retry := by
  rcases s.retry_cases with h | ⟨a, hs, -, h⟩ <;> rw [h]
  · exact proper_refused s
  · have hnext : .building ∈ { s.withRun a a.run.reset with message := "" }.stage.next :=
      building_mem_next (mem_rewinding_of_isOver hs)
    exact proper_granted (stays_of_journal rfl rfl) hnext

theorem tells_reset (s : Session) : s.Tells s.reset := by
  unfold reset
  dsimp only
  split
  · exact (stays_of_journal rfl rfl).tells
  · next h =>
    exact tells_goTo (s := { s.retire with attempt := none, lastOutcome := none, message := "" }) h

/-- An action that carries a fault faults with it, if it does, and nothing happens. -/
theorem stays_of_carried {a : Action} (hp : a.isPlayers = true) {fault : Fault}
    (h : a.carried? = some fault) :
    s.Stays (s.act a).2 ∧ ∀ fault', (s.act a).1 = .error fault' → fault' = fault := by
  cases a with
  | add command spot =>
    cases command with
    | ok command => cases h
    | error fault' =>
      cases h
      simp only [act, answer, add]
      split
      · exact ⟨stays_self s, fun _ h => by cases h⟩
      · exact ⟨stays_self s, fun _ h => (Except.error.inj h).symm⟩
  | setRepeats id count =>
    cases count with
    | ok count => cases h
    | error fault' =>
      cases h
      refine ⟨s.stays_edit _, fun fault' hf => ?_⟩
      obtain ⟨p, hp⟩ := exists_of_edit (eq_error_of_map hf)
      exact Program.eq_of_setRepeats_error hp
  | setSpeed speed =>
    cases speed with
    | ok speed => cases h
    | error fault' =>
      cases h
      exact ⟨stays_self s, fun _ h => (Except.error.inj h).symm⟩
  | transition target => cases hp
  | saveProgress record => cases hp
  | _ => cases h

/-- An action that names what it should makes one move of the table at most, and no forbidden one,
unless it picks a level where none can be picked. A reset is a move of its own. -/
theorem proper_act {a : Action} (hp : a.isPlayers = true) (hc : a.carried? = none)
    (hr : a ≠ .reset) (hs : ¬ ∃ key, a = .select key ∧ s.stage ∉ picking) :
    s.Proper (s.act a) := by
  cases a with
  | openLevelSelect => exact (proper_moveFrom (by decide)).answer _
  | backToMenu => exact (proper_moveFrom (by decide)).answer _
  | select key =>
    have hstage : s.stage ∈ picking := Decidable.byContradiction fun h => hs ⟨key, rfl, h⟩
    exact (proper_select hstage key).answer _
  | finishCountdown => exact (proper_moveFrom (by decide)).answer _
  | add command spot =>
    cases command with
    | error fault => cases hc
    | ok command => exact (proper_add command spot).answer _
  | remove id => exact (proper_edit fun p => permitted_ok (p.remove id)).answer _
  | moveBlock id spot => exact (proper_edit fun p => p.permitted_move id spot).answer _
  | setRepeats id count =>
    cases count with
    | error fault => cases hc
    | ok count =>
      exact (proper_edit fun p => p.permitted_setRepeats id count).answer _
  | clearProgram => exact (proper_edit fun p => permitted_ok (true, p.clear)).answer _
  | setSpeed speed =>
    cases speed with
    | error fault => cases hc
    | ok speed => exact proper_stay (permitted_ok _) (stays_of_journal rfl rfl)
  | run => exact s.proper_run.answer _
  | tick => exact s.proper_tick.answer _
  | pause => exact s.proper_pause.answer _
  | resume => exact s.proper_resume.answer _
  | stop => exact s.proper_stop.answer _
  | retry => exact s.proper_retry.answer _
  | nextLevel => exact s.proper_nextLevel.answer _
  | quitToLevelSelect => exact (proper_moveFrom (by decide)).answer _
  | reset => exact absurd rfl hr
  | transition target => cases hp
  | saveProgress record => cases hp
  | world | history => exact proper_stay (permitted_ok _) (stays_self s)
  | progress => exact proper_stay (s.store.permitted_all.map _) (stays_self s)
  | isOpen key => exact proper_stay ((s.store.permitted_isOpen key).map _) (stays_self s)
  | totalStars => exact proper_stay (s.store.permitted_totalStars.map _) (stays_self s)

/-! ## What deeds do -/

/-- What comes of a deed: it is done, or there is a fault. -/
def verdict (s : Session) : Deed → Except Fault Unit
  | .act a => (s.act a).1.map fun _ => ()
  | .beginPlay speed => (s.beginPlay speed).1
  | .sleep _ => .ok ()

/-- A level that is picked where none can be picked is a forbidden move, and nothing happens. -/
theorem select_of_not_mem (h : s.stage ∉ picking) (key : Json) :
    s.select key = (.error (.forbiddenMove s.stage .countdown), s) := by
  unfold select
  rw [if_neg (by simpa using h)]

theorem stays_beginPlay (s : Session) (speed : Option (Except Fault Speed)) :
    s.Stays (s.beginPlay speed).2 := by
  rcases speed with _ | fault | speed <;> exact stays_of_journal rfl rfl

/-- A deed other than a reset makes one move of the table at most. -/
theorem moves_after {d : Deed} (hp : d.isPlayers = true) (hr : d ≠ .act .reset) :
    s.Moves (s.after d) := by
  cases d with
  | beginPlay speed => exact (s.stays_beginPlay speed).moves
  | sleep millis =>
    have hstays : s.Stays (s.sleep millis) := stays_of_entry rfl rfl rfl
    exact hstays.moves
  | act a =>
    cases hc : a.carried? with
    | some fault => exact (stays_of_carried hp hc).1.moves
    | none =>
      by_cases h : ∃ key, a = .select key ∧ s.stage ∉ picking
      · obtain ⟨key, rfl, hs⟩ := h
        simp only [after, act, answer, select_of_not_mem hs]
        exact (stays_self s).moves
      · exact (proper_act hp hc (fun h => hr (congrArg Deed.act h)) h).moves

theorem tells_after {d : Deed} (hp : d.isPlayers = true) : s.Tells (s.after d) := by
  by_cases hr : d = .act .reset
  · rw [hr]
    exact s.tells_reset
  · exact (moves_after hp hr).tells

/-- The only deed that is a forbidden move picks a level where none can be picked. -/
theorem forbidden_of_verdict {d : Deed} (hp : d.isPlayers = true) {source target : Stage}
    (h : s.verdict d = .error (.forbiddenMove source target)) :
    d.carried? = some (.forbiddenMove source target) ∨
      ∃ key, d = .act (.select key) ∧ s.stage ∉ picking ∧ source = s.stage ∧
        target = .countdown := by
  cases d with
  | beginPlay speed =>
    rcases speed with _ | fault | speed
    · cases h
    · cases h
      exact .inl rfl
    · cases h
  | sleep millis => cases h
  | act a =>
    have hact := eq_error_of_map h
    cases hc : a.carried? with
    | some fault =>
      rw [(stays_of_carried hp hc).2 _ hact]
      exact .inl hc
    | none =>
      have hr : a ≠ .reset := by
        rintro rfl
        cases h
      by_cases hs : ∃ key, a = .select key ∧ s.stage ∉ picking
      · obtain ⟨key, rfl, hs⟩ := hs
        simp only [act, answer, select_of_not_mem hs] at hact
        cases hact
        exact .inr ⟨key, rfl, hs, rfl, rfl⟩
      · cases (proper_act hp hc hr hs).permitted _ hact

/-! ## The tour of deeds -/

/-- The moves that a deed makes, as the journal tells them. -/
def told (s : Session) (d : Deed) : List (Stage × Stage) :=
  Journal.moves ((s.after d).journal.drop s.journal.length)

/-- The moves that deeds make, each with the deed that makes it. -/
def tour (s : Session) : List Deed → List (Deed × Stage × Stage)
  | [] => []
  | d :: rest => (s.told d).map (d, ·) ++ (s.after d).tour rest

theorem Tells.told_eq {d : Deed} (h : s.Tells (s.after d)) : s.told d = s.change (s.after d) := by
  obtain ⟨events, hj, hm⟩ := h
  rw [told, hj, List.drop_left, hm]

theorem Tells.moves_eq {d : Deed} (h : s.Tells (s.after d)) :
    (s.after d).journal.moves = s.journal.moves ++ s.told d := by
  rw [h.told_eq]
  obtain ⟨events, hj, hm⟩ := h
  rw [hj, Journal.moves_append, hm]

theorem map_snd_told (s : Session) (d : Deed) :
    ((s.told d).map (d, ·)).map Prod.snd = s.told d := by
  rw [List.map_map]
  exact List.map_id _

variable {deeds : List Deed}

/-- The journal tells the moves that deeds make. -/
theorem moves_follow (hp : ∀ d ∈ deeds, d.isPlayers = true) :
    (s.follow deeds).journal.moves = s.journal.moves ++ (s.tour deeds).map Prod.snd := by
  induction deeds generalizing s with
  | nil => exact (List.append_nil _).symm
  | cons d rest ih =>
    have hd : s.Tells (s.after d) := tells_after (hp d List.mem_cons_self)
    rw [follow_cons, ih fun d' hd' => hp d' (List.mem_cons_of_mem d hd'), hd.moves_eq, tour,
      List.map_append, map_snd_told, List.append_assoc]

/-- The moves that deeds make lead from stage to stage. -/
theorem path_tour (hp : ∀ d ∈ deeds, d.isPlayers = true) :
    Stage.Path s.stage ((s.tour deeds).map Prod.snd) (s.follow deeds).stage := by
  induction deeds generalizing s with
  | nil => exact .here _
  | cons d rest ih =>
    have hd : s.Tells (s.after d) := tells_after (hp d List.mem_cons_self)
    rw [follow_cons, tour, List.map_append, map_snd_told, hd.told_eq]
    exact (path_change s _).append (ih fun d' hd' => hp d' (List.mem_cons_of_mem d hd'))

/-- Every move is allowed by the table of stages, apart from those of resets. -/
theorem allowed_of_mem_tour (hp : ∀ d ∈ deeds, d.isPlayers = true) {d : Deed}
    {source target : Stage} (h : (d, source, target) ∈ s.tour deeds) :
    target ∈ source.next ∨ d = .act .reset ∧ source ≠ .menu ∧ target = .menu := by
  induction deeds generalizing s with
  | nil => cases h
  | cons d' rest ih =>
    have hd' := hp d' List.mem_cons_self
    rcases List.mem_append.mp h with h | h
    · rw [(tells_after hd').told_eq, change] at h
      split at h
      · cases h
      · next hne =>
        simp only [List.map_cons, List.map_nil, List.mem_singleton, Prod.mk.injEq] at h
        obtain ⟨rfl, rfl, rfl⟩ := h
        by_cases hr : d = .act .reset
        · rw [hr, show s.after (.act .reset) = s.reset from rfl, stage_reset] at hne
          rw [hr]
          exact .inr ⟨rfl, Ne.symm hne, s.stage_reset⟩
        · exact .inl ((moves_after hd' hr).allowed.resolve_left hne)
    · exact ih (fun d hd => hp d (List.mem_cons_of_mem d' hd)) h

/-! ## What requests fault with -/

/-- Driving a run comes up with no forbidden move, whatever is asked meanwhile. -/
theorem isForbiddenMove_of_drive {generation : Nat} {during : List (List Request)} {fault : Fault}
    (h : (drive generation during s).2.1 = some fault) : fault.isForbiddenMove = false := by
  obtain ⟨woken, -, htick⟩ := exists_tick_of_drive h
  exact woken.proper_tick.permitted fault (congrArg Prod.fst htick)

/-- What playing replies is a fault only if driving the run came up with it. -/
theorem eq_some_of_playReply {mark : Nat} {entries : List Entry} {fault? : Option Fault}
    {fault : Fault} (h : (playReply mark entries fault? s).1 = .fault fault) :
    fault? = some fault := by
  cases fault? with
  | none => cases h
  | some fault' =>
    cases h
    rfl

/-- What a countdown replies is no forbidden move. -/
theorem isForbiddenMove_of_countReply {mark : Nat} {entries : List Entry} {fault : Fault}
    (h : (countReply mark entries s).1 = .fault fault) : fault.isForbiddenMove = false := by
  have hproper : s.Proper s.finishCountdown := proper_moveFrom (by decide)
  unfold countReply at h
  split at h
  · next hfinish =>
    cases h
    exact hproper.permitted _ (congrArg Prod.fst hfinish)
  · cases h

/-- The only request that faults with a forbidden move picks a level where none can be picked, and
nothing happens. -/
theorem forbidden_of_perform {request : Request} (hp : request.isPlayers = true)
    {source target : Stage}
    (h : (perform request s).1 = .fault (.forbiddenMove source target)) :
    request.carried? = some (.forbiddenMove source target) ∨
      ∃ key, request = .act (.select key) ∧ s.stage ∉ picking ∧ source = s.stage ∧
        target = .countdown ∧ (perform request s).2 = s := by
  cases request with
  | act a =>
    rw [Request.isPlayers] at hp
    rw [perform] at h
    have hact : (s.act a).1 = .error (.forbiddenMove source target) := Reply.answered.inj h
    have hd : (Deed.act a).isPlayers = true := hp
    have hverdict : s.verdict (.act a) = .error (.forbiddenMove source target) :=
      congrArg (Except.map fun _ => ()) hact
    rcases forbidden_of_verdict hd hverdict with hc | ⟨key, ha, hs, hsource, htarget⟩
    · exact .inl hc
    · cases ha
      refine .inr ⟨key, rfl, hs, hsource, htarget, ?_⟩
      rw [perform]
      simp only [act, answer, select_of_not_mem hs]
  | play speed during =>
    rw [perform] at h
    rcases speed with _ | fault | speed
    · cases isForbiddenMove_of_drive (eq_some_of_playReply h)
    · cases h
      exact .inl rfl
    · cases isForbiddenMove_of_drive (eq_some_of_playReply h)
  | countdown millis during =>
    simp only [perform] at h
    split at h
    · cases millis with
      | error fault =>
        cases h
        exact .inl rfl
      | ok millis => cases isForbiddenMove_of_countReply h
    · cases h

/-! ## The itinerary -/

/-- What listeners are told of a session from the menu, when deeds have been done, and what becomes
of the next one. -/
structure KeepsToTable (s : Session) (deeds : List Deed) : Prop where
  /-- The moves that listeners are told are those of the deeds. -/
  told : (s.follow deeds).journal.moves = (s.tour deeds).map Prod.snd
  /-- They lead from the menu to the stage of the session. -/
  path : Stage.Path .menu (s.follow deeds).journal.moves (s.follow deeds).stage
  /-- Each is in the table of stages, apart from those that resets make. -/
  allowed : ∀ d source target, (d, source, target) ∈ s.tour deeds →
    target ∈ source.next ∨ d = .act .reset ∧ source ≠ .menu ∧ target = .menu
  /-- The only deed that is a forbidden move picks a level where none can be picked. -/
  forbidden : ∀ (d : Deed) source target, d.isPlayers = true →
    (s.follow deeds).verdict d = .error (.forbiddenMove source target) →
    d.carried? = some (.forbiddenMove source target) ∨
      ∃ key, d = .act (.select key) ∧ (s.follow deeds).stage ∉ picking
  /-- Such a level is always refused, and nothing happens. -/
  refused : ∀ key, (s.follow deeds).stage ∉ picking →
    (s.follow deeds).verdict (.act (.select key)) =
        .error (.forbiddenMove (s.follow deeds).stage .countdown) ∧
      (s.follow deeds).after (.act (.select key)) = s.follow deeds

theorem keepsToTable_follow (catalog : Catalog) (store : Store) (clock : Clock)
    (limit : Option Int) (speed : Speed) (hp : ∀ d ∈ deeds, d.isPlayers = true) :
    (fresh catalog store clock limit speed).KeepsToTable deeds := by
  have htold : ((fresh catalog store clock limit speed).follow deeds).journal.moves = _ :=
    moves_follow hp
  refine
    { told := htold
      path := ?_
      allowed := fun d source target => allowed_of_mem_tour hp
      forbidden := fun d source target hd h => ?_
      refused := fun key h => ?_ }
  · rw [htold]
    exact path_tour (s := fresh catalog store clock limit speed) hp
  · rcases forbidden_of_verdict hd h with hc | ⟨key, hkey, hs, -, -⟩
    · exact .inl hc
    · exact .inr ⟨key, hkey, hs⟩
  · simp only [verdict, after, act, answer, select_of_not_mem h]
    exact ⟨rfl, trivial⟩

/-- **The table of stages is kept to.** From a fresh session, the moves that listeners are told in
any order of players' deeds lead from the menu to the stage of the session, each is in the table or
a reset's, and only a level that is picked where none can be picked is a forbidden move; and so it
is at every moment of what players' requests come to, those made during sleeps included. Nor does a
request fault with a forbidden move in any session, or nothing happens and it picks such a level. -/
theorem keepsToTable_performAll (catalog : Catalog) (store : Store) (clock : Clock)
    (limit : Option Int) (speed : Speed) :
    let s := fresh catalog store clock limit speed
    (∀ deeds : List Deed, (∀ d ∈ deeds, d.isPlayers = true) → s.KeepsToTable deeds) ∧
    (∀ requests : List Request, Request.arePlayers requests = true →
      s.follow (deedsAll requests s) = (performAll requests s).2 ∧
      ∀ moment, moment <+: deedsAll requests s → s.KeepsToTable moment) ∧
    ∀ (s' : Session) (request : Request) source target, request.isPlayers = true →
      (perform request s').1 = .fault (.forbiddenMove source target) →
      request.carried? = some (.forbiddenMove source target) ∨
        ∃ key, request = .act (.select key) ∧ s'.stage ∉ picking ∧ source = s'.stage ∧
          target = .countdown ∧ (perform request s').2 = s' := by
  intro s
  have hdeeds : ∀ deeds : List Deed, (∀ d ∈ deeds, d.isPlayers = true) → s.KeepsToTable deeds :=
    fun deeds => keepsToTable_follow catalog store clock limit speed
  refine ⟨hdeeds, fun requests hp => ⟨follow_deedsAll requests s, fun moment hm => ?_⟩,
    fun s' request source target hp => forbidden_of_perform hp⟩
  exact hdeeds moment fun d hd => isPlayers_of_mem_deedsAll hp (hm.subset hd)

end Session

/-! ## A sample -/

open Session in
/-- The visit to the corridor and a reset, behind which no level can be picked. -/
theorem keepsToTable_corridorVisit :
    let s := corridorSession (.memory .empty)
    let deeds := deedsAll corridorVisit s ++ [.act .reset]
    s.KeepsToTable deeds ∧
      (s.follow deeds).journal.moves =
        [(.menu, .levelSelect), (.levelSelect, .countdown), (.countdown, .building),
          (.building, .paused), (.paused, .building), (.building, .executing),
          (.executing, .paused), (.paused, .executing), (.executing, .results),
          (.results, .menu)] ∧
      (perform (.act (.select (.int 1))) (s.follow deeds)).1 =
        .fault (.forbiddenMove .menu .countdown) ∧
      (perform (.act (.select (.int 1))) (s.follow deeds)).2 = s.follow deeds := by
  intro s deeds
  obtain ⟨hdeeds, -, hfaults⟩ :=
    keepsToTable_performAll ⟨"levels", none, some [corridor]⟩ (.memory .empty) .still none .single
  have hplayers : ∀ d ∈ deeds, d.isPlayers = true := by decide +kernel
  have hmenu : (s.follow deeds).stage = .menu := by decide +kernel
  have hfault : (perform (.act (.select (.int 1))) (s.follow deeds)).1 =
      .fault (.forbiddenMove .menu .countdown) := by
    have hpicking : (s.follow deeds).stage ∉ picking := hmenu ▸ by decide
    simp only [perform, act, answer, select_of_not_mem hpicking, hmenu]
    rfl
  refine ⟨hdeeds deeds hplayers, by decide +kernel, hfault, ?_⟩
  rcases hfaults _ _ _ _ rfl hfault with h | ⟨key, -, -, -, -, hsame⟩
  · cases h
  · exact hsame

end RobotPuzzle
