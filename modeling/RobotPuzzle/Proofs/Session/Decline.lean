import RobotPuzzle.Proofs.Session.Itinerary
import RobotPuzzle.Proofs.Session.Replay

/-!
# Requests that are declined

A session declines a request by answering false or nothing, or with a fault where something is named
that it does not know. It then stays as it was, with two exceptions. The editor tells why it refuses
a block or a run; and a program is unrolled only after its run has been put back to the beginning,
so that a program that turns out too long leaves the run there.

* `Session.run_of_false`: the ways in which a run is refused.
* `Session.declines_of_overruns`: a program that is too long is refused.
* `Session.act_of_flag`: an action that answers false has done nothing, unless it is a run.
* `Session.spares_of_declines`: what any declined request leaves as it was.
* `Session.spares_declined`: so it is at every moment from a fresh session.
-/

namespace RobotPuzzle

/-- Whether the editor tells why it refuses a request: one for a run, or for a block. -/
def Request.isExplained : Request → Bool
  | .act .run | .act (.add (.ok _) _) => true
  | _ => false

namespace Session

/-- The requests that a session declines. -/
inductive Declines (s : Session) : Request → Prop where
  /-- An action answers false. -/
  | flag {a : Action} (h : (s.act a).1 = .ok (.flag false)) : Declines s (.act a)
  /-- No block is placed. -/
  | add {command : Except Fault Command} {spot : Spot} (h : (s.add command spot).1 = .ok none) :
      Declines s (.act (.add command spot))
  /-- No step is made. -/
  | tick (h : s.tick.1 = .ok none) : Declines s (.act .tick)
  | nextLevel (h : s.stage.isOver = false) : Declines s (.act .nextLevel)
  /-- A level cannot be picked. -/
  | select {key : Json} {fault : Fault} (h : (s.select key).1 = .error fault) :
      Declines s (.act (.select key))
  | unknownCommand (fault : Fault) (spot : Spot) : Declines s (.act (.add (.error fault) spot))
  | setSpeed (fault : Fault) : Declines s (.act (.setSpeed (.error fault)))
  | play (fault : Fault) (during : List (List Request)) :
      Declines s (.play (some (.error fault)) during)
  | countdown (millis : Except Fault Int) (during : List (List Request))
      (h : s.stage ≠ .countdown) : Declines s (.countdown millis during)

/-- A request is to run a program that is too long. -/
structure Overruns (s : Session) (request : Request) (a : Attempt) : Prop where
  request : request = .act .run
  editing : s.editing? = some a
  long : Unrolled.unroll a.run.cap a.program.blocks = none

/-- What a declined request leaves as it was. -/
structure Spares (s : Session) (request : Request) (s' : Session) : Prop where
  stage : s'.stage = s.stage
  /-- The level and its program. -/
  program : s'.attempt.map Attempt.program = s.attempt.map Attempt.program
  lastOutcome : s'.lastOutcome = s.lastOutcome
  speed : s'.speed = s.speed
  store : s'.store = s.store
  /-- No listener is told of a move. -/
  moves : s'.journal.moves = s.journal.moves
  /-- The run stays as well, unless it is one of a program that is too long, -/
  run : (∀ a, ¬ s.Overruns request a) → s'.attempt = s.attempt
  /-- which is then where it was before its start. -/
  overrun : ∀ a, s.Overruns request a →
    s'.attempt = some { a with run := Run.fresh a.level s.limit }
  /-- The player is told nothing, but why the editor refuses a block or a run. -/
  message : ¬ (s.stage = .building ∧ request.isExplained = true) → s'.message = s.message

variable {s s' : Session} {request : Request}

/-! ## Ways to stay as it was -/

/-- The journal of a session that stays tells no move. -/
theorem Stays.journal_moves (h : s.Stays s') : s'.journal.moves = s.journal.moves := by
  obtain ⟨events, hj, hm⟩ := h.tells
  rw [hj, Journal.moves_append, hm, change_of_stage h.stage, List.append_nil]

theorem not_overruns_of_request (h : request ≠ .act .run) (a : Attempt) :
    ¬ s.Overruns request a := fun ho => h ho.request

theorem spares_self (h : ∀ a, ¬ s.Overruns request a) : s.Spares request s where
  stage := rfl
  program := rfl
  lastOutcome := rfl
  speed := rfl
  store := rfl
  moves := rfl
  run := fun _ => rfl
  overrun := fun a ho => absurd ho (h a)
  message := fun _ => rfl

/-- The editor tells something and does nothing. -/
theorem spares_message (h : ∀ a, ¬ s.Overruns request a) (hs : s.stage = .building)
    (hr : request.isExplained = true) (message : Text) :
    s.Spares request { s with message } :=
  { spares_self h with message := fun hnot => absurd ⟨hs, hr⟩ hnot }

/-! ## Runs that are refused -/

/-- A run is refused outside of the editor, without a block, or with a program that is too long. -/
inductive RefusesRun (s : Session) : Session → Prop where
  | outside (h : s.editing? = none) : RefusesRun s s
  | empty (a : Attempt) (h : s.editing? = some a) (hblocks : a.program.blocks = [])
      (message : Text) : RefusesRun s { s with message }
  | long (a : Attempt) (h : s.editing? = some a)
      (hlong : Unrolled.unroll a.run.cap a.program.blocks = none) (topic : Console.Topic)
      (line message : Text) :
      RefusesRun s ({ s.withRun a a.run.reset with message }.log topic line)

theorem run_of_false (h : s.run.1 = .ok false) : s.RefusesRun s.run.2 := by
  cases hediting : s.editing? with
  | none =>
    simp only [run, hediting]
    exact .outside hediting
  | some a =>
    by_cases hblocks : a.program.blocks = []
    · simp only [run, hediting, hblocks, List.isEmpty_nil, ↓reduceIte]
      exact .empty a hediting hblocks _
    · cases hu : Unrolled.unroll a.run.cap a.program.blocks with
      | none =>
        simp only [run, hediting, List.isEmpty_eq_false_iff.mpr hblocks, Bool.false_eq_true,
          ↓reduceIte, startRun, Run.start, hu]
        exact .long a hediting hu _ _ _
      | some stream =>
        have hstart : (a.run.start a.program.blocks s.clock).value = .ok () := by
          simp only [Run.start, hu]
        have hgranted := (run_of_start hediting (List.length_pos_iff.mpr hblocks) hstart).1
        rw [h] at hgranted
        cases hgranted

/-- A program that is too long is refused. -/
theorem declines_of_overruns {a : Attempt} (h : s.Overruns request a) : s.Declines request := by
  obtain ⟨rfl, hediting, hlong⟩ := h
  have hblocks : a.program.blocks.isEmpty = false :=
    List.isEmpty_eq_false_iff.mpr (Unrolled.ne_nil_of_unroll hlong)
  have hrun : s.run.1 = .ok false := by
    simp only [run, hediting, hblocks, Bool.false_eq_true, ↓reduceIte, startRun, Run.start, hlong]
  exact .flag (congrArg (Except.map Answer.flag) hrun)

theorem spares_of_refusesRun (hs : s.Coherent) (h : s.RefusesRun s') :
    s.Spares (.act .run) s' := by
  cases h with
  | outside h =>
    refine spares_self fun a ho => ?_
    rw [ho.editing] at h
    cases h
  | empty a h hblocks message =>
    refine spares_message (fun b ho => ?_) (editing?_eq_some h).1 rfl message
    -- A program without blocks is not too long, so it is not that its run is put back.
    have hlong := ho.long
    cases h.symm.trans ho.editing
    exact Unrolled.ne_nil_of_unroll hlong hblocks
  | long a h hlong topic line message =>
    obtain ⟨hstage, ha⟩ := editing?_eq_some h
    have hfits := hs.fits a ha
    have hreset : a.run.reset = Run.fresh a.level s.limit := by
      rw [Run.reset, hfits.level, hfits.limit]
      rfl
    have hstays : s.Stays ({ s.withRun a a.run.reset with message }.log topic line) :=
      stays_of_entry rfl rfl rfl
    exact
      { stage := rfl
        program := by rw [ha]; rfl
        lastOutcome := rfl
        speed := rfl
        store := rfl
        moves := hstays.journal_moves
        run := fun hnot => absurd ⟨rfl, h, hlong⟩ (hnot a)
        overrun := fun b ho => by
          cases h.symm.trans ho.editing
          rw [← hreset]
          rfl
        message := fun hnot => absurd ⟨hstage, rfl⟩ hnot }

/-! ## Edits and moves that are refused -/

theorem withProgram_self {a : Attempt} (h : s.editing? = some a) :
    s.withProgram a a.program = s := by
  obtain ⟨-, ha⟩ := editing?_eq_some h
  rw [withProgram, ← ha]

/-- An edit that answers false has done nothing, if the program's has not. -/
theorem edit_of_false {f : Program → Except Fault (Bool × Program)}
    (hf : ∀ p q, f p = .ok (false, q) → q = p) (h : (s.edit f).1 = .ok false) :
    (s.edit f).2 = s := by
  unfold edit at h ⊢
  split at h
  · rfl
  · next a ha =>
    split at h
    · cases h
    · next answer program hedit =>
      cases h
      rw [hf _ _ hedit]
      exact withProgram_self ha

theorem moveFrom_of_false {sources : List Stage} {target : Stage}
    (hnext : ∀ source ∈ sources, target ∈ source.next)
    (h : (s.moveFrom sources target).1 = .ok false) : (s.moveFrom sources target).2 = s := by
  unfold moveFrom at h ⊢
  split at h
  · next hs =>
    rw [moveAndAnswer_of_mem (hnext s.stage (by simpa using hs))] at h
    cases h
  · next hs => rw [if_neg hs]

theorem exists_of_map_ok {α β : Type} {x : Except Fault α} {f : α → β} {v : β}
    (h : x.map f = .ok v) : ∃ y, x = .ok y ∧ f y = v := by
  cases x with
  | error fault => cases h
  | ok y => exact ⟨y, rfl, Except.ok.inj h⟩

theorem eq_of_map_flag {x : Except Fault Bool} {b : Bool} (h : x.map Answer.flag = .ok (.flag b)) :
    x = .ok b := by
  obtain ⟨b', hx, hb⟩ := exists_of_map_ok h
  rw [hx, Answer.flag.inj hb]

/-- A result that is refused with the session as it was, or granted. -/
theorem snd_of_false {r : Result Bool} (h : r = (.ok false, s) ∨ r.1 = .ok true)
    (hfalse : r.1 = .ok false) : r.2 = s := by
  rcases h with h | h
  · rw [h]
  · rw [hfalse] at h
    cases h

/-- **An action that answers false has done nothing**, unless it is a run. -/
theorem act_of_flag {a : Action} (h : (s.act a).1 = .ok (.flag false)) (ha : a ≠ .run) :
    (s.act a).2 = s := by
  cases a with
  | run => exact absurd rfl ha
  | openLevelSelect | backToMenu | finishCountdown | quitToLevelSelect =>
    exact moveFrom_of_false (by decide) (eq_of_map_flag h)
  | remove id =>
    exact edit_of_false (s := s) (f := fun p => .ok (p.remove id))
      (fun p q hf => Program.eq_of_remove_false (Except.ok.inj hf)) (eq_of_map_flag h)
  | moveBlock id spot =>
    exact edit_of_false (s := s) (f := (·.move id spot)) (fun p q => Program.eq_of_move_false)
      (eq_of_map_flag h)
  | setRepeats id count =>
    exact edit_of_false (s := s) (f := (·.setRepeats id count))
      (fun p q => Program.eq_of_setRepeats_false) (eq_of_map_flag h)
  | clearProgram =>
    exact edit_of_false (s := s) (f := fun p => .ok (true, p.clear)) (fun p q hf => by cases hf)
      (eq_of_map_flag h)
  | pause =>
    exact snd_of_false (s.pause_cases.imp_right fun ⟨_, h⟩ => congrArg Prod.fst h)
      (eq_of_map_flag h)
  | resume =>
    exact snd_of_false (s.resume_cases.imp_right fun ⟨_, _, _, h⟩ => congrArg Prod.fst h)
      (eq_of_map_flag h)
  | stop =>
    exact snd_of_false (s.stop_cases.imp_right fun ⟨_, _, _, h⟩ => congrArg Prod.fst h)
      (eq_of_map_flag h)
  | retry =>
    exact snd_of_false (s.retry_cases.imp_right fun ⟨_, _, _, h⟩ => congrArg Prod.fst h)
      (eq_of_map_flag h)
  | world | history | progress | isOpen | totalStars => rfl
  | reset => cases h
  | select | add | setSpeed | tick | nextLevel | transition | saveProgress =>
    obtain ⟨_, _, hflag⟩ := exists_of_map_ok h
    cases hflag

/-! ## Answers of nothing -/

/-- A block that is not placed leaves at most a message behind. -/
theorem add_of_none {command : Except Fault Command} {spot : Spot}
    (h : (s.add command spot).1 = .ok none) :
    (s.add command spot).2 = s ∨ s.stage = .building ∧ (∃ c, command = .ok c) ∧
      ∃ message, (s.add command spot).2 = { s with message } := by
  unfold add at h ⊢
  split at h
  · exact .inl rfl
  · next a ha =>
    cases command with
    | error fault => cases h
    | ok command =>
      simp only [addTo] at h ⊢
      split at h
      · cases h
      · next program hadd =>
        obtain ⟨haccepts, rfl⟩ := Program.eq_of_add_none hadd
        refine .inr ⟨(editing?_eq_some ha).1, ⟨command, rfl⟩, refusal a.program command, ?_⟩
        obtain ⟨-, hattempt⟩ := editing?_eq_some ha
        simp [withProgram, haccepts, ← hattempt]
      · cases h

theorem tick_of_none (h : s.tick.1 = .ok none) : s.tick.2 = s := by
  rcases s.tick_cases with ht | ⟨a, hs, ha⟩
  · rw [ht]
  · rcases hvalue : (a.run.step s.clock).value with fault | ⟨step, _ | o⟩
    · rw [tick_of_fault hs ha hvalue] at h
      cases h
    · rw [tick_of_running hs ha hvalue] at h
      cases h
    · rw [tick_of_ending hs ha hvalue] at h
      obtain ⟨_, _, hreport⟩ := exists_of_map_ok h
      cases hreport

/-! ## Levels that cannot be picked -/

/-- A level that cannot be picked leaves at most its index read and a line in the journal. -/
theorem select_of_error {key : Json} {fault : Fault} (h : (s.select key).1 = .error fault) :
    (s.select key).2 = s ∨
      ∃ journal, (s.select key).2 = { s.consult with journal } ∧ s.Stays (s.select key).2 := by
  by_cases hs : s.stage ∈ picking
  · have hpicking : picking.contains s.stage = true := by simpa using hs
    unfold select at h ⊢
    rw [if_pos hpicking] at h ⊢
    split at h
    · exact .inr ⟨_, rfl, s.stays_consult⟩
    · next level _ =>
      have hnext : Stage.countdown ∈ (s.consult.begin level).stage.next := countdown_mem_next hs
      dsimp only at h ⊢
      split at h
      · exact .inr ⟨_, rfl, s.stays_consult⟩
      · exact .inr ⟨_, rfl, s.stays_consult.trans (stays_log _ _ _)⟩
      · simp only [enterLevel, move_of_mem hnext] at h
        cases h
  · exact .inl (congrArg Prod.snd (select_of_not_mem hs key))

theorem spares_select {key : Json} {fault : Fault} (h : (s.select key).1 = .error fault) :
    s.Spares (.act (.select key)) (s.select key).2 := by
  have hnot : ∀ a, ¬ s.Overruns (.act (.select key)) a := not_overruns_of_request (by simp)
  rcases select_of_error h with hs | ⟨journal, hs, hstays⟩
  · rw [hs]
    exact spares_self hnot
  · rw [hs] at hstays ⊢
    exact { spares_self hnot with moves := hstays.journal_moves }

/-! ## All declined requests -/

theorem perform_act (a : Action) (s : Session) : (perform (.act a) s).2 = (s.act a).2 := by
  rw [perform]

/-- **What any declined request leaves as it was.** -/
theorem spares_of_declines (hs : s.Coherent) (h : s.Declines request) :
    s.Spares request (perform request s).2 := by
  cases h with
  | @flag a h =>
    rw [perform_act]
    by_cases ha : a = .run
    · subst ha
      exact spares_of_refusesRun hs (run_of_false (eq_of_map_flag h))
    · rw [act_of_flag h ha]
      exact spares_self (not_overruns_of_request (by simpa using ha))
  | @add command spot h =>
    have hnot : ∀ a, ¬ s.Overruns (.act (.add command spot)) a :=
      not_overruns_of_request (by simp)
    rw [perform_act]
    show s.Spares _ (s.add command spot).2
    rcases add_of_none h with hadd | ⟨hstage, ⟨c, rfl⟩, message, hadd⟩
    · rw [hadd]
      exact spares_self hnot
    · rw [hadd]
      exact spares_message hnot hstage rfl message
  | tick h =>
    have htick : (perform (.act .tick) s).2 = s := (perform_act _ s).trans (tick_of_none h)
    rw [htick]
    exact spares_self (not_overruns_of_request (by simp))
  | nextLevel h =>
    have hnext : (perform (.act .nextLevel) s).2 = s :=
      (perform_act _ s).trans (congrArg Prod.snd (nextLevel_of_not_over h))
    rw [hnext]
    exact spares_self (not_overruns_of_request (by simp))
  | select h =>
    rw [perform_act]
    exact spares_select h
  | unknownCommand fault spot =>
    have hadd : (perform (.act (.add (.error fault) spot)) s).2 = s := by
      refine (perform_act _ s).trans ?_
      show (s.add (.error fault) spot).2 = s
      unfold add
      split <;> rfl
    rw [hadd]
    exact spares_self (not_overruns_of_request (by simp))
  | setSpeed fault =>
    rw [perform_act]
    exact spares_self (not_overruns_of_request (by simp))
  | play fault during =>
    rw [perform]
    exact spares_self (not_overruns_of_request (by simp))
  | countdown millis during h =>
    simp only [perform, if_neg h]
    exact spares_self (not_overruns_of_request (by simp))

/-- **Declined requests leave a session as it was.** So it is at every moment from a fresh session,
after any order of players' deeds, and throughout what players' requests come to, those made during
sleeps included. -/
theorem spares_declined (catalog : Catalog) (store : Store) (clock : Clock) (limit : Option Int)
    (speed : Speed) :
    let s := fresh catalog store clock limit speed
    (∀ deeds : List Deed, (∀ d ∈ deeds, d.isPlayers = true) → ∀ request,
      (s.follow deeds).Declines request →
      (s.follow deeds).Spares request (perform request (s.follow deeds)).2) ∧
    ∀ requests : List Request, Request.arePlayers requests = true →
      s.follow (deedsAll requests s) = (performAll requests s).2 ∧
      ∀ moment, moment <+: deedsAll requests s → ∀ request,
        (s.follow moment).Declines request →
        (s.follow moment).Spares request (perform request (s.follow moment)).2 := by
  intro s
  have hs : s.Coherent := coherent_fresh catalog store clock limit speed
  exact at_every_moment fun deeds hp request h => spares_of_declines (coherent_follow hs hp) h

end Session

/-! ## A sample -/

/-- A visit to the corridor up to a program of one block. -/
def corridorDraft : List Request :=
  [.act .openLevelSelect, .act (.select (.int 1)), .countdown (.ok 100) [],
    .act (.add (.ok .moveForward) .unnamed)]

open Session in
/-- Under a cap of no instruction at all, the program is too long to run; and in the editor, a tick
does nothing. -/
theorem spares_corridorDraft :
    let s := fresh ⟨"levels", none, some [corridor]⟩ (.memory .empty) .still (some 0) .single
    let deeds := deedsAll corridorDraft s
    let draft := s.follow deeds
    (draft.Declines (.act .run) ∧ ∃ a, draft.Overruns (.act .run) a ∧
      (perform (.act .run) draft).2.attempt =
        some { a with run := Run.fresh a.level draft.limit }) ∧
      draft.Declines (.act .tick) ∧ (perform (.act .tick) draft).2.attempt = draft.attempt := by
  intro s deeds draft
  obtain ⟨-, hrequests⟩ :=
    spares_declined ⟨"levels", none, some [corridor]⟩ (.memory .empty) .still (some 0) .single
  have hdraft := (hrequests corridorDraft (by decide +kernel)).2 deeds (List.prefix_refl _)
  have hstage : draft.stage = .building := by decide +kernel
  have htick : draft.Declines (.act .tick) := .tick (by
    rw [tick_of_not_executing (by rw [hstage]; decide)])
  have hlong : draft.editing?.map (fun a => Unrolled.unroll a.run.cap a.program.blocks) =
      some none := by decide +kernel
  obtain ⟨a, ha, hunroll⟩ := Option.map_eq_some_iff.mp hlong
  have hoverruns : draft.Overruns (.act .run) a := ⟨rfl, ha, hunroll⟩
  have hrun : draft.Declines (.act .run) := declines_of_overruns hoverruns
  have hran : draft.Spares (.act .run) (perform (.act .run) draft).2 := hdraft _ hrun
  have hticked : draft.Spares (.act .tick) (perform (.act .tick) draft).2 := hdraft _ htick
  exact ⟨⟨hrun, a, hoverruns, hran.overrun a hoverruns⟩, htick,
    hticked.run (not_overruns_of_request (by simp))⟩

end RobotPuzzle
