import RobotPuzzle.Proofs.Session.Deed

/-!
# What a run does not notice

A run that is on, or that has been paused, is touched by few requests. All others are refused, or
are about its pace, about the loop that drives it or about what is printed, on which nothing that a
run does depends (`Session.Agrees`).

* `Session.agrees_after`: a deed that does not affect a run leaves a session that agrees.
* `Session.Agrees.tick`: sessions that agree still do after a tick, which reports the same.
-/

namespace RobotPuzzle

/-- Whether an action does something to a run in a stage. -/
def Action.affects (stage : Stage) : Action → Bool
  | .tick | .pause => stage == .executing
  | .resume => stage == .paused
  | .stop | .reset | .transition _ | .saveProgress _ => true
  | _ => false

/-- Whether a deed does something to a run in a stage. -/
def Deed.affects (stage : Stage) : Deed → Bool
  | .act a => a.affects stage
  | .beginPlay _ | .sleep _ => false

namespace Session

/-- Two sessions are the same but for the pace, the loop that drives the run and the journal. -/
structure Agrees (s t : Session) : Prop where
  catalog : t.catalog = s.catalog
  store : t.store = s.store
  clock : t.clock = s.clock
  limit : t.limit = s.limit
  stage : t.stage = s.stage
  /-- The program and the run, with its world and its history. -/
  attempt : t.attempt = s.attempt
  lastOutcome : t.lastOutcome = s.lastOutcome
  message : t.message = s.message
  placed : t.placed = s.placed

/-- Two results are one answer or fault, with sessions that agree. -/
structure AgreesIn {α : Type} (p q : Result α) : Prop where
  value : q.1 = p.1
  session : p.2.Agrees q.2

theorem AgreesIn.exists_eq {α : Type} {p q : Result α} (h : AgreesIn p q) :
    ∃ value s t, p = (value, s) ∧ q = (value, t) ∧ s.Agrees t :=
  ⟨p.1, p.2, q.2, rfl, Prod.ext h.value rfl, h.session⟩

namespace Agrees

variable {s t u : Session}

theorem refl (s : Session) : s.Agrees s := by constructor <;> rfl

theorem retimed (s : Session) (speed : Speed) (generation : Nat) (journal : Journal) :
    s.Agrees { s with speed, generation, journal } := by constructor <;> rfl

/-- Sessions that agree are one session at another pace, with another loop and another journal. -/
theorem exists_retimed (h : s.Agrees t) :
    ∃ speed generation journal, t = { s with speed, generation, journal } := by
  obtain ⟨hcatalog, hstore, hclock, hlimit, hstage, hattempt, hlast, hmessage, hplaced⟩ := h
  refine ⟨t.speed, t.generation, t.journal, ?_⟩
  rw [← hcatalog, ← hstore, ← hclock, ← hlimit, ← hstage, ← hattempt, ← hlast, ← hmessage,
    ← hplaced]

theorem trans (h : s.Agrees t) (h' : t.Agrees u) : s.Agrees u := by
  obtain ⟨speed, generation, journal, rfl⟩ := h.exists_retimed
  obtain ⟨speed', generation', journal', rfl⟩ := h'.exists_retimed
  constructor <;> rfl

/-! ## Ticks of sessions that agree -/

theorem move (h : s.Agrees t) (target : Stage) :
    AgreesIn (s.move target) (t.move target) := by
  obtain ⟨speed, generation, journal, rfl⟩ := h.exists_retimed
  unfold Session.move
  split <;> exact ⟨rfl, by constructor <;> rfl⟩

theorem tellOutcome (h : s.Agrees t) (o : Outcome) :
    (s.tellOutcome o).Agrees (t.tellOutcome o) := by
  obtain ⟨speed, generation, journal, rfl⟩ := h.exists_retimed
  unfold Session.tellOutcome
  split <;> constructor <;> rfl

theorem logOutcome (h : s.Agrees t) (o : Outcome) : (s.logOutcome o).Agrees (t.logOutcome o) := by
  obtain ⟨speed, generation, journal, rfl⟩ := h.exists_retimed
  unfold Session.logOutcome
  split <;> constructor <;> rfl

theorem recordOutcome (h : s.Agrees t) (o : Outcome) :
    AgreesIn (s.recordOutcome o) (t.recordOutcome o) := by
  obtain ⟨speed, generation, journal, rfl⟩ := h.exists_retimed
  unfold Session.recordOutcome
  simp only
  split <;> exact ⟨rfl, by constructor <;> rfl⟩

theorem conclude (h : s.Agrees t) (o : Outcome) :
    AgreesIn (s.conclude o) (t.conclude o) := by
  have hlast : Agrees { s with lastOutcome := some o } { t with lastOutcome := some o } :=
    { h with lastOutcome := rfl }
  have hmove := (hlast.tellOutcome o).move (if o.completed then Stage.results else Stage.failed)
  unfold Session.conclude
  simp only
  obtain ⟨value, s', t', hs, ht, hagree⟩ := hmove.exists_eq
  rw [hs, ht]
  cases value with
  | error fault => exact ⟨rfl, hagree⟩
  | ok _ => exact (hagree.logOutcome o).recordOutcome o

theorem tellStep (h : s.Agrees t) (report : Report) :
    (s.tellStep report).Agrees (t.tellStep report) := by
  obtain ⟨speed, generation, journal, rfl⟩ := h.exists_retimed
  unfold Session.tellStep
  repeat' split
  all_goals constructor <;> rfl

theorem afterTurn (h : s.Agrees t) (a : Attempt) (turn : Turn Report) :
    (s.afterTurn a turn).Agrees (t.afterTurn a turn) := by
  obtain ⟨speed, generation, journal, rfl⟩ := h.exists_retimed
  unfold Session.afterTurn
  split <;> constructor <;> rfl

/-- Sessions that agree still do after a tick, and the tick reports the same. -/
theorem tick (h : s.Agrees t) : AgreesIn s.tick t.tick := by
  unfold Session.tick
  rw [h.stage, h.attempt, h.clock]
  split
  · next a _ _ =>
    have hturn := h.afterTurn a (a.run.step s.clock)
    simp only
    split
    · exact ⟨rfl, hturn⟩
    · next report _ =>
      have htold := hturn.tellStep report
      split
      · exact ⟨rfl, htold⟩
      · next o _ =>
        obtain ⟨value, s', t', hs, ht, hagree⟩ := (htold.conclude o).exists_eq
        rw [hs, ht]
        cases value <;> exact ⟨rfl, hagree⟩
  · exact ⟨rfl, h⟩

end Agrees

/-! ## Requests that are refused -/

theorem snd_moveFrom_of_not_mem {s : Session} {sources : List Stage} (h : s.stage ∉ sources)
    (target : Stage) : (s.moveFrom sources target).2 = s := by
  simp [moveFrom, h]

/-- **A run does not notice what does not affect it**: it is refused, or it is about other things
than the run. -/
theorem agrees_after {s : Session} (hs : s.stage = .executing ∨ s.stage = .paused) {d : Deed}
    (hd : d.affects s.stage = false) : s.Agrees (s.after d) := by
  have hfrom : ∀ {sources : List Stage} (target : Stage), Stage.executing ∉ sources →
      Stage.paused ∉ sources → s.Agrees (s.moveFrom sources target).2 := by
    intro sources target hexecuting hpaused
    have hmem : s.stage ∉ sources := by rcases hs with hs | hs <;> rw [hs] <;> assumption
    rw [snd_moveFrom_of_not_mem hmem]
    exact .refl s
  have hediting : s.editing? = none := by
    unfold editing?
    rcases hs with hs | hs <;> rw [hs] <;> rfl
  have hpicking : s.stage ∉ picking := by rcases hs with hs | hs <;> rw [hs] <;> decide
  have hover : s.stage.isOver = false := by rcases hs with hs | hs <;> rw [hs] <;> rfl
  cases d with
  | beginPlay speed => rcases speed with _ | _ | speed <;> exact .retimed s _ _ _
  | sleep millis => exact .retimed s _ _ _
  | act a =>
    cases a with
    | stop | reset | transition | saveProgress => cases hd
    | openLevelSelect | backToMenu | finishCountdown | quitToLevelSelect =>
      exact hfrom _ (by decide) (by decide)
    | add | remove | moveBlock | setRepeats | clearProgram | run =>
      simp [after, act, answer, add, remove, moveBlock, setRepeats, clearProgram, run, edit,
        hediting, Agrees.refl]
    | select key => simp [after, act, answer, select, hpicking, Agrees.refl]
    | retry | nextLevel =>
      simp only [after, act, answer, retry, nextLevel, hover]
      split <;> exact .refl s
    | tick | pause =>
      have hstage : s.stage = .paused := hs.resolve_left fun h => by rw [h] at hd; cases hd
      simp [after, act, answer, tick, pause, hstage, Agrees.refl]
    | resume =>
      have hstage : s.stage = .executing := hs.resolve_right fun h => by rw [h] at hd; cases hd
      simp [after, act, answer, resume, hstage, Agrees.refl]
    | setSpeed speed => cases speed <;> exact .retimed s _ _ _
    | world | history | progress | isOpen | totalStars => exact .refl s

end Session

end RobotPuzzle
