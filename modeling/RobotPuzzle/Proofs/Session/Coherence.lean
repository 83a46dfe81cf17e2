import RobotPuzzle.Proofs.Run.Fold
import RobotPuzzle.Proofs.Session.Passage

/-!
# Coherence of a session

The parts of a session fit together in each of its stages: the program, its run and the last outcome
are of one level, a run is only carried on with the program that it was started with, and what is
shown as the result is the result of the run. Requests made while playing sleeps do not change that.

* `Scene.coherent_of_passage`: every passage keeps a scene coherent.
* `Session.coherent_follow`: so does any order of players' deeds.
* `Session.pausesInEditor`: a pause in the editor ends in the editor.
* `Session.coherent_performAll`: the states that requests go through, from a fresh session.
-/

namespace RobotPuzzle

namespace Attempt

/-- The program and the run are of one level, and the run has the session's cap. -/
structure Fits (a : Attempt) (limit : Option Int) : Prop where
  level : a.run.level = a.program.level
  limit : a.run.limit = limit

/-- Nothing is left to run, and nothing has come of it. -/
structure Idle (a : Attempt) : Prop where
  exhausted : a.run.isExhausted = true
  outcome : a.run.outcome = none

/-- The run is of the program as it is. -/
structure Current (a : Attempt) : Prop where
  stream : Unrolled.unroll a.run.cap a.program.blocks = some a.run.stream
  blocksUsed : a.run.blocksUsed = a.program.blocks.length

/-- The run goes on. -/
structure Running (a : Attempt) : Prop extends Current a where
  outcome : a.run.outcome = none

/-- The run or the editing has been interrupted. -/
structure Halted (a : Attempt) : Prop where
  outcome : a.run.outcome = none
  exhausted_or_current : a.run.isExhausted = true ∨ a.Current

/-- The run of the program has ended with an outcome. -/
structure Ended (a : Attempt) (o : Outcome) : Prop where
  outcome : a.run.outcome = some o
  reports : o.Reports a.level a.program.blocks.length a.run.history.length

theorem idle_reset (a : Attempt) : Idle { a with run := a.run.reset } := ⟨rfl, rfl⟩

theorem fits_reset {a : Attempt} {limit : Option Int} (h : a.Fits limit) :
    Fits { a with run := a.run.reset } limit := ⟨h.level, h.limit⟩

/-- A halted attempt that has something left to run is running again. -/
theorem running_of_halted {a : Attempt} (h : a.Halted) (hleft : a.run.isExhausted = false) :
    a.Running := by
  rcases h.exhausted_or_current with he | hc
  · rw [hleft] at he
    cases he
  · exact { hc with outcome := h.outcome }

/-- A run that goes on is still of the program. -/
theorem current_of_goes {a : Attempt} {r : Run} (h : a.Current) (hgoes : a.run.Goes r) :
    Current { a with run := r } := by
  have hcap : r.cap = a.run.cap := by rw [Run.cap, Run.cap, hgoes.limit]
  refine ⟨?_, hgoes.blocksUsed.trans h.blocksUsed⟩
  rw [hcap, hgoes.stream]
  exact h.stream

/-- A step of a run without an outcome leaves it running. -/
theorem running_step {a : Attempt} (h : a.Running) {clock : Clock}
    (hrunning : ∀ report, (a.run.step clock).value = .ok report → report.outcome = none) :
    Running { a with run := (a.run.step clock).run } :=
  { current_of_goes h.toCurrent (a.run.goes_step clock) with
    outcome := (Run.stepped_step h.outcome clock).running hrunning }

/-- A step of a run with an outcome ends it. -/
theorem ended_step {a : Attempt} (h : a.Running) (hlevel : a.run.level = a.program.level)
    {clock : Clock} {report : Report} {o : Outcome}
    (hvalue : (a.run.step clock).value = .ok report) (ho : report.outcome = some o) :
    Ended { a with run := (a.run.step clock).run } o := by
  obtain ⟨hout, hreports⟩ := (Run.stepped_step h.outcome clock).ended report o hvalue ho
  rw [h.blocksUsed, hlevel] at hreports
  exact ⟨hout, hreports⟩

theorem fits_step {a : Attempt} {limit : Option Int} (h : a.Fits limit) (clock : Clock) :
    Fits { a with run := (a.run.step clock).run } limit := by
  have hs := a.run.goes_step clock
  exact ⟨hs.level.trans h.level, hs.limit.trans h.limit⟩

end Attempt

namespace Scene

/-- What a scene has to show in a stage. -/
def InStage (c : Scene) : Stage → Prop
  | .menu | .levelSelect => True
  | .countdown | .building => ∃ a, c.attempt = some a ∧ a.Idle
  | .executing => ∃ a, c.attempt = some a ∧ a.Running
  | .paused => ∃ a, c.attempt = some a ∧ a.Halted
  | .results => ∃ a o, c.attempt = some a ∧ c.lastOutcome = some o ∧ a.Ended o ∧ o.completed = true
  | .failed => ∃ a o, c.attempt = some a ∧ c.lastOutcome = some o ∧ a.Ended o ∧ o.completed = false

/-- The parts of a scene fit together, under the session's cap. -/
structure Coherent (c : Scene) (limit : Option Int) : Prop where
  fits : ∀ a, c.attempt = some a → a.Fits limit
  inStage : c.InStage c.stage

open Session

/-- A scene with an attempt that fits and is as its stage demands. -/
theorem coherent_of_some {c : Scene} {a : Attempt} {stage : Stage} {limit : Option Int}
    (hstage : c.stage = stage) (ha : c.attempt = some a) (hfits : a.Fits limit)
    (hin : c.InStage stage) : c.Coherent limit := by
  refine ⟨fun b hb => ?_, hstage ▸ hin⟩
  cases ha.symm.trans hb
  exact hfits

theorem coherent_menu {c : Scene} {limit : Option Int} (hstage : c.stage = .menu)
    (ha : c.attempt = none) : c.Coherent limit := by
  refine ⟨fun a h => ?_, ?_⟩
  · rw [ha] at h
    cases h
  · rw [hstage]
    trivial

/-- Walking to another stage, an attempt is as that stage demands. -/
theorem inStage_of_walk {c : Scene} {source target : Stage} (h : (source, target) ∈ walks)
    (hin : c.InStage source) : c.InStage target := by
  simp only [walks, List.mem_cons, Prod.mk.injEq, List.not_mem_nil, or_false] at h
  rcases h with ⟨rfl, rfl⟩ | ⟨rfl, rfl⟩ | ⟨rfl, rfl⟩ | ⟨rfl, rfl⟩ | ⟨rfl, rfl⟩ | ⟨rfl, rfl⟩ |
    ⟨rfl, rfl⟩
  · trivial
  · trivial
  · exact hin
  · obtain ⟨a, ha, hidle⟩ := hin
    exact ⟨a, ha, hidle.outcome, .inl hidle.exhausted⟩
  · obtain ⟨a, ha, hrun⟩ := hin
    exact ⟨a, ha, hrun.outcome, .inr hrun.toCurrent⟩
  · trivial
  · trivial

/-- A scene with an outcome and the attempt that it ended is as the stage for it demands. -/
theorem inStage_ending {c : Scene} {a : Attempt} {o : Outcome} (ha : c.attempt = some a)
    (ho : c.lastOutcome = some o) (h : a.Ended o) : c.InStage (ending o) := by
  unfold ending
  split
  · next hc => exact ⟨a, o, ha, ho, h, hc⟩
  · next hc => exact ⟨a, o, ha, ho, h, Bool.eq_false_iff.mpr hc⟩

namespace Coherent

variable {c : Scene} {limit : Option Int} {a : Attempt}

theorem idle (h : c.Coherent limit) (hstage : c.stage = .building) (ha : c.attempt = some a) :
    a.Idle := by
  have hin := h.inStage
  rw [hstage] at hin
  obtain ⟨a', ha', hidle⟩ := hin
  cases ha.symm.trans ha'
  exact hidle

theorem running (h : c.Coherent limit) (hstage : c.stage = .executing)
    (ha : c.attempt = some a) : a.Running := by
  have hin := h.inStage
  rw [hstage] at hin
  obtain ⟨a', ha', hrun⟩ := hin
  cases ha.symm.trans ha'
  exact hrun

theorem halted (h : c.Coherent limit) (hstage : c.stage = .paused) (ha : c.attempt = some a) :
    a.Halted := by
  have hin := h.inStage
  rw [hstage] at hin
  obtain ⟨a', ha', hhalted⟩ := hin
  cases ha.symm.trans ha'
  exact hhalted

/-- Where a run is over, the last outcome is its outcome. -/
theorem ended (h : c.Coherent limit) (hover : c.stage.isOver = true) :
    ∃ a o, c.attempt = some a ∧ c.lastOutcome = some o ∧ a.Ended o := by
  have hin := h.inStage
  have hstage : c.stage = .results ∨ c.stage = .failed := by simpa [Stage.isOver] using hover
  rcases hstage with hstage | hstage
  all_goals
    rw [hstage] at hin
    obtain ⟨a, o, ha, ho, hended, -⟩ := hin
    exact ⟨a, o, ha, ho, hended⟩

end Coherent

/-- Every passage keeps a scene coherent. -/
theorem coherent_of_passage {s : Session} {c : Scene} (h : Passage s c)
    (hs : s.scene.Coherent s.limit) : c.Coherent s.limit := by
  cases h with
  | stay => exact hs
  | walk target h => exact ⟨hs.fits, inStage_of_walk h hs.inStage⟩
  | begin key level hstage hfound hopen =>
    exact coherent_of_some rfl rfl ⟨rfl, rfl⟩ ⟨_, rfl, rfl, rfl⟩
  | edit a program hstage ha hlevel =>
    have hfits := hs.fits a ha
    have hidle := hs.idle hstage ha
    exact coherent_of_some hstage rfl ⟨hfits.level.trans hlevel.symm, hfits.limit⟩
      ⟨_, rfl, hidle.exhausted, hidle.outcome⟩
  | refuse a hstage ha hlong =>
    exact coherent_of_some hstage rfl (Attempt.fits_reset (hs.fits a ha)) ⟨_, rfl, a.idle_reset⟩
  | start a stream hstage ha hstream =>
    have hfits := hs.fits a ha
    exact coherent_of_some rfl rfl ⟨hfits.level, hfits.limit⟩
      ⟨_, rfl, { stream := hstream, blocksUsed := rfl, outcome := rfl }⟩
  | resume a hstage ha =>
    have hhalted := hs.halted hstage ha
    refine ⟨hs.fits, ?_⟩
    cases hleft : a.run.isExhausted with
    | true => exact ⟨a, ha, hleft, hhalted.outcome⟩
    | false => exact ⟨a, ha, Attempt.running_of_halted hhalted hleft⟩
  | rewind a hstage ha =>
    exact coherent_of_some rfl rfl (Attempt.fits_reset (hs.fits a ha)) ⟨_, rfl, a.idle_reset⟩
  | turn a hstage ha hrunning =>
    have hrun := hs.running hstage ha
    exact coherent_of_some hstage rfl (Attempt.fits_step (hs.fits a ha) _)
      ⟨_, rfl, Attempt.running_step hrun hrunning⟩
  | conclude a report o hstage ha hvalue ho =>
    have hrun := hs.running hstage ha
    have hended := Attempt.ended_step hrun (hs.fits a ha).level hvalue ho
    exact coherent_of_some rfl rfl (Attempt.fits_step (hs.fits a ha) _)
      (inStage_ending rfl rfl hended)
  | reset => exact coherent_menu rfl rfl

end Scene

namespace Session

/-- The parts of a session fit together. -/
def Coherent (s : Session) : Prop := s.scene.Coherent s.limit

theorem coherent_fresh (catalog : Catalog) (store : Store) (clock : Clock) (limit : Option Int)
    (speed : Speed) : (fresh catalog store clock limit speed).Coherent :=
  Scene.coherent_menu rfl rfl

theorem coherent_of_leads {s s' : Session} (h : s.Coherent) (hl : s.Leads s') : s'.Coherent := by
  unfold Coherent
  rw [hl.limit]
  exact Scene.coherent_of_passage hl.passage h

/-- Any order of players' deeds keeps a session coherent. -/
theorem coherent_follow {s : Session} (h : s.Coherent) {deeds : List Deed}
    (hp : ∀ d ∈ deeds, d.isPlayers = true) : (s.follow deeds).Coherent :=
  follow_induction h (fun _ _ => coherent_of_leads) hp

/-! ## Pauses in the editor -/

/-- Nothing that leaves a session paused changes the attempt. -/
theorem Passage.attempt_of_paused {s : Session} {c : Scene} (h : Passage s c)
    (hs : s.stage = .paused) (hc : c.stage = .paused) : c.attempt = s.attempt := by
  cases h with
  | stay => rfl
  | walk target h => rfl
  | begin key level hstage => exact absurd (hs ▸ hstage) (by decide)
  | edit a program hstage | refuse a hstage | start a stream hstage | turn a hstage
  | conclude a report o hstage => rw [hs] at hstage; cases hstage
  | resume a hstage ha => rfl
  | rewind a hstage ha => cases hc
  | reset => cases hc

theorem attempt_follow_of_paused {s : Session} {deeds : List Deed}
    (hp : ∀ d ∈ deeds, d.isPlayers = true)
    (hpaused : ∀ part, part <+: deeds → (s.follow part).stage = .paused) :
    (s.follow deeds).attempt = s.attempt := by
  induction deeds generalizing s with
  | nil => rfl
  | cons d rest ih =>
    have hfirst : (s.after d).attempt = s.attempt :=
      (leads_after (hp d List.mem_cons_self) s).passage.attempt_of_paused
        (hpaused [] List.nil_prefix) (hpaused [d] (List.prefix_append [d] rest))
    have hrest : ((s.after d).follow rest).attempt = (s.after d).attempt :=
      ih (fun d' hd => hp d' (List.mem_cons_of_mem d hd))
        fun part h => hpaused (d :: part) (List.cons_prefix_cons.mpr ⟨rfl, h⟩)
    exact hrest.trans hfirst

/-- However long the editor is left for a pause, the pause ends in the editor. -/
def PausesInEditor (s : Session) : Prop :=
  s.stage = .building → ∀ between : List Deed, (∀ d ∈ between, d.isPlayers = true) →
    (∀ part, part <+: between → (s.pause.2.follow part).stage = .paused) →
    (s.pause.2.follow between).resume.2.stage = .building

theorem snd_pause_of_building {s : Session} (h : s.stage = .building) :
    s.pause.2 = s.retire.goTo .paused :=
  congrArg Prod.snd (pause_eq (.inl h))

theorem pausesInEditor {s : Session} (h : s.Coherent) : s.PausesInEditor := by
  intro hstage between hp hpaused
  have hin : s.scene.InStage s.stage := h.inStage
  rw [hstage] at hin
  obtain ⟨a, ha, hidle⟩ := hin
  have hlast : (s.pause.2.follow between).stage = .paused :=
    hpaused between (List.prefix_refl between)
  have hattempt : (s.pause.2.follow between).attempt = some a :=
    (attempt_follow_of_paused hp hpaused).trans (by rw [snd_pause_of_building hstage]; exact ha)
  rw [resume_eq hlast hattempt, hidle.exhausted]
  rfl

/-- **Sessions stay coherent.** From a fresh session, any order of players' deeds leads to a
coherent session whose editor can be paused safely; and so do the parts of what players' requests
come to, those made during sleeps included. -/
theorem coherent_performAll (catalog : Catalog) (store : Store) (clock : Clock)
    (limit : Option Int) (speed : Speed) :
    let s := fresh catalog store clock limit speed
    (∀ deeds : List Deed, (∀ d ∈ deeds, d.isPlayers = true) →
      (s.follow deeds).Coherent ∧ (s.follow deeds).PausesInEditor) ∧
    ∀ requests : List Request, Request.arePlayers requests = true →
      s.follow (deedsAll requests s) = (performAll requests s).2 ∧
      ∀ moment, moment <+: deedsAll requests s →
        (s.follow moment).Coherent ∧ (s.follow moment).PausesInEditor := by
  intro s
  have hs : s.Coherent := coherent_fresh catalog store clock limit speed
  have hdeeds : ∀ deeds : List Deed, (∀ d ∈ deeds, d.isPlayers = true) →
      (s.follow deeds).Coherent ∧ (s.follow deeds).PausesInEditor := fun deeds hp =>
    ⟨coherent_follow hs hp, pausesInEditor (coherent_follow hs hp)⟩
  refine ⟨hdeeds, fun requests hp => ⟨follow_deedsAll requests s, fun moment hm => ?_⟩⟩
  exact hdeeds moment fun d hd => isPlayers_of_mem_deedsAll hp (hm.subset hd)

end Session

/-! ## A sample -/

/-- A session with the corridor as its only level. -/
def corridorSession (store : Store) : Session :=
  .fresh ⟨"levels", none, some [corridor]⟩ store .still none .single

/-- A visit to the corridor: the editor is paused, and the run is paused and gone on with while
playing sleeps, with an instruction that is executed while the second loop sleeps. -/
def corridorVisit : List Request :=
  [.act .openLevelSelect, .act (.select (.int 1)), .countdown (.ok 100) [],
    .act (.add (.ok .moveForward) .unnamed), .act (.add (.ok .jump) .unnamed), .act .pause,
    .act .run, .act .resume, .act .run,
    .play none [[.act .pause, .act .clearProgram, .act .resume, .play none [[.act .tick]]]]]

open Session in
theorem coherent_corridorVisit :
    let s := corridorSession (.memory .empty)
    let deeds := deedsAll corridorVisit s
    ((s.follow (deeds.take 6)).stage = .building ∧ (s.follow (deeds.take 6)).PausesInEditor) ∧
      (performAll corridorVisit s).2.stage = .results ∧ (performAll corridorVisit s).2.Coherent := by
  intro s deeds
  obtain ⟨hdeeds, hrequests⟩ :=
    coherent_performAll ⟨"levels", none, some [corridor]⟩ (.memory .empty) .still none .single
  obtain ⟨hend, hparts⟩ := hrequests corridorVisit (by decide +kernel)
  have hplayers : ∀ d ∈ deeds.take 6, d.isPlayers = true := by decide +kernel
  refine ⟨⟨by decide +kernel, (hdeeds _ hplayers).2⟩, by decide +kernel, ?_⟩
  exact hend ▸ (hparts deeds (List.prefix_refl deeds)).1

end RobotPuzzle
