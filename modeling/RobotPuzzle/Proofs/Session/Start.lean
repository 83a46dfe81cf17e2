import RobotPuzzle.Proofs.Session.Returns

/-!
# Started runs

A session that holds a run which has been started has started it itself: by its last run that was
accepted, of the program that the editor held. From then on the run takes its own steps and is
otherwise left alone, until it is put back or dropped. The program stays the one that was started
until it is edited, so that without an edit the run is of the program as it is.

* `Session.run_iff`: the programs that are accepted.
* `Session.goesOn_after`, `Session.goesOn_follow`: deeds that start no run let a run go on at most.
* `Session.exists_lastStart`: a run that has been started comes from the last start.
* `Session.LastStart.current_of_unedited`: without an edit it is of the program as it is.
-/

namespace RobotPuzzle

/-- Whether an action edits the program, if it is granted. -/
def Action.isEdit : Action → Bool
  | .add _ _ | .remove _ | .moveBlock _ _ | .setRepeats _ _ | .clearProgram => true
  | _ => false

/-- Whether a deed edits the program, if it is granted. -/
def Deed.isEdit : Deed → Bool
  | .act a => a.isEdit
  | _ => false

/-! ## Runs that go on -/

namespace Run

variable {r r' r'' : Run}

theorem Onward.trans (h : r.Onward r') (h' : r'.Onward r'') : r.Onward r'' := by
  induction h' with
  | here => exact h
  | step _ clock ih => exact ih.step clock

/-- A run that goes on stays a run of the same program. -/
theorem goes_onward (h : r.Onward r') : r.Goes r' := by
  induction h with
  | here => exact .refl r
  | @step r' _ clock ih => exact ih.trans (r'.goes_step clock)

end Run

namespace Attempt

/-- An attempt with a run that has been started goes on, with some deeds, to another one: the run
takes steps, and the program changes by edits only. -/
structure GoesOn (deeds : List Deed) (a b : Attempt) : Prop where
  started : a.run.startedAt.isSome = true
  onward : a.run.Onward b.run
  program : (∀ d ∈ deeds, d.isEdit = false) → b.program = a.program

variable {a b c : Attempt} {d : Deed} {rest : List Deed}

theorem GoesOn.cons (h : GoesOn [d] a b) (h' : GoesOn rest b c) : GoesOn (d :: rest) a c where
  started := h.started
  onward := h.onward.trans h'.onward
  program := fun hn => by
    rw [h'.program fun d' hd => hn d' (List.mem_cons_of_mem d hd),
      h.program fun d' hd => hn d' (List.mem_singleton.mp hd ▸ List.mem_cons_self)]

/-- A run is of the program that it has been started with. -/
theorem current_start {clock : Clock} (h : (a.run.start a.program.blocks clock).value = .ok ()) :
    Current { a with run := (a.run.start a.program.blocks clock).run } := by
  obtain ⟨stream, hstream, hstart⟩ := Run.start_eq h
  rw [hstart]
  exact ⟨hstream, rfl⟩

/-- It stays a run of that program, whatever becomes of the program. -/
theorem GoesOn.current {deeds : List Deed} (h : GoesOn deeds a b) (hc : a.Current) :
    Current { a with run := b.run } :=
  current_of_goes hc (Run.goes_onward h.onward)

end Attempt

namespace Session

variable {s : Session} {a b : Attempt} {d : Deed} {deeds : List Deed}

/-! ## Starts -/

/-- A run is on, with a clock. -/
structure OnRun (s : Session) (r : Run) (clock : Clock) : Prop where
  stage : s.stage = .executing
  attempt : ∃ a, s.attempt = some a ∧ a.run = r
  clock : s.clock = clock

theorem editing?_of_building (hs : s.stage = .building) (ha : s.attempt = some a) :
    s.editing? = some a := by
  rw [editing?, if_pos hs, ha]

/-- What is accepted has a block and fits the cap. -/
theorem start_of_run (hs : s.editing? = some a) (h : s.run.1 = .ok true) :
    0 < a.program.blocks.length ∧ (a.run.start a.program.blocks s.clock).value = .ok () := by
  have hblocks : 0 < a.program.blocks.length := by
    refine List.length_pos_iff.mpr fun hnil => ?_
    rw [run, hs] at h
    simp [hnil] at h
  refine ⟨hblocks, ?_⟩
  have hempty : a.program.blocks.isEmpty = false :=
    List.isEmpty_eq_false_iff.mpr (List.ne_nil_of_length_pos hblocks)
  cases hvalue : (a.run.start a.program.blocks s.clock).value with
  | ok _ => rfl
  | error fault =>
    simp only [run, hs, hempty, startRun, hvalue, Bool.false_eq_true, ↓reduceIte] at h
    cases h

/-- What a run comes to whose program has a block and fits the cap. -/
theorem run_eq (hs : s.editing? = some a) (hblocks : 0 < a.program.blocks.length)
    (hstart : (a.run.start a.program.blocks s.clock).value = .ok ()) :
    let turn := a.run.start a.program.blocks s.clock
    s.run = (.ok true, { ({ s.withRun a turn.run with clock := turn.clock }.log .engine
      turn.run.startLine).retire with lastOutcome := none, message := "" }.goTo .executing) := by
  obtain ⟨hstage, -⟩ := editing?_eq_some hs
  have hempty : a.program.blocks.isEmpty = false :=
    List.isEmpty_eq_false_iff.mpr (List.ne_nil_of_length_pos hblocks)
  simp only [run, hs, hempty, startRun, hstart, Bool.false_eq_true, ↓reduceIte]
  refine moveAndAnswer_of_mem ?_
  show Stage.executing ∈ s.stage.next
  rw [hstage]
  decide

/-- A program with a block that fits the cap is accepted. -/
theorem run_of_start (hs : s.editing? = some a) (hblocks : 0 < a.program.blocks.length)
    (hstart : (a.run.start a.program.blocks s.clock).value = .ok ()) :
    s.run.1 = .ok true ∧ s.run.2.OnRun (a.run.start a.program.blocks s.clock).run
      (a.run.start a.program.blocks s.clock).clock := by
  rw [run_eq hs hblocks hstart]
  exact ⟨rfl, rfl, ⟨_, rfl, rfl⟩, rfl⟩

/-- **The programs that are accepted** are those with a block that fit the cap. -/
theorem run_iff (hs : s.editing? = some a) :
    s.run.1 = .ok true ↔ 0 < a.program.blocks.length ∧
      (Unrolled.unroll a.run.cap a.program.blocks).isSome = true := by
  refine ⟨fun h => ?_, fun ⟨hblocks, hfits⟩ => ?_⟩
  · obtain ⟨hblocks, hstart⟩ := start_of_run hs h
    obtain ⟨stream, hstream, -⟩ := Run.start_eq hstart
    exact ⟨hblocks, by rw [hstream]; rfl⟩
  · obtain ⟨stream, hstream⟩ := Option.isSome_iff_exists.mp hfits
    exact (run_of_start hs hblocks (Run.value_start hstream s.clock)).1

theorem starts_iff : s.Starts d ↔ d = .act .run ∧ s.run.1 = .ok true := by
  refine ⟨fun h => ?_, fun ⟨hd, h⟩ => hd ▸ h⟩
  unfold Starts at h
  split at h
  · exact ⟨rfl, h⟩
  · cases h

/-- If some of the deeds start a run, there is a last one that does. -/
theorem exists_last_start (h : ¬ s.StartsNone deeds) :
    ∃ before since, deeds = before ++ .act .run :: since ∧ (s.follow before).run.1 = .ok true ∧
      ((s.follow before).after (.act .run)).StartsNone since := by
  induction deeds generalizing s with
  | nil => exact absurd trivial h
  | cons d rest ih =>
    -- The first deed is the last that starts a run only if none of the rest does.
    by_cases hrest : (s.after d).StartsNone rest
    · have hstarts : s.Starts d := Classical.byContradiction fun hnot => h ⟨hnot, hrest⟩
      obtain ⟨rfl, haccepted⟩ := starts_iff.mp hstarts
      exact ⟨[], rest, rfl, haccepted, hrest⟩
    · obtain ⟨before, since, rfl, haccepted, hnone⟩ := ih hrest
      exact ⟨d :: before, since, rfl, haccepted, hnone⟩

/-! ## What deeds leave of a run -/

/-- A run changes no program, whether it is accepted or refused. -/
theorem program_run (ha : s.attempt = some a) (hb : s.run.2.attempt = some b) :
    b.program = a.program := by
  unfold run at hb
  split at hb
  · cases ha.symm.trans hb
    rfl
  · next a' hediting =>
    cases ha.symm.trans (editing?_eq_some hediting).2
    split at hb
    · cases ha.symm.trans hb
      rfl
    · simp only [startRun] at hb
      split at hb
      · cases hb
        rfl
      · rw [snd_moveAndAnswer_eq] at hb
        rcases move_cases _ .executing with h | h <;> rw [h] at hb <;> cases hb <;> rfl

/-- In the editor, only edits change the program. -/
theorem program_after (hs : s.stage = .building) (ha : s.attempt = some a)
    (hd : d.isPlayers = true) (hedit : d.isEdit = false) (hb : (s.after d).attempt = some b) :
    b.program = a.program := by
  have hsame : (s.after d).attempt = s.attempt → b.program = a.program := fun h => by
    cases ha.symm.trans (h.symm.trans hb)
    rfl
  cases d with
  | beginPlay speed => rcases speed with _ | fault | speed <;> exact hsame rfl
  | sleep millis => exact hsame rfl
  | act action =>
    cases action with
    | transition | saveProgress => cases hd
    | add | remove | moveBlock | setRepeats | clearProgram => cases hedit
    | openLevelSelect | backToMenu | finishCountdown | quitToLevelSelect =>
      refine hsame ?_
      rcases s.moveFrom_cases _ _ with h | h <;> exact (congrArg attempt h).trans rfl
    | select key => exact hsame (by simp [after, act, answer, select, picking, hs])
    | setSpeed speed => cases speed <;> exact hsame rfl
    | run => exact program_run ha hb
    | tick =>
      refine hsame ?_
      rw [after_tick, tick_of_not_executing (by simp [hs])]
    | pause =>
      have hpause : s.after (.act .pause) = s.retire.goTo .paused := snd_pause_of_building hs
      exact hsame ((congrArg attempt hpause).trans rfl)
    | resume => exact hsame s.attempt_resume
    | stop =>
      refine hsame ?_
      rcases s.stop_cases with h | ⟨-, hstage, -⟩
      · exact congrArg (·.2.attempt) h
      · simp [hs] at hstage
    | retry =>
      refine hsame ?_
      rcases s.retry_cases with h | ⟨-, hover, -⟩
      · exact congrArg (·.2.attempt) h
      · simp [hs, Stage.isOver] at hover
    | nextLevel => exact hsame (congrArg (·.2.attempt) (nextLevel_of_not_over (by rw [hs]; rfl)))
    | reset =>
      rw [show (s.after (.act .reset)).attempt = none from s.attempt_reset] at hb
      cases hb
    | world | history | progress | isOpen | totalStars => exact hsame rfl

/-- **A run that has been started goes on**: behind a deed that does not start one, it is the run
that was there before, one step further at most. -/
theorem goesOn_after (hd : d.isPlayers = true) (hn : ¬ s.Starts d)
    (hb : (s.after d).attempt = some b) (hstarted : b.run.startedAt.isSome = true) :
    ∃ a, s.attempt = some a ∧ a.GoesOn [d] b := by
  have hpassage := (leads_after hd s).passage
  have hstart : s.stage = .building → (s.after d).scene.stage ≠ .executing :=
    fun hbuilding he => hn (starts_of_executing hd hbuilding he)
  have hprogram : ∀ a, s.stage = .building → s.attempt = some a → d.isEdit = false →
      b.program = a.program := fun a hbuilding ha hedit => program_after hbuilding ha hd hedit hb
  have hscene : (s.after d).scene.attempt = some b := hb
  generalize (s.after d).scene = c at hpassage hstart hscene
  cases hpassage with
  | stay | walk | resume => exact ⟨b, hscene, hstarted, .here, fun _ => rfl⟩
  | begin | refuse | rewind =>
    cases hscene
    cases hstarted
  | edit a program hstage ha =>
    -- The passage does not name its deed, so that the program is kept is read off the deed.
    refine ⟨a, ha, ?_, ?_, fun hedit => hprogram a hstage ha (hedit d List.mem_cons_self)⟩
    · cases hscene
      exact hstarted
    · cases hscene
      exact .here
  | start a stream hstage => exact absurd rfl (hstart hstage)
  | turn a hstage ha | conclude a report o hstage ha =>
    cases hscene
    rw [(a.run.goes_step s.clock).startedAt] at hstarted
    exact ⟨a, ha, hstarted, Run.Onward.here.step s.clock, fun _ => rfl⟩
  | reset => cases hscene

/-- So does it behind any deeds of which none starts a run. -/
theorem goesOn_follow (hp : ∀ d ∈ deeds, d.isPlayers = true) (hn : s.StartsNone deeds)
    (hb : (s.follow deeds).attempt = some b)
    (hstarted : b.run.startedAt.isSome = true) : ∃ a, s.attempt = some a ∧ a.GoesOn deeds b := by
  induction deeds generalizing s with
  | nil => exact ⟨b, hb, hstarted, .here, fun _ => rfl⟩
  | cons d rest ih =>
    obtain ⟨hd, hp⟩ := List.forall_mem_cons.mp hp
    obtain ⟨c, hc, hrest⟩ := ih hp hn.2 hb
    obtain ⟨a, ha, hfirst⟩ := goesOn_after hd hn.1 hc hrest.started
    exact ⟨a, ha, hfirst.cons hrest⟩

/-! ## The last start -/

/-- The last start of a run: behind the deeds `before`, the editor held the attempt `first`, whose
program was accepted. With the deeds `since`, the run has gone on to an attempt. -/
structure LastStart (s : Session) (before since : List Deed) (first a : Attempt) : Prop where
  editing : (s.follow before).editing? = some first
  accepted : (s.follow before).run.1 = .ok true
  /-- No other run has been started since. -/
  last : ((s.follow before).after (.act .run)).StartsNone since
  goesOn : Attempt.GoesOn since
    { first with run := (first.run.start first.program.blocks (s.follow before).clock).run } a

namespace LastStart

variable {before since : List Deed} {first : Attempt}

/-- What was started has a block and fits the cap. -/
theorem started (h : s.LastStart before since first a) :
    0 < first.program.blocks.length ∧
      (first.run.start first.program.blocks (s.follow before).clock).value = .ok () :=
  start_of_run h.editing h.accepted

/-- The run is of the program that it was started with. -/
theorem current (h : s.LastStart before since first a) :
    Attempt.Current { first with run := a.run } :=
  h.goesOn.current (Attempt.current_start h.started.2)

/-- It was started on one block at least. -/
theorem used (h : s.LastStart before since first a) : 0 < a.run.blocksUsed := by
  rw [h.current.blocksUsed]
  exact h.started.1

/-- **Without an edit, a run is of the program as it is.** -/
theorem current_of_unedited (h : s.LastStart before since first a)
    (hedit : ∀ d ∈ since, d.isEdit = false) : a.Current := by
  have hprogram : a.program = first.program := h.goesOn.program hedit
  exact ⟨hprogram ▸ h.current.stream, hprogram ▸ h.current.blocksUsed⟩

end LastStart

/-- **A run that has been started comes from the last start**, at any moment of a session that had
none at first. -/
theorem exists_lastStart (hp : ∀ d ∈ deeds, d.isPlayers = true)
    (hnone : ∀ a, s.attempt = some a → a.run.startedAt = none)
    (hb : (s.follow deeds).attempt = some b) (hstarted : b.run.startedAt.isSome = true) :
    ∃ before since first, deeds = before ++ .act .run :: since ∧
      s.LastStart before since first b := by
  have hnot : ¬ s.StartsNone deeds := by
    intro hn
    obtain ⟨a, ha, hgoes⟩ := goesOn_follow hp hn hb hstarted
    have hstarted := hgoes.started
    rw [hnone a ha] at hstarted
    cases hstarted
  obtain ⟨before, since, rfl, haccepted, hlast⟩ := exists_last_start hnot
  obtain ⟨-, hrest⟩ := List.forall_mem_append.mp hp
  obtain ⟨-, hsince⟩ := List.forall_mem_cons.mp hrest
  have hediting : ∃ first, (s.follow before).editing? = some first := by
    refine Option.ne_none_iff_exists'.mp fun h => ?_
    rw [run, h] at haccepted
    cases haccepted
  obtain ⟨first, hediting⟩ := hediting
  obtain ⟨hblocks, hstart⟩ := start_of_run hediting haccepted
  rw [follow_append, follow_cons] at hb
  obtain ⟨a, ha, hgoes⟩ := goesOn_follow hsince hlast hb hstarted
  rw [show (s.follow before).after (.act .run) = (s.follow before).run.2 from rfl,
    run_eq hediting hblocks hstart] at ha
  cases ha
  exact ⟨before, since, first, rfl, hediting, haccepted, hlast, hgoes⟩

end Session

end RobotPuzzle
