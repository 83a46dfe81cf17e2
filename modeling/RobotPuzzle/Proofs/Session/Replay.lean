import RobotPuzzle.Proofs.Run.Replay
import RobotPuzzle.Proofs.Session.Start

/-!
# Replays

A run that is over is left by a retry, and one that is on or has been paused by a stop. The end of a
pause leaves a run, too, when it has been paused behind its last instruction. All of these lead back
to the editor, with the program as it is. Whatever is left of the run then, the program is accepted
when it is run again, and the ticks come to what the steps of a new run of the level come to: they
report the same steps, leave the same worlds and end with the same outcome. Only the times differ.

A pause that ends behind the last instruction leaves the run in the editor, where the program may be
edited under it. If the editor is paused again, the program need not be the one that was started,
and it is accepted only if it still has a block and fits the cap.

* `Session.returns_of_wayBack`: a way back leads to the editor.
* `Session.current_of_wayBack`: the run is still of the program, unless that has been edited.
* `Session.onRun_ticks`: as long as the run goes on, ticks step it.
* `Session.replays_of_abreast`: a run that has been started goes the way of another one.
* `Session.exists_replays`: a program that is accepted goes the way of a new run.
* `Session.replays_wayBack`: a program that is run again, in any session.
* `emptied_program_refused`: a stop may lead to a program that is refused.
-/

namespace RobotPuzzle

/-- What fits a session has the cap of a new run. -/
theorem Attempt.Fits.cap_eq {a : Attempt} {limit : Option Int} (h : a.Fits limit) (level : Level) :
    a.run.cap = (Run.fresh level limit).cap := by
  rw [Run.cap, h.limit]
  rfl

namespace Session

/-- The ways back to the editor: a retry when the run is over, a stop, and the end of a pause when
nothing is left to run. -/
inductive WayBack (s : Session) (a : Attempt) : Action → Prop where
  | retry (h : s.stage.isOver = true) : WayBack s a .retry
  | stop (h : s.stage = .executing ∨ s.stage = .paused) : WayBack s a .stop
  | resume (h : s.stage = .paused) (hspent : a.run.isExhausted = true) : WayBack s a .resume

/-- Ticks take a session the way of a run that has been started, up to its last call of `step`,
which comes behind `earlier` others and brings its outcome. Only the times may differ. -/
structure Replays (s : Session) (new : Turn Unit) (earlier : Nat) (o : Outcome) : Prop where
  started : new.value = .ok ()
  executing : ∀ n ≤ earlier, (s.follow (ticks n)).stage = .executing
  /-- After each tick the run is where the new one is, with its world and its history. -/
  run : ∀ n ≤ earlier + 1, ∃ a, (s.follow (ticks n)).attempt = some a ∧
    a.run.untimed = (new.run.past new.clock n).1.untimed
  /-- A tick before the last one reports what the new run reports. -/
  reports : ∀ n < earlier,
    (s.follow (ticks n)).tick.1 = (new.run.turn new.clock n).value.map some
  /-- So does the last one, if the outcome can be recorded. It ends the run with the outcome. -/
  last : ∃ step o', (new.run.turn new.clock earlier).value = .ok ⟨step, some o⟩ ∧
    o'.untimed = o.untimed ∧
    (s.follow (ticks earlier)).tick.1 =
      ((s.follow (ticks earlier)).recordOutcome o').1.map (fun _ => some ⟨step, some o'⟩) ∧
    (s.follow (ticks (earlier + 1))).stage = ending o ∧
    (s.follow (ticks (earlier + 1))).lastOutcome = some o'

/-- A session that has led back to its editor replays the run of an attempt, which has been started
from the attempt `first`, with the deeds `since`. -/
structure ReplaysIn (s editor : Session) (since : List Deed) (first a : Attempt)
    (limit : Option Int) : Prop where
  /-- The program is accepted if it has not been edited since. -/
  unedited : (∀ d ∈ since, d.isEdit = false) → editor.run.1 = .ok true
  /-- Edits can matter only where a run without anything left is paused. There, too, the program is
  accepted if its blocks are those that the run was started on. -/
  accepted : (s.stage = .paused → a.run.isExhausted = true →
    a.program.blocks = first.program.blocks) → editor.run.1 = .ok true
  /-- Edited or not, it is accepted if it has a block and fits the cap, and only then. -/
  accepted_iff : editor.run.1 = .ok true ↔ 0 < a.program.blocks.length ∧
    (Unrolled.unroll (Run.fresh a.level limit).cap a.program.blocks).isSome = true
  /-- Where it is accepted, ticks go the way of a new run of the level on the same blocks, with the
  same cap, to its end. The outcomes can be made because the next two readings of both clocks are a
  finite time apart, the optimal number of blocks is not negative and the score of a met goal fits a
  double. -/
  replays : editor.run.1 = .ok true → ∀ clock : Clock,
    let new := (Run.fresh a.level limit).start a.program.blocks clock
    (∃ ms, editor.clock.next.millisBetween editor.clock.tick.next = .ok ms) →
    (∃ ms, clock.next.millisBetween clock.tick.next = .ok ms) →
    0 ≤ a.level.optimal →
    (a.level.isMetBy new.run.plainWorld = true →
      (Scoring.score? a.level new.run.plainWorld.robot a.program.blocks.length).isSome = true) →
    ∃ earlier k o, new.run.Ends new.clock earlier k o ∧ editor.run.2.Replays new earlier o

variable {s : Session} {a : Attempt} {r : Run} {c : Clock}

/-! ## Ways back to the editor -/

/-- A way back is granted, and leads to the editor with the program as it is. -/
theorem returns_of_wayBack {action : Action} (ha : s.attempt = some a)
    (h : s.WayBack a action) :
    (s.act action).1 = .ok (.flag true) ∧
      ∃ run, (s.act action).2.editing? = some { a with run } := by
  cases h with
  | retry hs =>
    have hact : s.act .retry = answer .flag s.retry := rfl
    rw [hact, retry_eq hs ha]
    exact ⟨rfl, _, rfl⟩
  | stop hs =>
    have hact : s.act .stop = answer .flag s.stop := rfl
    rw [hact, stop_eq hs ha]
    exact ⟨rfl, _, rfl⟩
  | resume hs hspent =>
    have hact : s.act .resume = answer .flag s.resume := rfl
    rw [hact, resume_eq hs ha, hspent]
    exact ⟨rfl, a.run, editing?_of_building rfl ha⟩

theorem isPlayers_of_wayBack {action : Action} (h : s.WayBack a action) :
    action.isPlayers = true := by
  cases h <;> rfl

/-! ## What is left of a run -/

/-- What a session holds of its run: when it is over it is still of the program. -/
structure Holds (s : Session) : Prop where
  coherent : s.Coherent
  ended : s.stage.isOver = true → ∀ a, s.attempt = some a → a.Current

/-- A run that ends is still of the program. -/
theorem ended_of_passage {c : Scene} (h : Passage s c) (hs : s.Holds)
    (hover : c.stage.isOver = true) : ∀ a, c.attempt = some a → a.Current := by
  intro b hb
  have hnot : ∀ {stage : Stage}, stage.isOver = false → stage.isOver = true → b.Current :=
    fun hfalse htrue => absurd (hfalse.symm.trans htrue) (by decide)
  cases h with
  | stay => exact hs.ended hover b hb
  | walk target h =>
    have htarget : ∀ move ∈ walks, move.2.isOver = false := by decide
    exact hnot (htarget _ h) hover
  | resume a hstage ha =>
    refine hnot ?_ hover
    show Stage.isOver (if a.run.isExhausted then .building else .executing) = false
    split <;> rfl
  | begin | start | rewind | reset => exact hnot rfl hover
  | edit a program hstage | refuse a hstage | turn a hstage =>
    have hstage' : s.stage.isOver = true := hover
    rw [hstage] at hstage'
    exact hnot rfl hstage'
  | conclude a report o hstage ha =>
    cases hb
    exact Attempt.current_of_goes (hs.coherent.running hstage ha).toCurrent (a.run.goes_step _)

theorem holds_after (hs : s.Holds) {d : Deed} (hd : d.isPlayers = true) : (s.after d).Holds :=
  { coherent := coherent_of_leads hs.coherent (leads_after hd s)
    ended := ended_of_passage (leads_after hd s).passage hs }

theorem holds_fresh (catalog : Catalog) (store : Store) (clock : Clock) (limit : Option Int)
    (speed : Speed) : (fresh catalog store clock limit speed).Holds :=
  { coherent := coherent_fresh catalog store clock limit speed
    ended := fun hover => by cases hover }

theorem holds_follow (hs : s.Holds) {deeds : List Deed} (hp : ∀ d ∈ deeds, d.isPlayers = true) :
    (s.follow deeds).Holds := by
  induction deeds generalizing s with
  | nil => exact hs
  | cons d rest ih =>
    exact ih (holds_after hs (hp d List.mem_cons_self)) fun d' hd =>
      hp d' (List.mem_cons_of_mem d hd)

theorem limit_follow {deeds : List Deed} (hp : ∀ d ∈ deeds, d.isPlayers = true) :
    (s.follow deeds).limit = s.limit :=
  follow_induction (P := fun s' => s'.limit = s.limit) rfl (fun _ _ h hl => hl.limit.trans h) hp

/-- Where there is a way back, the run is still of the program. Where a run without anything left is
paused, it is if the blocks are those that it was started on. -/
theorem current_of_wayBack (hs : s.Holds) (ha : s.attempt = some a) {action : Action}
    (hback : s.WayBack a action) {first : Attempt} (hfirst : first.Current)
    (hrun : first.run = a.run)
    (hsame : s.stage = .paused → a.run.isExhausted = true →
      a.program.blocks = first.program.blocks) : a.Current := by
  have hpaused : s.stage = .paused → a.Current := by
    intro hstage
    rcases (hs.coherent.halted hstage ha).exhausted_or_current with hexhausted | hcurrent
    · have hblocks := hsame hstage hexhausted
      refine ⟨?_, ?_⟩ <;> rw [← hrun, hblocks]
      · exact hfirst.stream
      · exact hfirst.blocksUsed
    · exact hcurrent
  cases hback with
  | retry hover => exact hs.ended hover a ha
  | stop hstage =>
    rcases hstage with hstage | hstage
    · exact (hs.coherent.running hstage ha).toCurrent
    · exact hpaused hstage
  | resume hstage => exact hpaused hstage

/-! ## Ticks -/

/-- A tick that brings no outcome steps the run, and reports what the step does. -/
theorem onRun_tick (h : s.OnRun r c) {step : Option Step}
    (hvalue : (r.step c).value = .ok ⟨step, none⟩) :
    s.tick.1 = .ok (some ⟨step, none⟩) ∧ s.tick.2.OnRun (r.step c).run (r.step c).clock := by
  obtain ⟨hs, ⟨a, ha, rfl⟩, rfl⟩ := h
  obtain ⟨journal, message, htold⟩ := s.told_eq a (a.run.step s.clock) ⟨step, none⟩
  rw [tick_of_running hs ha hvalue, htold]
  exact ⟨rfl, hs, ⟨_, rfl, rfl⟩, rfl⟩

/-- Whether an outcome can be recorded depends on the catalog and the store. -/
theorem fst_recordOutcome {t : Session} (hcatalog : t.catalog = s.catalog)
    (hstore : t.store = s.store) (o : Outcome) :
    (t.recordOutcome o).1 = (s.recordOutcome o).1 := by
  unfold recordOutcome
  rw [hcatalog, hstore]
  split <;> rfl

theorem fst_conclude (h : s.stage = .executing) (o : Outcome) :
    (s.conclude o).1 = (s.recordOutcome o).1 := by
  obtain ⟨message, hconclude⟩ := conclude_eq h o
  obtain ⟨journal, hj⟩ :=
    logOutcome_eq ({ s with lastOutcome := some o, message }.goTo (ending o)) o
  rw [hconclude, hj]
  refine fst_recordOutcome ?_ ?_ o <;> rfl

/-- A tick that brings an outcome ends the run with it, and reports it if it can be recorded. -/
theorem ends_tick (h : s.OnRun r c) {step : Option Step} {o : Outcome}
    (hvalue : (r.step c).value = .ok ⟨step, some o⟩) :
    s.tick.1 = (s.recordOutcome o).1.map (fun _ => some ⟨step, some o⟩) ∧
      s.tick.2.stage = ending o ∧ s.tick.2.lastOutcome = some o ∧
        ∃ a, s.tick.2.attempt = some a ∧ a.run = (r.step c).run := by
  obtain ⟨hs, ⟨a, ha, rfl⟩, rfl⟩ := h
  obtain ⟨journal, message, htold⟩ := s.told_eq a (a.run.step s.clock) ⟨step, some o⟩
  let told : Session := { s.withRun a (a.run.step s.clock).run with
    clock := (a.run.step s.clock).clock, journal, message }
  have hrecord : (told.conclude o).1 = (s.recordOutcome o).1 :=
    (fst_conclude (s := told) hs o).trans (fst_recordOutcome (s := s) (t := told) rfl rfl o)
  obtain ⟨message', journal', hconclude⟩ := snd_conclude (s := told) hs o
  rw [tick_of_ending hs ha hvalue, htold]
  simp only [told] at hrecord hconclude
  rw [hrecord, hconclude]
  exact ⟨rfl, rfl, rfl, _, rfl, rfl⟩

theorem follow_ticks_succ (s : Session) (n : Nat) :
    s.follow (ticks (n + 1)) = (s.follow (ticks n)).tick.2 := by
  rw [ticks, List.replicate_succ', follow_append]
  rfl

/-- As long as the run goes on, ticks step it. -/
theorem onRun_ticks (h : s.OnRun r c) {n : Nat}
    (hrunning : ∀ i < n, ∃ step, (r.turn c i).value = .ok ⟨some step, none⟩) :
    (s.follow (ticks n)).OnRun (r.past c n).1 (r.past c n).2 := by
  induction n with
  | zero => exact h
  | succ n ih =>
    have hbefore := ih fun i hi => hrunning i (Nat.lt_succ_of_lt hi)
    obtain ⟨step, hstep⟩ := hrunning n (Nat.lt_succ_self n)
    rw [Run.turn_eq_step_past] at hstep
    rw [follow_ticks_succ, Run.past, Run.turn_eq_step_past]
    exact (onRun_tick hbefore hstep).2

/-! ## Replays -/

/-- A run that is on goes the way of one that is the same but for times, up to its end. -/
theorem replays_of_abreast {new : Turn Unit} {earlier k : Nat} {o : Outcome} (h : s.OnRun r c)
    (habreast : r.Abreast new.run c new.clock) (hstarted : new.value = .ok ())
    (hends : new.run.Ends new.clock earlier k o) : s.Replays new earlier o := by
  have hpast : ∀ n ≤ earlier, Run.Abreast (r.past c n).1 (new.run.past new.clock n).1
      (r.past c n).2 (new.run.past new.clock n).2 := fun n hn =>
    habreast.past fun i hi => hends.running i (Nat.lt_of_lt_of_le hi hn)
  have hvalue : ∀ n < earlier, ∃ step, (r.turn c n).value = .ok ⟨some step, none⟩ ∧
      (new.run.turn new.clock n).value = .ok ⟨some step, none⟩ := by
    intro n hn
    obtain ⟨step, hstep⟩ := hends.running n hn
    refine ⟨step, ?_, hstep⟩
    rw [Run.turn_eq_step_past] at hstep ⊢
    exact (hpast n (Nat.le_of_lt hn)).value_of_running hstep
  have hon : ∀ n ≤ earlier, (s.follow (ticks n)).OnRun (r.past c n).1 (r.past c n).2 :=
    fun n hn => onRun_ticks h fun i hi =>
      (hvalue i (Nat.lt_of_lt_of_le hi hn)).imp fun _ hstep => hstep.1
  have hlast := hends.last
  rw [Run.turn_eq_step_past] at hlast
  obtain ⟨o', hown, huntimed⟩ := (hpast earlier (Nat.le_refl _)).value_of_ending hlast
  obtain ⟨hreply, hstage, houtcome, a, ha, hrun⟩ :=
    ends_tick (hon earlier (Nat.le_refl _)) hown
  have hcompleted : o'.untimed.completed = o.untimed.completed :=
    congrArg Outcome.completed huntimed
  have hsame : ending o' = ending o := by
    rw [ending, ending, show o'.completed = o.completed from hcompleted]
  refine
    { started := hstarted
      executing := fun n hn => (hon n hn).stage
      run := fun n hn => ?_
      reports := fun n hn => ?_
      last := ⟨_, o', hends.last, huntimed, ?_, ?_, ?_⟩ }
  · rcases Nat.lt_or_eq_of_le hn with hn | rfl
    · obtain ⟨b, hb, hrun⟩ := (hon n (Nat.le_of_lt_succ hn)).attempt
      exact ⟨b, hb, hrun ▸ (hpast n (Nat.le_of_lt_succ hn)).untimed⟩
    · refine ⟨a, follow_ticks_succ s earlier ▸ ha, ?_⟩
      rw [hrun, Run.past, Run.turn_eq_step_past]
      exact (hpast earlier (Nat.le_refl _)).run
  · obtain ⟨step, hown, hnew⟩ := hvalue n hn
    rw [Run.turn_eq_step_past] at hown
    rw [hnew]
    exact (onRun_tick (hon n (Nat.le_of_lt hn)) hown).1
  · rw [hreply, Run.turn_eq_step_past]
  · rw [follow_ticks_succ, hstage, hsame]
  · rw [follow_ticks_succ, houtcome]

/-- A program that is accepted goes the way of a new run of the level, to its end. -/
theorem exists_replays {limit : Option Int} (hs : s.editing? = some a) (hfits : a.Fits limit)
    (haccepted : s.run.1 = .ok true) (clock : Clock) :
    let new := (Run.fresh a.level limit).start a.program.blocks clock
    (∃ ms, s.clock.next.millisBetween s.clock.tick.next = .ok ms) →
    (∃ ms, clock.next.millisBetween clock.tick.next = .ok ms) →
    0 ≤ a.level.optimal →
    (a.level.isMetBy new.run.plainWorld = true →
      (Scoring.score? a.level new.run.plainWorld.robot a.program.blocks.length).isSome = true) →
    ∃ earlier k o, new.run.Ends new.clock earlier k o ∧ s.run.2.Replays new earlier o := by
  obtain ⟨hblocks, hown⟩ := start_of_run hs haccepted
  intro new htime htime' hopt hscore
  let own := a.run.start a.program.blocks s.clock
  obtain ⟨hvalue, huntimed⟩ : own.value = new.value ∧ own.run.untimed = new.run.untimed :=
    Run.untimed_start hfits.level hfits.limit _ _ _
  have hnew : new.value = .ok () := hvalue.symm.trans hown
  obtain ⟨earlier, k, o, hends⟩ := Run.exists_ends_of_start hnew htime' hopt hscore
  have habreast : own.run.Abreast new.run own.clock new.clock :=
    ⟨huntimed, Run.timed_start hown htime, Run.timed_start hnew htime'⟩
  have hon : s.run.2.OnRun own.run own.clock := (run_of_start hs hblocks hown).2
  exact ⟨earlier, k, o, hends, replays_of_abreast hon habreast hnew hends⟩

/-- **Replays are faithful.** At any moment of a session with a run that has been started, however
it was interrupted or has ended, a way back leads to the editor. If the program is not edited there,
the session replays the run, since its last start. -/
theorem replays_wayBack (catalog : Catalog) (store : Store) (clock : Clock) (limit : Option Int)
    (speed : Speed) {deeds : List Deed} (hp : ∀ d ∈ deeds, d.isPlayers = true) :
    let s₀ := fresh catalog store clock limit speed
    let s := s₀.follow deeds
    ∀ a action, s.attempt = some a → a.run.startedAt.isSome = true → s.WayBack a action →
      (s.act action).1 = .ok (.flag true) ∧
      (∃ run, (s.act action).2.editing? = some { a with run }) ∧
      ∃ before since first, deeds = before ++ .act .run :: since ∧
        s₀.LastStart before since first a ∧
        ∀ between : List Deed, (∀ d ∈ between, d.isPlayers = true) →
          let editor := (s.act action).2.follow between
          ∀ b, editor.editing? = some b → b.program = a.program →
            s.ReplaysIn editor since first a limit := by
  intro s₀ s a action ha hstarted hback
  have hs : s.Holds := holds_follow (holds_fresh catalog store clock limit speed) hp
  have hlimit : s.limit = limit := limit_follow hp
  obtain ⟨before, since, first, hdeeds, hlast⟩ :=
    exists_lastStart (s := s₀) hp (fun _ h => by cases h) ha hstarted
  obtain ⟨hgranted, hediting⟩ := returns_of_wayBack ha hback
  refine ⟨hgranted, hediting, before, since, first, hdeeds, hlast, fun between hbetween => ?_⟩
  rintro editor ⟨program, run⟩ hb rfl
  have hplayers : ∀ d ∈ .act action :: between, d.isPlayers = true :=
    List.forall_mem_cons.mpr ⟨isPlayers_of_wayBack hback, hbetween⟩
  have hcoherent : editor.Coherent := coherent_follow hs.coherent hplayers
  have hfits : Attempt.Fits ⟨a.program, run⟩ limit := by
    rw [← hlimit, ← (limit_follow hplayers : editor.limit = s.limit)]
    exact hcoherent.fits _ (editing?_eq_some hb).2
  have haccepted : editor.run.1 = .ok true ↔ 0 < a.program.blocks.length ∧
      (Unrolled.unroll (Run.fresh a.level limit).cap a.program.blocks).isSome = true := by
    rw [run_iff hb, hfits.cap_eq a.level]
  have hcurrent : a.Current → editor.run.1 = .ok true := by
    intro hcurrent
    refine haccepted.mpr ⟨hcurrent.blocksUsed ▸ hlast.used, ?_⟩
    rw [← (hlimit ▸ hs.coherent.fits a ha : a.Fits limit).cap_eq a.level, hcurrent.stream]
    rfl
  have hreplays := exists_replays hb hfits
  exact
    { unedited := fun hedit => hcurrent (hlast.current_of_unedited hedit)
      accepted := fun hsame => hcurrent (current_of_wayBack hs ha hback hlast.current rfl hsame)
      accepted_iff := haccepted
      replays := hreplays }

end Session

/-! ## A sample -/

/-- A move and a jump are put together in the corridor, and run. -/
def corridorStart : List Deed :=
  [.act .openLevelSelect, .act (.select (.int 1)), .act .finishCountdown,
    .act (.add (.ok .moveForward) .unnamed), .act (.add (.ok .jump) .unnamed), .act .run]

/-- The blocks of the move and the jump, as the session has numbered them. -/
def corridorMoves : List Block :=
  [⟨.moveForward, Block.freshId 1, 0, none⟩, ⟨.jump, Block.freshId 2, 0, none⟩]

open Session in
/-- The run is stopped behind the move, left for the editor behind the jump, or retried from the
results. Each time the program is run again, it goes the way of a new run. -/
theorem replays_corridorRun :
    let s (since : List Deed) := (corridorSession (.memory .empty)).follow (corridorStart ++ since)
    let new := (Run.fresh corridor none).start corridorMoves .still
    ∀ way ∈ [(ticks 1, Action.stop), (ticks 2 ++ [.act .pause], .resume), (ticks 3, .retry)],
      let editor := ((s way.1).act way.2).2
      editor.run.1 = .ok true ∧ ∃ earlier o, editor.run.2.Replays new earlier o := by
  intro s new
  have hways : ∀ (since : List Deed) (action : Action), (∀ d ∈ since, d.isPlayers = true) →
      (∀ d ∈ since, d.isEdit = false) → .act .run ∉ since →
      (s since).attempt.map Attempt.level = some corridor →
      (s since).attempt.map (fun a => (a.program.blocks, a.run.startedAt)) =
        some (corridorMoves, some (.whole 0)) →
      (∀ a, (s since).attempt = some a → (s since).WayBack a action) →
      ((s since).act action).2.clock = .still →
      ((s since).act action).2.run.1 = .ok true ∧
        ∃ earlier o, ((s since).act action).2.run.2.Replays new earlier o := by
    intro since action hp hedit hrun hlevel hshows hback hclock
    obtain ⟨a, ha, hlevel⟩ := Option.map_eq_some_iff.mp hlevel
    rw [ha, Option.map_some, Option.some.injEq, Prod.mk.injEq] at hshows
    obtain ⟨hblocks, hstarted⟩ := hshows
    have hplayers : ∀ d ∈ corridorStart ++ since, d.isPlayers = true :=
      List.forall_mem_append.mpr ⟨by decide, hp⟩
    obtain ⟨-, ⟨run, hediting⟩, before, since', first, hdeeds, hlast, hedited⟩ :=
      replays_wayBack ⟨"levels", none, some [corridor]⟩ (.memory .empty) .still none .single
        hplayers a action ha (by rw [hstarted]; rfl) (hback a ha)
    -- No run is started behind the one with which the start ends.
    have hsince : since = since' := by
      simp only [corridorStart, List.cons_append, List.nil_append, List.cons_eq_append_iff,
        List.cons.injEq, Deed.act.injEq, reduceCtorEq, false_and, and_false, false_or,
        true_and] at hdeeds
      obtain ⟨-, -, -, -, -, -, -, -, -, -, ⟨-, rfl⟩ | ⟨rest, -, rfl⟩⟩ := hdeeds
      · rfl
      · exact absurd (List.mem_append_right rest List.mem_cons_self) hrun
    have hreplays : (s since).ReplaysIn ((s since).act action).2 since' first a none :=
      hedited [] (by simp) _ hediting rfl
    have htime : ∃ ms, ((s since).act action).2.clock.next.millisBetween
        ((s since).act action).2.clock.tick.next = .ok ms := by
      rw [hclock]
      exact ⟨0, rfl⟩
    have haccepted := hreplays.unedited (hsince ▸ hedit)
    have hends := hreplays.replays haccepted .still
    rw [hlevel, hblocks] at hends
    obtain ⟨earlier, k, o, -, hend⟩ := hends htime ⟨0, rfl⟩ (by decide) (by decide +kernel)
    exact ⟨haccepted, earlier, o, hend⟩
  intro way hway
  simp only [List.mem_cons, List.not_mem_nil, or_false] at hway
  rcases hway with rfl | rfl | rfl
  · have hstage : (s (ticks 1)).stage = .executing := by decide +kernel
    exact hways _ _ (by decide) (by decide) (by simp [ticks]) (by with_unfolding_all rfl)
      (by decide +kernel) (fun a _ => .stop (.inl hstage)) (by decide +kernel)
  · have hstage : (s (ticks 2 ++ [.act .pause])).stage = .paused := by decide +kernel
    have hspent : (s (ticks 2 ++ [.act .pause])).attempt.all (·.run.isExhausted) = true := by
      decide +kernel
    refine hways _ _ (by decide) (by decide) (by simp [ticks]) (by with_unfolding_all rfl)
      (by decide +kernel) (fun a ha => .resume hstage ?_) (by decide +kernel)
    rw [ha] at hspent
    exact hspent
  · have hstage : (s (ticks 3)).stage = .results := by decide +kernel
    exact hways _ _ (by decide) (by decide) (by simp [ticks]) (by with_unfolding_all rfl)
      (by decide +kernel) (fun a _ => .retry (by rw [hstage]; rfl)) (by decide +kernel)

/-- A run of one move is paused behind it, so that its end leads to the editor. There the program is
emptied, and the editor is paused. -/
def corridorEmptied : List Deed :=
  [.act .openLevelSelect, .act (.select (.int 1)), .act .finishCountdown,
    .act (.add (.ok .moveForward) .unnamed), .act .run, .act .tick, .act .pause, .act .resume,
    .act .clearProgram, .act .pause]

open Session in
/-- **A stop may lead to a program that is refused**: the session holds a run that has been started,
and it is stopped, but the program has been emptied under it. -/
theorem emptied_program_refused :
    let s := (corridorSession (.memory .empty)).follow corridorEmptied
    (∃ a, s.attempt = some a ∧ a.run.startedAt.isSome = true ∧ s.WayBack a .stop) ∧
      (s.act .stop).1 = .ok (.flag true) ∧ (s.act .stop).2.run.1 = .ok false := by
  intro s
  have hstage : s.stage = .paused := by decide +kernel
  have hstarted : s.attempt.map (·.run.startedAt) = some (some (.whole 0)) := by decide +kernel
  obtain ⟨a, ha, hstarted⟩ := Option.map_eq_some_iff.mp hstarted
  have hway : s.WayBack a .stop := .stop (.inr hstage)
  refine ⟨⟨a, ha, ?_, hway⟩, (returns_of_wayBack ha hway).1, by with_unfolding_all rfl⟩
  rw [hstarted]
  rfl

end RobotPuzzle
