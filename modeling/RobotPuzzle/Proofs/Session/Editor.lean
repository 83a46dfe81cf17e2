import RobotPuzzle.Proofs.Session.Loop

/-!
# What the editor shows

A session shows the world of its run, the cursor and the history, also while its program is edited.
The countdown, a stop, a retry and a run that is refused lead to an editor that shows the level as
it was at first. A pause does not always: a run that is paused behind its last instruction has
nothing left to go on with, so that the end of the pause leads to the editor, which then shows what
the run has come to.

* `Session.fresh_or_spent`: the editor shows the level as at first, or a run without anything left.
* `Session.editor_after`: which deeds lead to an editor that shows something else.
* `Session.showsEditor_performAll`: what the editor shows, from a fresh session.
* `Session.editor_shows_spent_run`: it does not always show the level as at first.
-/

namespace RobotPuzzle

/-- Before its first instruction, the world of a run is the level's initial one. -/
def Run.Rooted (r : Run) : Prop := r.cursor = 0 → r.world = r.level.initialWorld

theorem Run.rooted_step {r : Run} (h : r.Rooted) (clock : Clock) : (r.step clock).run.Rooted := by
  rcases r.run_step_cases clock with ⟨outcome, hrun⟩ | ⟨block, outcome, -, hrun⟩ <;> rw [hrun]
  · exact h
  · intro hcursor
    cases hcursor

namespace Session

/-- The session shows the level as at first: its initial world, and nothing executed. -/
structure ShowsFresh (s : Session) : Prop where
  world : ∃ a, s.attempt = some a ∧ s.world? = some a.level.initialWorld
  cursor : s.cursor = 0
  history : s.history = []

/-- The session shows a run of which all instructions have been executed, one at least, and which
has not been judged. -/
structure ShowsSpent (s : Session) : Prop where
  run : ∃ a, s.attempt = some a ∧ a.run.outcome = none ∧ s.cursor = a.run.stream.length
  cursor : 0 < s.cursor
  history : s.history.length = s.cursor

/-- Two sessions show the same run. -/
def ShowsAs (s s' : Session) : Prop := s'.attempt.map Attempt.run = s.attempt.map Attempt.run

/-- What the display of a session relies on. -/
structure Displays (s : Session) : Prop where
  coherent : s.Coherent
  inOrder : ∀ a, s.attempt = some a → a.run.InOrder
  rooted : ∀ a, s.attempt = some a → a.run.Rooted
  countdown : s.stage = .countdown → s.cursor = 0

variable {s s' : Session}

theorem showsFresh_of_cursor (hs : s.Displays) {a : Attempt} (ha : s.attempt = some a)
    (hc : s.cursor = 0) : s.ShowsFresh := by
  have hcursor : a.run.cursor = 0 := by simpa [cursor, ha] using hc
  have hlevel : a.run.level = a.level := (hs.coherent.fits a ha).level
  have hhistory : a.run.history = [] := by
    have hblocks := (hs.inOrder a ha).blocks
    rw [hcursor, List.take_zero] at hblocks
    exact List.map_eq_nil_iff.mp hblocks
  refine ⟨⟨a, ha, ?_⟩, hc, ?_⟩
  · rw [world?, ha, ← hlevel, ← hs.rooted a ha hcursor]
    rfl
  · rw [history, ha]
    exact hhistory

/-- The editor shows the level as at first, or a run without anything left. -/
theorem fresh_or_spent (hs : s.Displays) (hstage : s.stage = .building) :
    s.ShowsFresh ∨ s.ShowsSpent := by
  have hin : s.scene.InStage s.stage := hs.coherent.inStage
  rw [hstage] at hin
  obtain ⟨a, ha, hidle⟩ := hin
  have ha : s.attempt = some a := ha
  by_cases hc : s.cursor = 0
  · exact .inl (showsFresh_of_cursor hs ha hc)
  · have horder := hs.inOrder a ha
    have hcursor : s.cursor = a.run.cursor := by simp [cursor, ha]
    have hall : a.run.cursor = a.run.stream.length :=
      Nat.le_antisymm horder.cursor_le (by simpa [Run.isExhausted] using hidle.exhausted)
    have hlength : a.run.history.length = a.run.cursor := by
      have hblocks := congrArg List.length horder.blocks
      simpa [horder.cursor_le] using hblocks
    refine .inr ⟨⟨a, ha, hidle.outcome, hcursor.trans hall⟩, Nat.pos_of_ne_zero hc, ?_⟩
    rw [hcursor, ← hlength, history, ha]
    rfl

theorem ShowsSpent.not_fresh (h : s.ShowsSpent) : ¬ s.ShowsFresh := fun hf =>
  absurd hf.cursor (Nat.pos_iff_ne_zero.mp h.cursor)

theorem ShowsAs.cursor_eq (h : s.ShowsAs s') : s'.cursor = s.cursor := by
  have hcursor := congrArg (Option.map Run.cursor) h
  simp only [Option.map_map] at hcursor
  exact congrArg (·.getD 0) hcursor

theorem ShowsAs.history_eq (h : s.ShowsAs s') : s'.history = s.history := by
  have hhistory := congrArg (Option.map Run.history) h
  simp only [Option.map_map] at hhistory
  exact congrArg (·.getD []) hhistory

theorem ShowsAs.spent (h : s.ShowsAs s') (hs : s'.ShowsSpent) : s.ShowsSpent := by
  obtain ⟨a', ha', hout, hlength⟩ := hs.run
  have hrun : s.attempt.map Attempt.run = some a'.run := by
    rw [← show s'.attempt.map Attempt.run = s.attempt.map Attempt.run from h, ha']
    rfl
  obtain ⟨a, ha, hsame⟩ := Option.map_eq_some_iff.mp hrun
  refine ⟨⟨a, ha, ?_, ?_⟩, ?_, ?_⟩
  · rw [hsame, hout]
  · rw [hsame, ← h.cursor_eq, hlength]
  · rw [← h.cursor_eq]
    exact hs.cursor
  · rw [← h.cursor_eq, ← h.history_eq]
    exact hs.history

/-! ## What deeds keep -/

theorem rooted_of_leads (hs : ∀ a, s.attempt = some a → a.run.Rooted) (h : s.Leads s') :
    ∀ a, s'.attempt = some a → a.run.Rooted :=
  run_of_leads (fun _ _ _ hworld _ => hworld) (fun _ clock hr => Run.rooted_step hr clock) hs h

/-- A countdown is entered with a fresh attempt only. -/
theorem countdown_of_leads (hs : s.stage = .countdown → s.cursor = 0) (h : s.Leads s')
    (hstage' : s'.stage = .countdown) : s'.cursor = 0 := by
  have hpassage := h.passage
  have hcursor : s'.cursor = (s'.scene.attempt.map (·.run.cursor)).getD 0 := rfl
  have hscene : s'.scene.stage = .countdown := hstage'
  rw [hcursor]
  generalize s'.scene = c at hpassage hscene ⊢
  cases hpassage with
  | stay => exact hs hscene
  | begin | refuse | rewind => rfl
  | walk target h =>
    have htarget : ∀ move ∈ walks, move.2 ≠ .countdown := by decide
    exact absurd hscene (htarget _ h)
  | edit a program hstage ha | turn a hstage ha =>
    have hscene : s.stage = .countdown := hscene
    rw [hscene] at hstage
    cases hstage
  | resume a hstage ha =>
    have hne : (if a.run.isExhausted then Stage.building else .executing) ≠ .countdown := by
      split <;> decide
    exact absurd hscene hne
  | conclude a report o =>
    have hover := isOver_ending o
    rw [show ending o = .countdown from hscene] at hover
    cases hover
  | start | reset => cases hscene

theorem displays_of_leads (hs : s.Displays) (h : s.Leads s') : s'.Displays where
  coherent := coherent_of_leads hs.coherent h
  inOrder := inOrder_of_leads hs.inOrder h
  rooted := rooted_of_leads hs.rooted h
  countdown := countdown_of_leads hs.countdown h

theorem displays_fresh (catalog : Catalog) (store : Store) (clock : Clock) (limit : Option Int)
    (speed : Speed) : (fresh catalog store clock limit speed).Displays where
  coherent := coherent_fresh catalog store clock limit speed
  inOrder := fun _ ha => by cases ha
  rooted := fun _ ha => by cases ha
  countdown := fun _ => rfl

/-! ## Ways into the editor -/

theorem showsFresh_of_reset (hs : s.Displays) {a : Attempt}
    (ha : s.attempt = some { a with run := a.run.reset }) : s.ShowsFresh :=
  showsFresh_of_cursor hs ha (by rw [cursor, ha]; rfl)

theorem attempt_stop_of_paused (hs : s.stage = .paused) {a : Attempt} (ha : s.attempt = some a) :
    s.stop.2.attempt = some { a with run := a.run.reset } := by
  rw [stop_eq (.inr hs) ha]
  rfl

/-- From a pause, only its end leads to an editor that may show something else. -/
theorem editor_after_of_paused (hs : s.Displays) (hstage : s.stage = .paused) {d : Deed}
    (hd : d.isPlayers = true) (hb : (s.after d).stage = .building) :
    (s.after d).ShowsFresh ∨ s.ShowsAs (s.after d) ∧ d = .act .resume := by
  have hs' := displays_of_leads hs (leads_after hd s)
  cases haffects : d.affects s.stage with
  | false =>
    have hsame := (agrees_after (.inr hstage) haffects).stage
    rw [hb, hstage] at hsame
    cases hsame
  | true =>
    rw [hstage] at haffects
    cases d with
    | beginPlay | sleep => cases haffects
    | act action =>
      cases action with
      | resume => exact .inr ⟨congrArg (Option.map Attempt.run) s.attempt_resume, rfl⟩
      | stop =>
        have hin : s.scene.InStage s.stage := hs.coherent.inStage
        rw [hstage] at hin
        obtain ⟨a, ha, -⟩ := hin
        exact .inl (showsFresh_of_reset hs' (attempt_stop_of_paused hstage ha))
      | reset =>
        rw [show (s.after (.act .reset)).stage = .menu from s.stage_reset] at hb
        cases hb
      | transition | saveProgress => cases hd
      | _ => cases haffects

/-- Every deed that leads to the editor, or stays in it, leaves it showing the level as at first or
what was shown before; and a pause is the only other stage from which it shows what was shown. -/
theorem editor_after (hs : s.Displays) {d : Deed} (hd : d.isPlayers = true)
    (hb : (s.after d).stage = .building) :
    (s.after d).ShowsFresh ∨
      s.ShowsAs (s.after d) ∧ (s.stage = .building ∨ s.stage = .paused ∧ d = .act .resume) := by
  by_cases hpaused : s.stage = .paused
  · exact (editor_after_of_paused hs hpaused hd hb).imp_right fun h => ⟨h.1, .inr ⟨hpaused, h.2⟩⟩
  · have hs' := displays_of_leads hs (leads_after hd s)
    have hpassage := (leads_after hd s).passage
    have hstage : (s.after d).scene.stage = .building := hb
    have hattempt : (s.after d).scene.attempt = (s.after d).attempt := rfl
    generalize (s.after d).scene = c at hpassage hstage hattempt
    cases hpassage with
    | stay => exact .inr ⟨congrArg (Option.map Attempt.run) hattempt.symm, .inl hstage⟩
    | walk target h =>
      have hwalk : ∀ move ∈ walks, move.2 = .building → move.1 = .countdown := by decide
      have hcursor : (s.after d).cursor = s.cursor := by
        rw [cursor, cursor, ← hattempt]
        rfl
      have hin : (s.after d).scene.InStage (s.after d).stage := hs'.coherent.inStage
      rw [hb] at hin
      obtain ⟨a, ha, -⟩ := hin
      exact .inl (showsFresh_of_cursor hs' ha
        (hcursor.trans (hs.countdown (hwalk _ h hstage))))
    | edit a program _ ha =>
      refine .inr ⟨?_, .inl hstage⟩
      rw [ShowsAs, ← hattempt, ha]
      rfl
    | refuse a | rewind a => exact .inl (showsFresh_of_reset hs' hattempt.symm)
    | resume a h => exact absurd h hpaused
    | turn a h =>
      rw [show s.stage = .building from hstage] at h
      cases h
    | conclude a report o =>
      have hover := isOver_ending o
      rw [show ending o = .building from hstage] at hover
      cases hover
    | begin | start | reset => cases hstage

/-- A pause behind the last instruction of a run ends in the editor, which shows the run. -/
theorem editor_after_resume (hs : s.stage = .paused) (hspent : s.ShowsSpent) :
    (s.after (.act .resume)).stage = .building ∧ (s.after (.act .resume)).ShowsSpent := by
  obtain ⟨a, ha, hout, hlength⟩ := hspent.run
  have hexhausted : a.run.isExhausted = true := by
    simpa [Run.isExhausted, cursor, ha] using Nat.le_of_eq hlength.symm
  have hresume : s.after (.act .resume) = s.goTo .building := by
    show s.resume.2 = s.goTo .building
    rw [resume_eq hs ha, hexhausted]
    rfl
  rw [hresume]
  exact ⟨rfl, ⟨a, ha, hout, hlength⟩, hspent.cursor, hspent.history⟩

theorem run_of_too_long (hs : s.stage = .building) {a : Attempt} (ha : s.attempt = some a)
    (hlong : Unrolled.unroll a.run.cap a.program.blocks = none) :
    s.run.2.stage = .building ∧ s.run.2.attempt = some { a with run := a.run.reset } := by
  have hediting : s.editing? = some a := (if_pos hs).trans ha
  have hblocks : a.program.blocks.isEmpty = false :=
    List.isEmpty_eq_false_iff.mpr (Unrolled.ne_nil_of_unroll hlong)
  simp only [run, hediting, hblocks, Bool.false_eq_true, ↓reduceIte, startRun, Run.start, hlong]
  exact ⟨hs, rfl⟩

/-- A run that is refused because the program is too long leaves the editor showing the level as at
first. -/
theorem editor_after_refusal (hs : s.Displays) (hstage : s.stage = .building) {a : Attempt}
    (ha : s.attempt = some a) (hlong : Unrolled.unroll a.run.cap a.program.blocks = none) :
    (s.after (.act .run)).stage = .building ∧ (s.after (.act .run)).ShowsFresh := by
  obtain ⟨hbuilding, hattempt⟩ := run_of_too_long hstage ha hlong
  have hd : (Deed.act .run).isPlayers = true := rfl
  exact ⟨hbuilding, showsFresh_of_reset (displays_of_leads hs (leads_after hd s)) hattempt⟩

/-- Unless a pause has ended behind the last instruction of a run, the editor shows the level as at
first. -/
theorem showsFresh_follow (hs : s.Displays) (hfresh : s.stage = .building → s.ShowsFresh)
    {deeds : List Deed} (hp : ∀ d ∈ deeds, d.isPlayers = true)
    (hpauses : ∀ before rest, deeds = before ++ .act .resume :: rest →
      (s.follow before).stage = .paused → ¬ (s.follow before).ShowsSpent)
    (hb : (s.follow deeds).stage = .building) : (s.follow deeds).ShowsFresh := by
  induction deeds generalizing s with
  | nil => exact hfresh hb
  | cons d rest ih =>
    have hd := hp d List.mem_cons_self
    have hs' := displays_of_leads hs (leads_after hd s)
    refine ih hs' (fun hstage => ?_) (fun d' hd' => hp d' (List.mem_cons_of_mem d hd'))
      (fun before more h => ?_) hb
    · rcases editor_after hs hd hstage with h | ⟨has, hfrom⟩
      · exact h
      · refine (fresh_or_spent hs' hstage).resolve_right fun hspent => ?_
        rcases hfrom with h | ⟨hpaused, rfl⟩
        · exact (has.spent hspent).not_fresh (hfresh h)
        · exact hpauses [] rest rfl hpaused (has.spent hspent)
    · exact hpauses (d :: before) more (by rw [h]; rfl)

/-! ## The editor of a session -/

/-- What the editor of a session shows, when deeds have been done. -/
structure ShowsEditor (s : Session) (deeds : List Deed) : Prop where
  /-- The editor shows the level as at first, unless a pause has ended behind the last instruction
  of a run. -/
  fresh : (∀ before rest, deeds = before ++ .act .resume :: rest →
      (s.follow before).stage = .paused → ¬ (s.follow before).ShowsSpent) →
    (s.follow deeds).stage = .building → (s.follow deeds).ShowsFresh
  /-- All that it can show besides is a run without anything left. -/
  always : (s.follow deeds).stage = .building →
    (s.follow deeds).ShowsFresh ∨ (s.follow deeds).ShowsSpent
  /-- Every other way into the editor leads to the level as at first. -/
  entered : ∀ d : Deed, d.isPlayers = true → (s.follow deeds).stage ≠ .building →
    ((s.follow deeds).after d).stage = .building →
    ((s.follow deeds).after d).ShowsFresh ∨
      d = .act .resume ∧ (s.follow deeds).stage = .paused ∧ (s.follow deeds).ShowsSpent
  /-- So does a run that is refused. -/
  refused : ∀ a, (s.follow deeds).stage = .building → (s.follow deeds).attempt = some a →
    Unrolled.unroll a.run.cap a.program.blocks = none →
    ((s.follow deeds).after (.act .run)).stage = .building ∧
      ((s.follow deeds).after (.act .run)).ShowsFresh
  /-- The end of such a pause leads to an editor that shows the run. -/
  resumed : (s.follow deeds).stage = .paused → (s.follow deeds).ShowsSpent →
    ((s.follow deeds).after (.act .resume)).stage = .building ∧
      ((s.follow deeds).after (.act .resume)).ShowsSpent

theorem showsEditor_follow (catalog : Catalog) (store : Store) (clock : Clock)
    (limit : Option Int) (speed : Speed) {deeds : List Deed}
    (hp : ∀ d ∈ deeds, d.isPlayers = true) :
    (fresh catalog store clock limit speed).ShowsEditor deeds := by
  have hfirst := displays_fresh catalog store clock limit speed
  have hnow := follow_induction hfirst (fun _ _ => displays_of_leads) hp
  refine
    { fresh := showsFresh_follow hfirst (fun h => by cases h) hp
      always := fresh_or_spent hnow
      entered := fun d hd hout hin => ?_
      refused := fun a hstage => editor_after_refusal hnow hstage
      resumed := editor_after_resume }
  rcases editor_after hnow hd hin with h | ⟨has, hstage | ⟨hpaused, rfl⟩⟩
  · exact .inl h
  · exact absurd hstage hout
  · have hthen := displays_of_leads hnow (leads_after hd _)
    exact (fresh_or_spent hthen hin).imp_right fun hspent => ⟨rfl, hpaused, has.spent hspent⟩

/-- **What the editor shows.** From a fresh session, in any order of players' deeds, the editor
shows the level as at first, whichever way it was entered, except after a pause that ended behind
the last instruction of a run, when it shows the run; and so it is at every moment of what players'
requests come to, those made during sleeps included. -/
theorem showsEditor_performAll (catalog : Catalog) (store : Store) (clock : Clock)
    (limit : Option Int) (speed : Speed) :
    let s := fresh catalog store clock limit speed
    (∀ deeds : List Deed, (∀ d ∈ deeds, d.isPlayers = true) → s.ShowsEditor deeds) ∧
    ∀ requests : List Request, Request.arePlayers requests = true →
      s.follow (deedsAll requests s) = (performAll requests s).2 ∧
      ∀ moment, moment <+: deedsAll requests s → s.ShowsEditor moment := by
  intro s
  have hdeeds : ∀ deeds : List Deed, (∀ d ∈ deeds, d.isPlayers = true) → s.ShowsEditor deeds :=
    fun deeds => showsEditor_follow catalog store clock limit speed
  refine ⟨hdeeds, fun requests hp => ⟨follow_deedsAll requests s, fun moment hm => ?_⟩⟩
  exact hdeeds moment fun d hd => isPlayers_of_mem_deedsAll hp (hm.subset hd)

end Session

/-! ## A sample -/

/-- A visit to the corridor in which the run is paused behind its only instruction. -/
def corridorPause : List Request :=
  [.act .openLevelSelect, .act (.select (.int 1)), .act .finishCountdown,
    .act (.add (.ok .moveForward) .unnamed), .act .run, .act .tick, .act .pause, .act .resume]

open Session in
/-- The end of the pause leads to an editor that shows the run, and a stop in its place to one that
shows the level as at first. -/
theorem showsEditor_corridorPause :
    let s := corridorSession (.memory .empty)
    let deeds := deedsAll corridorPause s
    ((s.follow deeds).stage = .building ∧ (s.follow deeds).ShowsSpent) ∧
      ((s.follow (deeds.take 7)).stage = .paused ∧
        ((s.follow (deeds.take 7)).after (.act .stop)).ShowsFresh) := by
  intro s deeds
  obtain ⟨hdeeds, hrequests⟩ :=
    showsEditor_performAll ⟨"levels", none, some [corridor]⟩ (.memory .empty) .still none .single
  have hend : s.ShowsEditor deeds :=
    (hrequests corridorPause (by decide +kernel)).2 deeds (List.prefix_refl _)
  have hpaused : s.ShowsEditor (deeds.take 7) := hdeeds _ (by decide +kernel)
  have hstage : (s.follow deeds).stage = .building := by decide +kernel
  have hcursor : (s.follow deeds).cursor = 1 := by decide +kernel
  refine ⟨⟨hstage, (hend.always hstage).resolve_left fun h => ?_⟩, by decide +kernel, ?_⟩
  · rw [h.cursor] at hcursor
    cases hcursor
  · have hstop := hpaused.entered (.act .stop) rfl (by decide +kernel) (by decide +kernel)
    refine hstop.resolve_right ?_
    rintro ⟨h, -⟩
    cases h

open Session in
/-- **The editor does not always show the level as at first**: it shows what has come of the run. -/
theorem editor_shows_spent_run :
    let s := (performAll corridorPause (corridorSession (.memory .empty))).2
    s.stage = .building ∧ s.cursor = 1 ∧ s.history.length = 1 ∧
      s.world? ≠ some corridor.initialWorld := by
  intro s
  refine ⟨by decide +kernel, by decide +kernel, by decide +kernel, fun h => ?_⟩
  have hposition : s.world?.map (·.robot.position) ≠ some corridor.start := by
    decide +kernel
  exact hposition (congrArg (Option.map (·.robot.position)) h)

end RobotPuzzle
