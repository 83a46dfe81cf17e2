import RobotPuzzle.Proofs.Run.Reached
import RobotPuzzle.Proofs.Session.Itinerary
import RobotPuzzle.Proofs.Session.Loop

/-!
# What playing returns

Playing drives the run that is on, and returns an outcome when a run is over as its loop ends. While
it sleeps, the run may be aborted. Unless another run is started meanwhile, playing then returns
nothing, and it returns an outcome only if the run that it drove has come to it. The loop does not
look whether the run that is over is the one that it drove: if another run has been started and has
come to its end before the loop wakes up, playing returns the outcome of that one.

* `Scene.carries_or_off_of_passage`, `Scene.idles_of_passage`: a run stays the one that it is until
  it is left, and then none is on until one is started.
* `Session.returnsOutcome_perform`: what playing returns, at any moment from a fresh session.
* `Session.play_returns_other_outcome`: the outcome need not be that of the run it drove.
-/

namespace RobotPuzzle

/-- The outcome that a reply to playing returns. -/
def Reply.outcome? : Reply → Option Outcome
  | .played outcome _ _ => outcome
  | .answered _ | .counted _ _ _ => none

open Session

namespace Scene

/-- A run is on, has been paused, or has come to its end. -/
structure Carries (r : Run) (c : Scene) : Prop where
  stage : c.stage ∈ rewinding
  attempt : ∃ a, c.attempt = some a ∧ r.Onward a.run

/-- No run is on, and none has been paused that could be gone on with. -/
def Idles (c : Scene) : Prop :=
  c.stage ∉ rewinding ∨ c.stage = .paused ∧ ∀ a, c.attempt = some a → a.run.isExhausted = true

theorem ending_mem_rewinding (o : Outcome) : ending o ∈ rewinding :=
  mem_rewinding_of_isOver (isOver_ending o)

theorem Idles.not_executing {c : Scene} (h : c.Idles) : c.stage ≠ .executing := by
  rintro hs
  rcases h with h | ⟨h, -⟩
  · exact h (hs ▸ by decide)
  · rw [hs] at h
    cases h

theorem Idles.not_over {c : Scene} (h : c.Idles) : c.stage.isOver = false := by
  rcases h with h | ⟨h, -⟩
  · revert h
    cases c.stage <;> decide
  · rw [h]
    rfl

variable {s : Session} {c : Scene} {r : Run}

/-- A run stays the one that it is until it is left. -/
theorem carries_or_off_of_passage (h : Passage s c) (hs : s.scene.Carries r) :
    c.Carries r ∨ c.stage ∉ rewinding := by
  have hstage : s.stage ∈ rewinding := hs.stage
  obtain ⟨a, ha, honward⟩ := hs.attempt
  have ha : s.attempt = some a := ha
  have hsame : ∀ target, Carries r { s.scene with stage := target } ∨ target ∉ rewinding :=
    fun target => (Decidable.em (target ∈ rewinding)).imp_left fun h => ⟨h, a, ha, honward⟩
  cases h with
  | stay => exact .inl hs
  | walk target h => exact hsame target
  | resume b hb => exact hsame _
  | begin | rewind | reset => exact .inr (by simp [rewinding])
  | edit b program hb | refuse b hb | start b stream hb =>
    rw [hb] at hstage
    exact absurd hstage (by decide)
  | turn b hb hattempt =>
    cases ha.symm.trans hattempt
    exact .inl ⟨hstage, _, rfl, honward.step _⟩
  | conclude b report o hb hattempt =>
    cases ha.symm.trans hattempt
    exact .inl ⟨ending_mem_rewinding o, _, rfl, honward.step _⟩

/-- Where no run is on, none is until one is started. -/
theorem idles_of_passage {limit : Option Int} (h : Passage s c) (hs : s.scene.Coherent limit)
    (hi : s.scene.Idles) (hstart : s.stage = .building → c.stage ≠ .executing) : c.Idles := by
  have hnot : s.stage ≠ .executing := hi.not_executing
  cases h with
  | stay => exact hi
  | walk target h =>
    have hwalk : ∀ move ∈ walks, move.1 ≠ .executing →
        move.2 ∉ rewinding ∨ move = (.building, .paused) := by decide
    refine (hwalk _ h hnot).imp id fun hmove => ?_
    obtain ⟨hbuilding, rfl⟩ := Prod.mk.inj hmove
    exact ⟨rfl, fun a ha => (hs.idle hbuilding ha).exhausted⟩
  | begin | rewind | reset => exact .inl (by simp [rewinding])
  | edit b program hb | refuse b hb =>
    exact .inl (show s.stage ∉ rewinding from hb ▸ by decide)
  | start b stream hb => exact absurd rfl (hstart hb)
  | resume b hb hattempt =>
    have hexhausted : b.run.isExhausted = true := by
      rcases hi with h | ⟨-, h⟩
      · exact absurd (show s.stage ∈ rewinding from hb ▸ by decide) h
      · exact h b hattempt
    rw [hexhausted]
    exact .inl (by simp [rewinding])
  | turn b hb | conclude b report o hb => exact absurd hb hnot

end Scene

namespace Session

/-! ## Runs that are started, and runs that are aborted -/

/-- A deed starts a run. -/
def Starts (s : Session) : Deed → Prop
  | .act .run => s.run.1 = .ok true
  | _ => False

/-- A deed aborts the run. -/
def Aborts (s : Session) : Deed → Prop
  | .act .stop => s.stop.1 = .ok true
  | .act .reset => True
  | _ => False

/-- None of the deeds starts a run. -/
def StartsNone (s : Session) : List Deed → Prop
  | [] => True
  | d :: rest => ¬ s.Starts d ∧ (s.after d).StartsNone rest

/-- One of the deeds aborts the run. -/
def AbortsIn (s : Session) : List Deed → Prop
  | [] => False
  | d :: rest => s.Aborts d ∨ (s.after d).AbortsIn rest

variable {s : Session} {d : Deed} {deeds : List Deed} {r : Run}

/-- Only a deed that starts a run leads from the editor to one. -/
theorem starts_of_executing (hd : d.isPlayers = true) (hb : s.stage = .building)
    (he : (s.after d).stage = .executing) : s.Starts d := by
  rcases s.takesOver_or_keeps hd with ⟨htakes, -⟩ | ⟨-, hkeeps⟩
  · cases d with
    | sleep millis => cases htakes
    | beginPlay speed =>
      rw [show (s.after (.beginPlay speed)).stage = s.stage from (s.stays_beginPlay speed).stage,
        hb] at he
      cases he
    | act a =>
      cases a with
      | run => exact htakes
      | pause =>
        rw [show s.after (.act .pause) = s.retire.goTo .paused from snd_pause_of_building hb] at he
        cases he
      | stop =>
        rcases s.stop_cases with h | ⟨a, hs, -, -⟩
        · rw [TakesOver, h] at htakes
          cases htakes
        · rw [hb] at hs
          rcases hs with h | h <;> cases h
      | reset =>
        rw [show (s.after (.act .reset)).stage = .menu from s.stage_reset] at he
        cases he
      | _ => cases htakes
  · rcases hkeeps.stage with h | h | h
    · rw [hb] at h
      cases h
    · rw [hb, he] at h
      cases h
    · exact absurd (he ▸ by decide) h

theorem stage_of_aborts (h : s.Aborts d) : (s.after d).stage ∉ rewinding := by
  unfold Aborts at h
  split at h
  · rcases s.stop_cases with hstop | ⟨a, -, -, hstop⟩
    · rw [hstop] at h
      cases h
    · rw [show (s.after (.act .stop)).stage = .building from congrArg (·.2.stage) hstop]
      decide
  · rw [show (s.after (.act .reset)).stage = .menu from s.stage_reset]
    decide
  · cases h

/-! ## What a run and its loop come to -/

/-- Where no run is on, and none is started, none is on behind the deeds. -/
theorem idles_follow (hs : s.Coherent) (hi : s.scene.Idles)
    (hp : ∀ d ∈ deeds, d.isPlayers = true) (hn : s.StartsNone deeds) :
    (s.follow deeds).scene.Idles := by
  induction deeds generalizing s with
  | nil => exact hi
  | cons d rest ih =>
    have hd := hp d List.mem_cons_self
    have hl := leads_after hd s
    refine ih (coherent_of_leads hs hl) ?_ (fun d' hd' => hp d' (List.mem_cons_of_mem d hd')) hn.2
    exact Scene.idles_of_passage hl.passage hs hi fun hb he => hn.1 (starts_of_executing hd hb he)

/-- Behind an abortion, none is on if none is started. -/
theorem idles_of_abortsIn (hs : s.Coherent) (hp : ∀ d ∈ deeds, d.isPlayers = true)
    (hn : s.StartsNone deeds) (ha : s.AbortsIn deeds) : (s.follow deeds).scene.Idles := by
  induction deeds generalizing s with
  | nil => cases ha
  | cons d rest ih =>
    have hs' := coherent_of_leads hs (leads_after (hp d List.mem_cons_self) s)
    have hrest : ∀ d' ∈ rest, d'.isPlayers = true :=
      fun d' hd' => hp d' (List.mem_cons_of_mem d hd')
    rw [follow_cons]
    rcases ha with ha | ha
    · exact idles_follow hs' (.inl (stage_of_aborts ha)) hrest hn.2
    · exact ih hs' hrest hn.2 ha

/-- A run stays the one that it is, or none is on, if none is started. -/
theorem carries_or_idles_follow (hs : s.Coherent) (hc : s.scene.Carries r)
    (hp : ∀ d ∈ deeds, d.isPlayers = true) (hn : s.StartsNone deeds) :
    (s.follow deeds).scene.Carries r ∨ (s.follow deeds).scene.Idles := by
  induction deeds generalizing s with
  | nil => exact .inl hc
  | cons d rest ih =>
    have hl := leads_after (hp d List.mem_cons_self) s
    have hs' := coherent_of_leads hs hl
    have hrest : ∀ d' ∈ rest, d'.isPlayers = true :=
      fun d' hd' => hp d' (List.mem_cons_of_mem d hd')
    rw [follow_cons]
    rcases Scene.carries_or_off_of_passage hl.passage hc with hc' | hoff
    · exact ih hs' hc' hrest hn.2
    · exact .inr (idles_follow hs' (.inl hoff) hrest hn.2)

theorem isOver_conclude (hs : s.stage = .executing) (o : Outcome) :
    (s.conclude o).2.stage.isOver = true := by
  obtain ⟨message, journal, hconclude⟩ := snd_conclude hs o
  rw [hconclude]
  exact isOver_ending o

/-- A tick of a run that is on leaves it on, or ends it. -/
theorem stage_tick (hs : s.stage = .executing) :
    s.tick.2.stage = .executing ∨ s.tick.2.stage.isOver = true := by
  rcases s.tick_cases with h | ⟨a, -, ha⟩
  · rw [h]
    exact .inl hs
  · have hturn := (stays_afterTurn a (a.run.step s.clock)).stage.trans hs
    rcases hvalue : (a.run.step s.clock).value with fault | ⟨step, _ | o⟩
    · rw [tick_of_fault hs ha hvalue]
      exact .inl hturn
    · rw [tick_of_running hs ha hvalue]
      exact .inl ((stays_tellStep _).stage.trans hturn)
    · rw [tick_of_ending hs ha hvalue]
      exact .inr (isOver_conclude ((stays_tellStep _).stage.trans hturn) o)

variable {speed : Option (Except Fault Speed)} {during : List (List Request)}

/-- Playing that begins drives the run, and replies what has come of it. -/
theorem perform_play {begun : Session} (hb : s.beginPlay speed = (.ok (), begun)) :
    perform (.play speed during) s =
      playReply begun.journal.length (drive begun.generation during begun).1
        (drive begun.generation during begun).2.1 (drive begun.generation during begun).2.2 := by
  rw [perform, hb]

/-- Playing that begins leads where the deeds of its loop lead. -/
theorem snd_perform_play {begun : Session} (hb : s.beginPlay speed = (.ok (), begun)) :
    (perform (.play speed during) s).2 =
      begun.follow (deedsLoop begun.generation during begun) := by
  rw [perform_play hb, snd_playReply, follow_deedsLoop]

/-- Playing that returns an outcome has begun, and ends where a run is over, with its outcome. -/
theorem over_of_outcome? {o : Outcome}
    (h : (perform (.play speed during) s).1.outcome? = some o) :
    (∃ begun, s.beginPlay speed = (.ok (), begun)) ∧
      (perform (.play speed during) s).2.stage.isOver = true ∧
      (perform (.play speed during) s).2.lastOutcome = some o := by
  rcases hb : s.beginPlay speed with ⟨fault | ⟨⟩, begun⟩
  · rw [perform, hb] at h
    cases h
  · refine ⟨⟨begun, rfl⟩, ?_⟩
    rw [perform_play hb] at h ⊢
    generalize (drive begun.generation during begun).2.1 = fault? at h ⊢
    generalize (drive begun.generation during begun).2.2 = s' at h ⊢
    have hplayed : s'.playedOutcome = some o := by
      cases fault? with
      | none => exact h
      | some fault => cases h
    rw [snd_playReply]
    unfold playedOutcome at hplayed
    split at hplayed
    · next hover => exact ⟨hover, hplayed⟩
    · cases hplayed

/-- Playing that leaves no run on, or over, returns no outcome. -/
theorem perform_play_of_idles {begun : Session} (hb : s.beginPlay speed = (.ok (), begun))
    (hi : (perform (.play speed during) s).2.scene.Idles) :
    ∃ slept entries, (perform (.play speed during) s).1 = .played none slept entries := by
  rw [perform_play hb] at hi ⊢
  rw [snd_playReply] at hi
  have hover : (drive begun.generation during begun).2.2.stage.isOver = false := hi.not_over
  cases hf : (drive begun.generation during begun).2.1 with
  | none =>
    have hplayed : (drive begun.generation during begun).2.2.playedOutcome = none := by
      rw [playedOutcome, hover]
      rfl
    rw [playReply, hplayed]
    exact ⟨_, _, rfl⟩
  | some fault =>
    obtain ⟨woken, hwoken, htick⟩ := exists_tick_of_drive hf
    have hstage := stage_tick hwoken
    rw [htick] at hstage
    rcases hstage with h | h
    · exact absurd h hi.not_executing
    · exact absurd (hover.symm.trans h) (by decide)

/-! ## What playing returns -/

/-- What playing returns, with the requests that are made while it sleeps. -/
structure ReturnsOutcome (s : Session) (speed : Option (Except Fault Speed))
    (during : List (List Request)) : Prop where
  /-- The outcome that it returns is that of the run that the session shows when it returns. -/
  shown : ∀ o, (perform (.play speed during) s).1.outcome? = some o →
    ∃ a, (perform (.play speed during) s).2.attempt = some a ∧ a.run.outcome = some o
  /-- If no run is started meanwhile, that is the run that it drove, some steps later. -/
  own : ∀ begun a, s.beginPlay speed = (.ok (), begun) →
    begun.StartsNone (deedsLoop begun.generation during begun) →
    begun.stage = .executing → begun.attempt = some a →
    ∀ o, (perform (.play speed during) s).1.outcome? = some o →
    ∃ a', (perform (.play speed during) s).2.attempt = some a' ∧ a.run.Onward a'.run ∧
      a'.run.outcome = some o
  /-- If no run is started meanwhile, and the run is aborted, it returns none. -/
  aborted : ∀ begun, s.beginPlay speed = (.ok (), begun) →
    begun.StartsNone (deedsLoop begun.generation during begun) →
    begun.AbortsIn (deedsLoop begun.generation during begun) →
    ∃ slept entries, (perform (.play speed during) s).1 = .played none slept entries

theorem returnsOutcome_of_coherent (hs : s.Coherent)
    (hd : Request.areAllPlayers during = true) : s.ReturnsOutcome speed during := by
  have hbegun : ∀ {begun}, s.beginPlay speed = (.ok (), begun) → begun.Coherent := by
    intro begun hb
    have hleads := leads_beginPlay s speed
    rw [hb] at hleads
    exact coherent_of_leads hs hleads
  have hp : ∀ {begun : Session}, ∀ d ∈ deedsLoop begun.generation during begun,
      d.isPlayers = true := fun d => isPlayers_of_mem_deedsLoop hd
  have hshown : ∀ o, (perform (.play speed during) s).1.outcome? = some o →
      ∃ a, (perform (.play speed during) s).2.attempt = some a ∧ a.run.outcome = some o := by
    intro o h
    obtain ⟨⟨begun, hb⟩, hover, hlast⟩ := over_of_outcome? h
    have hend : (perform (.play speed during) s).2.Coherent := by
      rw [snd_perform_play hb]
      exact coherent_follow (hbegun hb) hp
    obtain ⟨a, o', ha, ho', hended⟩ := Scene.Coherent.ended hend hover
    cases hlast.symm.trans ho'
    exact ⟨a, ha, hended.outcome⟩
  refine
    { shown := hshown
      own := fun begun a hb hn hstage ha o h => ?_
      aborted := fun begun hb hn habort => perform_play_of_idles hb ?_ }
  · obtain ⟨-, hover, -⟩ := over_of_outcome? h
    obtain ⟨a', ha', hout⟩ := hshown o h
    have hcarries : begun.scene.Carries a.run :=
      ⟨show begun.stage ∈ rewinding from hstage ▸ by decide, a, ha, .here⟩
    have hend := carries_or_idles_follow (hbegun hb) hcarries hp hn
    rw [← snd_perform_play hb] at hend
    rcases hend with hcarries | hidles
    · obtain ⟨a'', ha'', honward⟩ := hcarries.attempt
      cases ha'.symm.trans ha''
      exact ⟨a', ha', honward, hout⟩
    · exact absurd (hidles.not_over.symm.trans hover) (by decide)
  · rw [snd_perform_play hb]
    exact idles_of_abortsIn (hbegun hb) hp hn habort

/-- **What playing returns.** At any moment from a fresh session, playing returns the outcome of the
run that the session shows then, if it returns one. If no run is started while it sleeps, that is
the run that it drove, and it returns none if the run was aborted. -/
theorem returnsOutcome_perform (catalog : Catalog) (store : Store) (clock : Clock)
    (limit : Option Int) (speed : Speed) :
    let s := fresh catalog store clock limit speed
    (∀ deeds : List Deed, (∀ d ∈ deeds, d.isPlayers = true) → ∀ speed during,
      Request.areAllPlayers during = true → (s.follow deeds).ReturnsOutcome speed during) ∧
    ∀ requests : List Request, Request.arePlayers requests = true →
      s.follow (deedsAll requests s) = (performAll requests s).2 ∧
      ∀ moment, moment <+: deedsAll requests s → ∀ speed during,
        Request.areAllPlayers during = true → (s.follow moment).ReturnsOutcome speed during := by
  intro s
  have hs : s.Coherent := coherent_fresh catalog store clock limit speed
  have hdeeds : ∀ deeds : List Deed, (∀ d ∈ deeds, d.isPlayers = true) → ∀ speed during,
      Request.areAllPlayers during = true → (s.follow deeds).ReturnsOutcome speed during :=
    fun deeds hp speed during => returnsOutcome_of_coherent (coherent_follow hs hp)
  refine ⟨hdeeds, fun requests hp => ⟨follow_deedsAll requests s, fun moment hm => ?_⟩⟩
  exact hdeeds moment fun d hd => isPlayers_of_mem_deedsAll hp (hm.subset hd)

end Session

/-! ## A sample -/

open Session in
/-- Playing returns the outcome of the run through the corridor, with a tick that is made while it
sleeps; and none if the run is stopped instead. -/
theorem returnsOutcome_corridorRun :
    (∃ a a' o, corridorRun.attempt = some a ∧
      (perform (.play none [[.act .tick]]) corridorRun).1.outcome? = some o ∧
      (perform (.play none [[.act .tick]]) corridorRun).2.attempt = some a' ∧
      a.run.Onward a'.run ∧ a'.run.outcome = some o) ∧
    ∃ slept entries, (perform (.play none [[.act .stop]]) corridorRun).1 =
      .played none slept entries := by
  let s := corridorSession (.memory .empty)
  obtain ⟨hdeeds, -⟩ :=
    returnsOutcome_perform ⟨"levels", none, some [corridor]⟩ (.memory .empty) .still none .single
  have hrun : corridorRun = s.follow (deedsAll _ s) := (follow_deedsAll _ s).symm
  have hplay : ∀ during, Request.areAllPlayers during = true →
      corridorRun.ReturnsOutcome none during := by
    intro during hd
    rw [hrun]
    exact hdeeds _ (by decide +kernel) none during hd
  have hstage : corridorRun.retire.stage = .executing := by decide +kernel
  have hattempt : corridorRun.attempt.isSome = true := by decide +kernel
  obtain ⟨a, ha⟩ := Option.isSome_iff_exists.mp hattempt
  constructor
  · have hdriven : deedsLoop corridorRun.retire.generation [[.act .tick]] corridorRun.retire =
        [.sleep 800, .act .tick, .act .tick, .sleep 800, .act .tick] := by with_unfolding_all rfl
    have hreturns : (perform (.play none [[.act .tick]]) corridorRun).1.outcome?.isSome = true := by
      decide +kernel
    obtain ⟨o, ho⟩ := Option.isSome_iff_exists.mp hreturns
    obtain ⟨a', ha', honward, hout⟩ := (hplay [[.act .tick]] rfl).own _ a rfl
      (by rw [hdriven]; simp [StartsNone, Starts]) hstage ha o ho
    exact ⟨a, a', o, ha, ho, ha', honward, hout⟩
  · have hdriven : deedsLoop corridorRun.retire.generation [[.act .stop]] corridorRun.retire =
        [.sleep 800, .act .stop] := by with_unfolding_all rfl
    refine (hplay [[.act .stop]] rfl).aborted _ rfl
      (by rw [hdriven]; simp [StartsNone, Starts]) ?_
    rw [hdriven]
    exact .inr (.inl (congrArg Prod.fst
      (stop_eq (s := corridorRun.retire.sleep 800) (.inl hstage) ha)))

/-- While playing sleeps, the run is stopped, and a run of another program comes to its end. -/
def corridorOvertaken : List (List Request) :=
  [[.act .stop, .act .clearProgram, .act (.add (.ok .moveForward) .unnamed), .act .run,
    .act .tick, .act .tick]]

open Session in
/-- **Playing need not return the outcome of the run that it drove**: the run of two blocks is
stopped, and the outcome of a run of one block is returned. -/
theorem play_returns_other_outcome :
    let begun := (corridorRun.beginPlay none).2
    (corridorRun.stage = .executing ∧ corridorRun.attempt.map (·.run.blocksUsed) = some 2) ∧
      begun.AbortsIn (deedsLoop begun.generation corridorOvertaken begun) ∧
      (perform (.play none corridorOvertaken) corridorRun).1.outcome?.map (·.blocksUsed) =
        some 1 := by
  intro begun
  refine ⟨by decide +kernel, ?_, by decide +kernel⟩
  have hstage : begun.stage = .executing := by decide +kernel
  rw [corridorOvertaken, deedsLoop, if_pos hstage, deedsAll, deeds]
  have hattempt : begun.attempt.isSome = true := by decide +kernel
  obtain ⟨a, ha⟩ := Option.isSome_iff_exists.mp hattempt
  exact .inr (.inl (congrArg Prod.fst (stop_eq (s := begun.sleep _) (.inl hstage) ha)))

end RobotPuzzle
