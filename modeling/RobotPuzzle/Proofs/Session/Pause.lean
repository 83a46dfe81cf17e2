import RobotPuzzle.Proofs.Session.Coherence
import RobotPuzzle.Proofs.Session.Refusal

/-!
# Pauses of a run

A run can be paused whenever an instruction is left, as often and for as long as one likes. What is
asked meanwhile is refused, or changes nothing that the run depends on, and when the run goes on it
is where it was: the clock is not read, and nothing moves. So a run comes to what its ticks come to,
wherever it is paused in between, and whoever drives it.

* `Session.agrees_pause`: a pause, with all that goes on during it, leaves the run as it was.
* `Session.agrees_of_drives`: what drives a run, with or without pauses, comes to its ticks.
* `Session.comesToTicks_with_pauses`: the same for requests.
-/

namespace RobotPuzzle

/-- Whether a deed is a tick. -/
def Deed.isTick : Deed → Bool
  | .act .tick => true
  | _ => false

/-- Whether a request does nothing to a run that is paused: neither playing nor a countdown begins
then, and what could be asked during their sleeps is not asked. -/
def Request.waits : Request → Bool
  | .act a => !a.affects .paused
  | .play _ _ | .countdown _ _ => true

/-- A pause with the requests that are made during it. -/
def Request.pause (between : List Request) : List Request :=
  .act .pause :: between ++ [.act .resume]

/-- Ticks, each with pauses in front of it. -/
def Request.ticksWithPauses : List (List (List Request)) → List Request
  | [] => []
  | pauses :: rest => pauses.flatMap pause ++ .act .tick :: ticksWithPauses rest

theorem Deed.eq_tick_of_isTick {d : Deed} (h : d.isTick = true) : d = .act .tick := by
  unfold isTick at h
  split at h
  · rfl
  · cases h

theorem Deed.affects_of_isTick {d : Deed} (h : d.isTick = true) :
    d.affects .executing = true := by
  rw [eq_tick_of_isTick h]
  rfl

namespace Session

/-- Ticks and nothing else. -/
def ticks (n : Nat) : List Deed := List.replicate n (.act .tick)

/-- Whether a run is on and has an instruction left. -/
def hasMore (s : Session) : Bool :=
  s.stage == .executing && s.attempt.any fun a => !a.run.isExhausted

/-- What each tick of a run reports, and the world that it leaves. -/
def reports (s : Session) : List Deed → List (Except Fault (Option Report) × Option World)
  | [] => []
  | d :: rest =>
    (if d.isTick ∧ s.stage = .executing then [(s.tick.1, s.tick.2.world?)] else []) ++
      (s.after d).reports rest

/-- A run is driven by deeds that tick it a number of times, with what it does not notice in between,
and with pauses as long as instructions are left. -/
inductive Drives : Session → List Deed → Nat → Prop where
  | done (s : Session) : Drives s [] 0
  | tick {s : Session} {deeds : List Deed} {n : Nat} (rest : Drives (s.after (.act .tick)) deeds n) :
      Drives s (.act .tick :: deeds) (n + 1)
  | aside {s : Session} {d : Deed} {deeds : List Deed} {n : Nat} (hstage : s.stage = .executing)
      (hd : d.affects .executing = false) (rest : Drives (s.after d) deeds n) :
      Drives s (d :: deeds) n
  | pause {s : Session} {between deeds : List Deed} {n : Nat} (hmore : s.hasMore = true)
      (hb : ∀ d ∈ between, d.affects .paused = false)
      (rest : Drives (s.follow (.act .pause :: between ++ [.act .resume])) deeds n) :
      Drives s (.act .pause :: between ++ [.act .resume] ++ deeds) n

theorem reports_append (s : Session) (a b : List Deed) :
    s.reports (a ++ b) = s.reports a ++ (s.follow a).reports b := by
  induction a generalizing s with
  | nil => rfl
  | cons d rest ih => simp only [List.cons_append, reports, ih, List.append_assoc, follow_cons]

/-! ## What a pause leaves -/

/-- What goes on during a pause. -/
theorem agrees_follow_of_paused {s : Session} (hs : s.stage = .paused) {deeds : List Deed}
    (hd : ∀ d ∈ deeds, d.affects .paused = false) :
    s.Agrees (s.follow deeds) ∧ s.reports deeds = [] := by
  induction deeds generalizing s with
  | nil => exact ⟨.refl s, rfl⟩
  | cons d rest ih =>
    have hfirst : s.Agrees (s.after d) := agrees_after (.inr hs) (hs ▸ hd d List.mem_cons_self)
    have hstage : (s.after d).stage = .paused := hfirst.stage.trans hs
    obtain ⟨hrest, hquiet⟩ := ih hstage fun d' h => hd d' (List.mem_cons_of_mem d h)
    refine ⟨hfirst.trans hrest, ?_⟩
    have hnot : ¬ (d.isTick ∧ s.stage = .executing) := fun h => by rw [hs] at h; cases h.2
    rw [reports, if_neg hnot, hquiet]
    rfl

theorem after_pause_of_executing {s : Session} (h : s.stage = .executing) :
    s.after (.act .pause) = s.retire.goTo .paused :=
  congrArg Prod.snd (pause_eq (.inr h))

theorem after_resume_of_paused {s : Session} {a : Attempt} (h : s.stage = .paused)
    (ha : s.attempt = some a) (hleft : a.run.isExhausted = false) :
    s.after (.act .resume) = s.goTo .executing := by
  show s.resume.2 = s.goTo .executing
  rw [resume_eq h ha, hleft]
  rfl

theorem exists_of_hasMore {s : Session} (h : s.hasMore = true) :
    s.stage = .executing ∧ ∃ a, s.attempt = some a ∧ a.run.isExhausted = false := by
  simp only [hasMore, Bool.and_eq_true, beq_iff_eq] at h
  obtain ⟨hstage, hany⟩ := h
  cases ha : s.attempt with
  | none => simp [ha] at hany
  | some a => exact ⟨hstage, a, rfl, by simpa [ha] using hany⟩

/-- A pause, with all that goes on during it, leaves the run as it was. -/
theorem agrees_pause {s : Session} (hmore : s.hasMore = true) {between : List Deed}
    (hb : ∀ d ∈ between, d.affects .paused = false) :
    s.Agrees (s.follow (.act .pause :: between ++ [.act .resume])) ∧
      s.reports (.act .pause :: between ++ [.act .resume]) = [] := by
  obtain ⟨hstage, a, ha, hleft⟩ := exists_of_hasMore hmore
  let paused := s.retire.goTo .paused
  have hpause : s.after (.act .pause) = paused := after_pause_of_executing hstage
  obtain ⟨hagree, hquiet⟩ := agrees_follow_of_paused (s := paused) rfl hb
  have hresume : (paused.follow between).after (.act .resume) =
      (paused.follow between).goTo .executing :=
    after_resume_of_paused hagree.stage (hagree.attempt.trans ha) hleft
  constructor
  · simp only [follow_append, follow_cons, follow_nil, hpause, hresume]
    exact { hagree with stage := hstage.symm }
  · rw [reports_append, reports, hpause, hquiet]
    rfl

/-! ## Driving a run -/

theorem Agrees.hasMore {s t : Session} (h : s.Agrees t) : t.hasMore = s.hasMore := by
  rw [Session.hasMore, Session.hasMore, h.stage, h.attempt]

theorem agrees_ticks {s t : Session} (h : s.Agrees t) (n : Nat) :
    (s.follow (ticks n)).Agrees (t.follow (ticks n)) ∧ t.reports (ticks n) = s.reports (ticks n) := by
  induction n generalizing s t with
  | zero => exact ⟨h, rfl⟩
  | succ n ih =>
    obtain ⟨hvalue, htick⟩ := h.tick
    obtain ⟨hfollow, hreports⟩ := ih htick
    refine ⟨hfollow, ?_⟩
    have hworld : t.tick.2.world? = s.tick.2.world? := by rw [world?, htick.attempt]; rfl
    rw [ticks, List.replicate_succ, reports, reports, h.stage, hvalue, hworld]
    exact congrArg _ hreports

/-- However a run is driven, with or without pauses, it comes to what its ticks come to. -/
theorem agrees_of_drives {s : Session} {deeds : List Deed} {n : Nat} (h : Drives s deeds n) :
    (s.follow (ticks n)).Agrees (s.follow deeds) ∧ s.reports deeds = s.reports (ticks n) := by
  induction h with
  | done s => exact ⟨.refl s, rfl⟩
  | tick _ ih =>
    refine ⟨ih.1, ?_⟩
    rw [ticks, List.replicate_succ, reports, reports]
    exact congrArg _ ih.2
  | @aside s d deeds n hstage hd _ ih =>
    obtain ⟨hfollow, hreports⟩ := agrees_ticks (agrees_after (.inl hstage) (hstage ▸ hd)) n
    refine ⟨hfollow.trans ih.1, ?_⟩
    have hnot : ¬ (d.isTick ∧ s.stage = .executing) := by
      rintro ⟨htick, -⟩
      rw [Deed.affects_of_isTick htick] at hd
      cases hd
    rw [reports, if_neg hnot, List.nil_append, ih.2, hreports]
  | @pause s between deeds n hmore hb _ ih =>
    obtain ⟨hagree, hquiet⟩ := agrees_pause hmore hb
    obtain ⟨hfollow, hreports⟩ := agrees_ticks hagree n
    rw [follow_append, reports_append, hquiet, List.nil_append, ih.2, hreports]
    exact ⟨hfollow.trans ih.1, rfl⟩

/-! ## The deeds of ticks with pauses -/

theorem deedsAll_append (a b : List Request) (s : Session) :
    deedsAll (a ++ b) s = deedsAll a s ++ deedsAll b (s.follow (deedsAll a s)) := by
  induction a generalizing s with
  | nil => rw [deedsAll]; rfl
  | cons request rest ih =>
    rw [List.cons_append, deedsAll, deedsAll, ih, follow_append, follow_deeds, List.append_assoc]

theorem deedsAll_act_cons (a : Action) (rest : List Request) (s : Session) :
    deedsAll (.act a :: rest) s = .act a :: deedsAll rest (s.after (.act a)) := by
  rw [deedsAll, deeds, perform]
  rfl

theorem deedsAll_nil (s : Session) : deedsAll [] s = [] := by rw [deedsAll]

theorem deedsAll_replicate_tick (n : Nat) (s : Session) :
    deedsAll (List.replicate n (.act .tick)) s = ticks n := by
  induction n generalizing s with
  | zero => exact deedsAll_nil s
  | succ n ih => rw [List.replicate_succ, deedsAll_act_cons, ih]; rfl

theorem deedsAll_pause (between : List Request) (s : Session) :
    deedsAll (Request.pause between) s =
      .act .pause :: deedsAll between (s.after (.act .pause)) ++ [.act .resume] := by
  rw [Request.pause, deedsAll_append, deedsAll_act_cons, deedsAll_act_cons, deedsAll_nil]

/-- Nothing is driven where nothing is executing. -/
theorem deedsLoop_of_not_executing {s : Session} (h : s.stage ≠ .executing) (generation : Nat)
    (during : List (List Request)) : deedsLoop generation during s = [] := by
  cases during with
  | nil => rw [deedsLoop]; cases s.ticksLeft <;> simp [deedsOut, h]
  | cons requests rest => rw [deedsLoop, if_neg h]

theorem affects_of_mem_deeds {s : Session} (hs : s.stage = .paused) {request : Request}
    (hw : request.waits = true) {d : Deed} (h : d ∈ deeds request s) :
    d.affects .paused = false := by
  cases request with
  | act a =>
    rw [deeds, List.mem_singleton] at h
    rw [h]
    show a.affects .paused = false
    simpa [Request.waits] using hw
  | play speed during =>
    rw [deeds] at h
    rcases List.mem_cons.mp h with rfl | h
    · rfl
    · split at h
      · cases h
      · next begun hbegun =>
        have hagree : s.Agrees (s.after (.beginPlay speed)) := agrees_after (.inr hs) rfl
        have hstage : begun.stage = .paused := by
          rw [after_beginPlay, hbegun] at hagree
          exact hagree.stage.trans hs
        rw [deedsLoop_of_not_executing (by rw [hstage]; decide)] at h
        cases h
  | countdown millis during => simp [deeds, hs] at h

theorem affects_of_mem_deedsAll {s : Session} (hs : s.stage = .paused) {requests : List Request}
    (hw : ∀ request ∈ requests, request.waits = true) {d : Deed} (h : d ∈ deedsAll requests s) :
    d.affects .paused = false := by
  induction requests generalizing s with
  | nil => rw [deedsAll] at h; cases h
  | cons request rest ih =>
    have hfirst : ∀ d ∈ deeds request s, d.affects .paused = false := fun _ =>
      affects_of_mem_deeds hs (hw request List.mem_cons_self)
    rw [deedsAll] at h
    rcases List.mem_append.mp h with h | h
    · exact hfirst d h
    · have hstage : (perform request s).2.stage = .paused := by
        rw [← follow_deeds, (agrees_follow_of_paused hs hfirst).1.stage, hs]
      exact ih hstage (fun r hr => hw r (List.mem_cons_of_mem request hr)) h

/-- Pauses before something that drives a run, however often the run has been paused before. -/
theorem drives_pauses {s : Session} {pauses : List (List Request)}
    (hw : ∀ between ∈ pauses, ∀ request ∈ between, request.waits = true)
    (hmore : pauses ≠ [] → s.hasMore = true) {rest : List Request} {n : Nat}
    (hrest : ∀ t, s.Agrees t → Drives t (deedsAll rest t) n) :
    Drives s (deedsAll (pauses.flatMap Request.pause ++ rest) s) n := by
  induction pauses generalizing s with
  | nil => exact hrest s (.refl s)
  | cons between pauses ih =>
    have hs : s.hasMore = true := hmore (List.cons_ne_nil _ _)
    have hpaused : (s.after (.act .pause)).stage = .paused := by
      rw [after_pause_of_executing (exists_of_hasMore hs).1]
      rfl
    have hb : ∀ d ∈ deedsAll between (s.after (.act .pause)), d.affects .paused = false :=
      fun d => affects_of_mem_deedsAll hpaused (hw between List.mem_cons_self)
    have hagree := (agrees_pause hs hb).1
    rw [List.flatMap_cons, List.append_assoc, deedsAll_append, deedsAll_pause]
    refine .pause hs hb (ih (fun b h => hw b (List.mem_cons_of_mem between h)) (fun _ => ?_)
      fun t ht => hrest t (hagree.trans ht))
    rw [hagree.hasMore, hs]

/-- Before which ticks a run can be paused: as long as an instruction is left. -/
structure Pausable (s : Session) (pauses : List (List (List Request))) : Prop where
  waits : ∀ before ∈ pauses, ∀ between ∈ before, ∀ request ∈ between, request.waits = true
  more : ∀ k before, pauses[k]? = some before → before ≠ [] → (s.follow (ticks k)).hasMore = true

theorem drives_ticksWithPauses {s : Session} {pauses : List (List (List Request))}
    (h : s.Pausable pauses) :
    Drives s (deedsAll (Request.ticksWithPauses pauses) s) pauses.length := by
  induction pauses generalizing s with
  | nil => rw [Request.ticksWithPauses, deedsAll]; exact .done s
  | cons before rest ih =>
    rw [Request.ticksWithPauses]
    refine drives_pauses (h.waits before List.mem_cons_self) (h.more 0 before rfl) fun t ht => ?_
    rw [deedsAll_act_cons]
    refine .tick (ih ⟨fun b hb => h.waits b (List.mem_cons_of_mem before hb), fun k b hk hb => ?_⟩)
    have hagree : (s.follow (ticks (k + 1))).Agrees (t.follow (ticks (k + 1))) :=
      (agrees_ticks ht (k + 1)).1
    exact hagree.hasMore.trans (h.more (k + 1) b hk hb)

/-- Requests that drive a run come to what so many ticks come to: the run, its history and world,
the outcome, the message and the store are the same in the end, and each tick reports the same and
leaves the same world. -/
structure ComesToTicks (s : Session) (requests : List Request) (n : Nat) : Prop where
  agrees : (performAll (List.replicate n (.act .tick)) s).2.Agrees (performAll requests s).2
  reports : s.reports (deedsAll requests s) =
    s.reports (deedsAll (List.replicate n (.act .tick)) s)

theorem comesToTicks_of_drives {s : Session} {requests : List Request} {n : Nat}
    (h : Drives s (deedsAll requests s) n) : s.ComesToTicks requests n := by
  obtain ⟨hagree, hreports⟩ := agrees_of_drives h
  constructor
  · rw [← follow_deedsAll, ← follow_deedsAll, deedsAll_replicate_tick]
    exact hagree
  · rw [deedsAll_replicate_tick]
    exact hreports

/-- **Pausing is transparent.** A run that is ticked or played, with pauses as long as instructions
are left, comes to what its ticks alone come to. In particular any number of pauses may be put
before each tick, and whatever does not end a pause may be asked during it. -/
theorem comesToTicks_with_pauses (s : Session) :
    (∀ requests n, Drives s (deedsAll requests s) n → s.ComesToTicks requests n) ∧
    ∀ pauses, s.Pausable pauses →
      s.ComesToTicks (Request.ticksWithPauses pauses) pauses.length :=
  ⟨fun _ _ => comesToTicks_of_drives,
    fun _ h => comesToTicks_of_drives (drives_ticksWithPauses h)⟩

end Session

/-! ## A sample -/

/-- A run through the corridor that has just been started. -/
def corridorRun : Session :=
  (Session.performAll [.act .openLevelSelect, .act (.select (.int 1)), .act .finishCountdown,
    .act (.add (.ok .moveForward) .unnamed), .act (.add (.ok .jump) .unnamed), .act .run]
    (corridorSession (.memory .empty))).2

/-- The run is paused twice before its first instruction and once before its second. -/
def corridorPauses : List (List (List Request)) :=
  [[[.act .clearProgram, .play (some (.ok .double)) [[.act .stop]]], []],
    [[.act .tick, .act .run, .act (.select (.int 1))]], []]

/-- The run is played, and paused and ticked once while playing sleeps. -/
def corridorPlay : List Request :=
  [.play none [[.act .pause, .act .retry, .act .resume, .act .tick]]]

open Session in
/-- Both come to their ticks, and the run with the three pauses reaches the goal. -/
theorem comesToTicks_corridorRun :
    (Drives corridorRun (deedsAll corridorPlay corridorRun) 1 ∧
      corridorRun.ComesToTicks corridorPlay 1) ∧
    (corridorRun.Pausable corridorPauses ∧
      corridorRun.ComesToTicks (Request.ticksWithPauses corridorPauses) 3) ∧
    (performAll (Request.ticksWithPauses corridorPauses) corridorRun).2.stage = .results := by
  have hdeeds : deedsAll corridorPlay corridorRun = [.beginPlay none, .sleep 800] ++
      (.act .pause :: [.act .retry] ++ [.act .resume] ++ [.act .tick]) := by with_unfolding_all rfl
  have hplay : Drives corridorRun (deedsAll corridorPlay corridorRun) 1 := by
    rw [hdeeds]
    refine .aside ?_ rfl (.aside ?_ rfl (.pause ?_ ?_ (.tick (.done _)))) <;> decide +kernel
  have hpauses : corridorRun.Pausable corridorPauses := by
    refine ⟨by decide +kernel, fun k before hk hb => ?_⟩
    match k, hk with
    | 0, _ => decide +kernel
    | 1, _ => decide +kernel
    | 2, hk => cases hk; cases hb rfl
  obtain ⟨hdrives, hpausable⟩ := comesToTicks_with_pauses corridorRun
  exact ⟨⟨hplay, hdrives _ _ hplay⟩, ⟨hpauses, hpausable _ hpauses⟩, by decide +kernel⟩

end RobotPuzzle
