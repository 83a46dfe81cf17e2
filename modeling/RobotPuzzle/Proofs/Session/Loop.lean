import RobotPuzzle.Proofs.Run.Order
import RobotPuzzle.Proofs.Session.Pause

/-!
# Loops that drive a run

Playing is a loop that sleeps and ticks. Anything may be asked while it sleeps, also to play, so
several loops can be under way at once, and a session may have been paused and be executing again
when one of them wakes up. A loop ticks only where the generation is the one that it began with.
Every start of a run, pause, stop, reset and play raises the generation, and there is no way back to
a run without one of them; so a loop that ticks has had the run to itself since it began.

* `Session.takesOver_or_keeps`: what raises the generation, and how the stage changes otherwise.
* `Session.undisturbed_of_generation`: where the generation is still the same, nothing has happened
  to the run but ticks.
* `Session.flatMap_rounds`: what a loop does is what its rounds do.
* `Session.single_tick_source`: every tick of a loop is undisturbed, and ticks follow the stream.
-/

namespace RobotPuzzle

namespace Session

/-! ## Taking over -/

/-- A deed takes a run over, or away from whoever drove it: a run that starts, a pause, a stop, a
reset, or playing that begins. What is refused does not count. -/
def TakesOver (s : Session) : Deed → Prop
  | .act .run => s.run.1 = .ok true
  | .act .pause => s.pause.1 = .ok true
  | .act .stop => s.stop.1 = .ok true
  | .act .reset => True
  | .beginPlay speed => (s.beginPlay speed).1 = .ok ()
  | _ => False

/-- The stages that a run which is on goes to and fro between. -/
def onRun : List Stage := [.executing, .paused]

/-- The loop that drives the run keeps its place: the generation is the same, and unless a pause
ends, a run is neither begun nor gone on with. -/
structure Keeps (s s' : Session) : Prop where
  generation : s'.generation = s.generation
  stage : s.stage = .paused ∨ s'.stage = s.stage ∨ s'.stage ∉ onRun

theorem keeps_self (s : Session) : s.Keeps s := ⟨rfl, .inr (.inl rfl)⟩

theorem Keeps.of_same {s s' t : Session} (h : s'.Keeps t) (hg : s'.generation = s.generation)
    (hs : s'.stage = s.stage) : s.Keeps t := by
  refine ⟨h.generation.trans hg, ?_⟩
  rw [← hs]
  exact h.stage

theorem keeps_goTo (s : Session) {target : Stage} (h : target ∉ onRun) :
    s.Keeps (s.goTo target) := ⟨rfl, .inr (.inr h)⟩

theorem keeps_move {s : Session} {target : Stage} (h : target ∉ onRun) :
    s.Keeps (s.move target).2 := by
  rcases s.move_cases target with hs | hs <;> rw [hs]
  · exact keeps_self s
  · exact keeps_goTo s h

theorem keeps_moveFrom {s : Session} (sources : List Stage) {target : Stage}
    (h : target ∉ onRun) : s.Keeps (s.moveFrom sources target).2 := by
  rcases s.moveFrom_cases sources target with hs | hs <;> rw [hs]
  · exact keeps_self s
  · exact keeps_goTo s h

theorem keeps_enterLevel (s : Session) (level : Level) : s.Keeps (s.enterLevel level).2 := by
  have hmove : s.Keeps ((s.begin level).move .countdown).2 :=
    (keeps_move (by decide)).of_same rfl rfl
  unfold enterLevel
  split
  · next heq => rw [heq] at hmove; exact hmove
  · next heq => rw [heq] at hmove; exact ⟨hmove.generation, hmove.stage⟩

theorem keeps_select (s : Session) (key : Json) : s.Keeps (s.select key).2 := by
  unfold select
  split
  · split
    · exact (keeps_self _).of_same rfl rfl
    · simp only
      split
      · exact (keeps_self _).of_same rfl rfl
      · exact (keeps_self _).of_same rfl rfl
      · exact (keeps_enterLevel s.consult _).of_same rfl rfl
  · exact keeps_self s

theorem keeps_leaveForSelection (s : Session) : s.Keeps s.leaveForSelection.2 := by
  rw [snd_leaveForSelection_eq]
  exact keeps_move (by decide)

theorem keeps_nextLevel (s : Session) : s.Keeps s.nextLevel.2 := by
  unfold nextLevel
  split
  · exact keeps_self s
  · split
    · split
      · exact (keeps_self _).of_same rfl rfl
      · exact (keeps_leaveForSelection s.consult).of_same rfl rfl
      · next following _ =>
        have hselect : s.Keeps (s.consult.select (.int following.id)).2 :=
          (keeps_select s.consult _).of_same rfl rfl
        simp only
        split
        · exact (keeps_self _).of_same rfl rfl
        · exact (keeps_leaveForSelection s.consult).of_same rfl rfl
        · split <;> next heq => rw [heq] at hselect; exact hselect
    · exact keeps_self s

theorem keeps_edit (s : Session) (f : Program → Except Fault (Bool × Program)) :
    s.Keeps (s.edit f).2 := by
  unfold edit
  split
  · exact keeps_self s
  · split <;> exact ⟨rfl, .inr (.inl rfl)⟩

theorem keeps_add (s : Session) (command : Except Fault Command) (spot : Spot) :
    s.Keeps (s.add command spot).2 := by
  unfold add
  split
  · exact keeps_self s
  · cases command with
    | error fault => exact keeps_self s
    | ok command =>
      simp only [addTo]
      split <;> exact ⟨rfl, .inr (.inl rfl)⟩

theorem ending_not_mem_onRun (o : Outcome) : ending o ∉ onRun := by
  unfold ending
  split <;> decide

/-- What a tick of a run that is on leaves: the run has taken a step, and may have ended. -/
theorem snd_tick {s : Session} {a : Attempt} (hs : s.stage = .executing) (ha : s.attempt = some a) :
    s.tick.2.attempt = some { a with run := (a.run.step s.clock).run } ∧
      s.tick.2.generation = s.generation ∧
        (s.tick.2.stage = .executing ∨ s.tick.2.stage ∉ onRun) := by
  rcases hvalue : (a.run.step s.clock).value with fault | ⟨step, _ | o⟩
  · obtain ⟨journal, hturn⟩ := s.afterTurn_eq a (a.run.step s.clock)
    rw [tick_of_fault hs ha hvalue, hturn]
    exact ⟨rfl, rfl, .inl hs⟩
  · obtain ⟨journal, message, htold⟩ := s.told_eq a (a.run.step s.clock) ⟨step, none⟩
    rw [tick_of_running hs ha hvalue, htold]
    exact ⟨rfl, rfl, .inl hs⟩
  · obtain ⟨journal, message, htold⟩ := s.told_eq a (a.run.step s.clock) ⟨step, some o⟩
    let told : Session := { s.withRun a (a.run.step s.clock).run with
      clock := (a.run.step s.clock).clock, journal, message }
    obtain ⟨message', journal', hconclude⟩ := snd_conclude (s := told) hs o
    rw [tick_of_ending hs ha hvalue, htold, hconclude]
    exact ⟨rfl, rfl, .inr (ending_not_mem_onRun o)⟩

theorem keeps_tick (s : Session) : s.Keeps s.tick.2 := by
  rcases s.tick_cases with h | ⟨a, hs, ha⟩
  · rw [h]
    exact keeps_self s
  · obtain ⟨-, hgeneration, hstage⟩ := snd_tick hs ha
    exact ⟨hgeneration, .inr (hs ▸ hstage)⟩

theorem keeps_resume (s : Session) : s.Keeps s.resume.2 := by
  rcases s.resume_cases with h | ⟨a, hs, -, h⟩ <;> rw [h]
  · exact keeps_self s
  · exact ⟨rfl, .inl hs⟩

theorem keeps_retry (s : Session) : s.Keeps s.retry.2 := by
  rcases s.retry_cases with h | ⟨a, -, -, h⟩ <;> rw [h]
  · exact keeps_self s
  · exact (keeps_goTo _ (by decide)).of_same rfl rfl

/-! ## The generation -/

/-- An answer took the run over, or the loop that drives it keeps its place. -/
def TookOverOrKept (s : Session) (r : Result Bool) : Prop :=
  (r.1 = .ok true ∧ r.2.generation = s.generation + 1) ∨ (r.1 ≠ .ok true ∧ s.Keeps r.2)

theorem tookOverOrKept_false {s : Session} (s' : Session) (h : s.Keeps s') :
    s.TookOverOrKept (.ok false, s') := .inr ⟨by simp, h⟩

theorem tookOverOrKept_run (s : Session) : s.TookOverOrKept s.run := by
  unfold run
  split
  · exact tookOverOrKept_false s (keeps_self s)
  · next a ha =>
    obtain ⟨hstage, -⟩ := editing?_eq_some ha
    split
    · exact tookOverOrKept_false _ ⟨rfl, .inr (.inl rfl)⟩
    · simp only [startRun]
      split
      · exact tookOverOrKept_false _ ⟨rfl, .inr (.inl rfl)⟩
      · rw [moveAndAnswer_of_mem]
        · exact .inl ⟨rfl, rfl⟩
        · show Stage.executing ∈ s.stage.next
          rw [hstage]
          decide

theorem tookOverOrKept_pause (s : Session) : s.TookOverOrKept s.pause := by
  rcases s.pause_cases with h | ⟨-, h⟩ <;> rw [h]
  · exact tookOverOrKept_false s (keeps_self s)
  · exact .inl ⟨rfl, rfl⟩

theorem tookOverOrKept_stop (s : Session) : s.TookOverOrKept s.stop := by
  rcases s.stop_cases with h | ⟨a, -, -, h⟩ <;> rw [h]
  · exact tookOverOrKept_false s (keeps_self s)
  · exact .inl ⟨rfl, rfl⟩

/-- A player's deed either takes the run over, which raises the generation, or keeps the loop that
drives it in its place. -/
theorem takesOver_or_keeps (s : Session) {d : Deed} (hd : d.isPlayers = true) :
    (s.TakesOver d ∧ (s.after d).generation = s.generation + 1) ∨
      (¬ s.TakesOver d ∧ s.Keeps (s.after d)) := by
  cases d with
  | sleep millis => exact .inr ⟨id, rfl, .inr (.inl rfl)⟩
  | beginPlay speed =>
    rcases speed with _ | fault | speed
    · exact .inl ⟨rfl, rfl⟩
    · exact .inr ⟨by simp [TakesOver, beginPlay, setSpeed], keeps_self s⟩
    · exact .inl ⟨rfl, rfl⟩
  | act a =>
    cases a with
    | run => exact tookOverOrKept_run s
    | pause => exact tookOverOrKept_pause s
    | stop => exact tookOverOrKept_stop s
    | reset =>
      refine .inl ⟨trivial, ?_⟩
      show s.reset.generation = s.generation + 1
      unfold reset
      simp only
      split <;> rfl
    | transition | saveProgress => cases hd
    | openLevelSelect | backToMenu | finishCountdown | quitToLevelSelect =>
      exact .inr ⟨id, keeps_moveFrom _ (by decide)⟩
    | select key => exact .inr ⟨id, keeps_select s key⟩
    | add command spot => exact .inr ⟨id, keeps_add s command spot⟩
    | remove | moveBlock | setRepeats | clearProgram => exact .inr ⟨id, keeps_edit s _⟩
    | setSpeed speed => cases speed <;> exact .inr ⟨id, rfl, .inr (.inl rfl)⟩
    | tick => exact .inr ⟨id, keeps_tick s⟩
    | resume => exact .inr ⟨id, keeps_resume s⟩
    | retry => exact .inr ⟨id, keeps_retry s⟩
    | nextLevel => exact .inr ⟨id, keeps_nextLevel s⟩
    | world | history | progress | isOpen | totalStars => exact .inr ⟨id, keeps_self s⟩

theorem generation_le_after (s : Session) {d : Deed} (hd : d.isPlayers = true) :
    s.generation ≤ (s.after d).generation := by
  rcases s.takesOver_or_keeps hd with ⟨-, h⟩ | ⟨-, h⟩
  · omega
  · exact Nat.le_of_eq h.generation.symm

/-- The generation never goes back. -/
theorem generation_le_follow {s : Session} {deeds : List Deed}
    (hp : ∀ d ∈ deeds, d.isPlayers = true) : s.generation ≤ (s.follow deeds).generation := by
  induction deeds generalizing s with
  | nil => exact Nat.le_refl _
  | cons d rest ih =>
    exact Nat.le_trans (s.generation_le_after (hp d List.mem_cons_self))
      (ih fun d' hd => hp d' (List.mem_cons_of_mem d hd))

/-- Where the generation is the same after all, the first deed took nothing over. -/
theorem keeps_of_generation {s : Session} {d : Deed} {rest : List Deed}
    (hp : ∀ d' ∈ d :: rest, d'.isPlayers = true)
    (hg : (s.follow (d :: rest)).generation = s.generation) :
    ¬ s.TakesOver d ∧ s.Keeps (s.after d) := by
  have hle : (s.after d).generation ≤ ((s.after d).follow rest).generation :=
    generation_le_follow fun d' hd => hp d' (List.mem_cons_of_mem d hd)
  rcases s.takesOver_or_keeps (hp d List.mem_cons_self) with ⟨-, h⟩ | h
  · rw [follow_cons] at hg
    omega
  · exact h

/-- Off a run, there is no way back to one in the same generation. -/
theorem stage_not_mem_onRun_follow {s : Session} {deeds : List Deed}
    (hp : ∀ d ∈ deeds, d.isPlayers = true)
    (hg : (s.follow deeds).generation = s.generation) (hs : s.stage ∉ onRun) :
    (s.follow deeds).stage ∉ onRun := by
  induction deeds generalizing s with
  | nil => exact hs
  | cons d rest ih =>
    obtain ⟨-, hkeeps⟩ := keeps_of_generation hp hg
    refine ih (fun d' hd => hp d' (List.mem_cons_of_mem d hd)) (hg.trans hkeeps.generation.symm) ?_
    rcases hkeeps.stage with h | h | h
    · exact absurd (h ▸ by decide) hs
    · exact h ▸ hs
    · exact h

/-! ## Undisturbed loops -/

/-- Since a loop began, a run has been on without a break, nothing has taken it over, and nothing
has happened to it but ticks. -/
structure Undisturbed (begun : Session) (since : List Deed) : Prop where
  executing : ∀ part, part <+: since → (begun.follow part).stage = .executing
  alone : ∀ part d, part ++ [d] <+: since → ¬ (begun.follow part).TakesOver d
  sameRun : ∀ part, part <+: since →
    (begun.follow (ticks (part.countP Deed.isTick))).Agrees (begun.follow part)

/-- A run that is on does not notice what is neither a tick nor takes it over. -/
theorem agrees_of_not_takesOver {s : Session} (hs : s.stage = .executing) {d : Deed}
    (hp : d.isPlayers = true) (htick : d.isTick = false) (h : ¬ s.TakesOver d) :
    s.Agrees (s.after d) := by
  cases haffects : d.affects s.stage with
  | false => exact agrees_after (.inl hs) haffects
  | true =>
    rw [hs] at haffects
    cases d with
    | beginPlay | sleep => cases haffects
    | act a =>
      cases a with
      | tick => cases htick
      | transition | saveProgress => cases hp
      | reset => exact absurd trivial h
      | pause => exact absurd (congrArg Prod.fst (pause_eq (.inr hs))) h
      | stop =>
        rcases s.stop_cases with hstop | ⟨a, -, -, hstop⟩
        · rw [show s.after (.act .stop) = s from congrArg Prod.snd hstop]
          exact .refl s
        · exact absurd (congrArg Prod.fst hstop) h
      | _ => cases haffects

theorem undisturbed_nil {begun : Session} (h : begun.stage = .executing) :
    begun.Undisturbed [] := by
  refine ⟨fun part hpart => ?_, fun part d hpart => ?_, fun part hpart => ?_⟩
  · rw [List.prefix_nil.mp hpart]
    exact h
  · exact absurd (List.prefix_nil.mp hpart) (by simp)
  · rw [List.prefix_nil.mp hpart]
    exact .refl begun

theorem Undisturbed.cons {begun : Session} {d : Deed} {rest : List Deed}
    (hbegun : begun.stage = .executing) (hd : d.isPlayers = true) (halone : ¬ begun.TakesOver d)
    (h : (begun.after d).Undisturbed rest) : begun.Undisturbed (d :: rest) := by
  refine ⟨fun part hpart => ?_, fun part e hpart => ?_, fun part hpart => ?_⟩
  · cases part with
    | nil => exact hbegun
    | cons first part =>
      obtain ⟨rfl, htail⟩ := List.cons_prefix_cons.mp hpart
      exact h.executing part htail
  · cases part with
    | nil =>
      obtain ⟨rfl, -⟩ := List.cons_prefix_cons.mp hpart
      exact halone
    | cons first part =>
      obtain ⟨rfl, htail⟩ := List.cons_prefix_cons.mp hpart
      exact h.alone part e htail
  · cases part with
    | nil => exact .refl begun
    | cons first part =>
      obtain ⟨rfl, htail⟩ := List.cons_prefix_cons.mp hpart
      have hrest := h.sameRun part htail
      cases htick : first.isTick with
      | true =>
        rw [List.countP_cons_of_pos htick]
        rw [Deed.eq_tick_of_isTick htick] at hrest ⊢
        exact hrest
      | false =>
        have hagree := agrees_of_not_takesOver hbegun hd htick halone
        rw [List.countP_cons_of_neg (by simp [htick])]
        exact (agrees_ticks hagree _).1.trans hrest

/-- **A loop that finds its generation has been alone.** Nothing has taken its run over since, and
nothing has happened to the run but ticks. -/
theorem undisturbed_of_generation {begun : Session} (hbegun : begun.stage = .executing)
    {since : List Deed} (hp : ∀ d ∈ since, d.isPlayers = true)
    (hg : (begun.follow since).generation = begun.generation)
    (hs : (begun.follow since).stage = .executing) : begun.Undisturbed since := by
  induction since generalizing begun with
  | nil => exact undisturbed_nil hbegun
  | cons d rest ih =>
    obtain ⟨halone, hkeeps⟩ := keeps_of_generation hp hg
    have hrest : ∀ e ∈ rest, e.isPlayers = true := fun e he => hp e (List.mem_cons_of_mem d he)
    have hg' : ((begun.after d).follow rest).generation = (begun.after d).generation :=
      hg.trans hkeeps.generation.symm
    have hstage : (begun.after d).stage = .executing := by
      rcases hkeeps.stage with h | h | h
      · rw [hbegun] at h
        cases h
      · exact h.trans hbegun
      · have hoff : ((begun.after d).follow rest).stage ∉ onRun :=
          stage_not_mem_onRun_follow hrest hg' h
        exact absurd (show ((begun.after d).follow rest).stage ∈ onRun by
          rw [show ((begun.after d).follow rest).stage = .executing from hs]; decide) hoff
    exact .cons hbegun (hp d List.mem_cons_self) halone (ih hstage hrest hg' hs)

/-! ## The rounds of a loop -/

/-- One round of a loop: how long it sleeps, what is done while it sleeps, and whether it ticks when
it wakes up. -/
structure Round where
  slept : Int
  asked : List Deed
  ticks : Bool

/-- What is done until the loop wakes up. -/
def Round.untilWake (r : Round) : List Deed := .sleep r.slept :: r.asked

/-- What is done in the round, the tick included. -/
def Round.deeds (r : Round) : List Deed := r.untilWake ++ if r.ticks then [.act .tick] else []

/-- The rounds in which nobody makes a request. -/
def roundsOut : Nat → Session → List Round
  | 0, _ => []
  | n + 1, s =>
    if s.stage = .executing then
      ⟨s.speed.millis, [], true⟩ ::
        match (s.sleep s.speed.millis).tick with
        | (.error _, _) => []
        | (.ok _, s) => roundsOut n s
    else []

/-- The rounds of a loop of some generation, with the requests made during its sleeps. -/
def rounds (generation : Nat) : List (List Request) → Session → List Round
  | [], s => roundsOut s.ticksLeft s
  | requests :: rest, s =>
    if s.stage = .executing then
      let asked := deedsAll requests (s.sleep s.speed.millis)
      let woken := (s.sleep s.speed.millis).follow asked
      if woken.generation = generation ∧ woken.stage = .executing then
        ⟨s.speed.millis, asked, true⟩ ::
          match woken.tick with
          | (.error _, _) => []
          | (.ok _, s) => rounds generation rest s
      else [⟨s.speed.millis, asked, false⟩]
    else []

theorem flatMap_roundsOut (n : Nat) (s : Session) :
    (roundsOut n s).flatMap Round.deeds = deedsOut n s := by
  induction n generalizing s with
  | zero => rfl
  | succ n ih =>
    unfold roundsOut deedsOut
    split
    · rcases (s.sleep s.speed.millis).tick with ⟨fault | report, s'⟩
      · rfl
      · simp only [List.flatMap_cons, ih]
        rfl
    · rfl

/-- What a loop does is what its rounds do: it ticks at the end of rounds, and all else is done by
those who make requests. -/
theorem flatMap_rounds (generation : Nat) (during : List (List Request)) (s : Session) :
    (rounds generation during s).flatMap Round.deeds = deedsLoop generation during s := by
  induction during generalizing s with
  | nil => rw [rounds, deedsLoop, flatMap_roundsOut]
  | cons requests rest ih =>
    rw [rounds, deedsLoop]
    split
    · simp only [follow_deedsAll]
      split
      · rcases Session.tick _ with ⟨fault | report, s'⟩
        · simp [Round.deeds, Round.untilWake]
        · simp [Round.deeds, Round.untilWake, ih]
      · simp [Round.deeds, Round.untilWake]
    · rfl

/-- Where rounds tick, the session is executing in a generation. -/
def WakesIn (generation : Nat) : List Round → Session → Prop
  | [], _ => True
  | r :: rest, s =>
    (r.ticks = true → (s.follow r.untilWake).generation = generation ∧
      (s.follow r.untilWake).stage = .executing) ∧
    WakesIn generation rest (s.follow r.deeds)

theorem wakesIn_roundsOut {generation : Nat} {s : Session} (hg : s.generation = generation)
    (n : Nat) : WakesIn generation (roundsOut n s) s := by
  induction n generalizing s with
  | zero => trivial
  | succ n ih =>
    unfold roundsOut
    split
    · next hs =>
      refine ⟨fun _ => ⟨hg, hs⟩, ?_⟩
      have hfollow : s.follow (Round.deeds ⟨s.speed.millis, [], true⟩) =
          (s.sleep s.speed.millis).tick.2 := rfl
      have hkept := (keeps_tick (s.sleep s.speed.millis)).generation
      rw [hfollow]
      revert hkept
      rcases (s.sleep s.speed.millis).tick with ⟨fault | report, s'⟩ <;> intro hkept
      · trivial
      · exact ih (hkept.trans hg)
    · trivial

theorem wakesIn_rounds {generation : Nat} {s : Session} (hg : s.generation = generation)
    (during : List (List Request)) : WakesIn generation (rounds generation during s) s := by
  induction during generalizing s with
  | nil =>
    rw [rounds]
    exact wakesIn_roundsOut hg _
  | cons requests rest ih =>
    rw [rounds]
    split
    · simp only
      split
      · next hwoken =>
        refine ⟨fun _ => hwoken, ?_⟩
        simp only [Round.deeds, Round.untilWake, follow_append, follow_cons, follow_nil, after_sleep,
          if_true, after_tick]
        have hkept := (keeps_tick ((s.sleep s.speed.millis).follow
          (deedsAll requests (s.sleep s.speed.millis)))).generation
        revert hkept
        rcases Session.tick _ with ⟨fault | report, s'⟩ <;> intro hkept
        · trivial
        · exact ih (hkept.trans hwoken.1)
      · exact ⟨nofun, trivial⟩
    · trivial

theorem wakes_of_mem {generation : Nat} {earlier later : List Round} {r : Round} {s : Session}
    (h : WakesIn generation (earlier ++ r :: later) s) (ht : r.ticks = true) :
    (s.follow (earlier.flatMap Round.deeds ++ r.untilWake)).generation = generation ∧
      (s.follow (earlier.flatMap Round.deeds ++ r.untilWake)).stage = .executing := by
  induction earlier generalizing s with
  | nil => exact h.1 ht
  | cons first rest ih =>
    rw [List.flatMap_cons, List.append_assoc, follow_append]
    exact ih h.2

/-! ## What is executed -/

/-- At a moment of a session, the run has executed the first instructions of its stream, a tick
executes the next one or none, and nothing else executes any. -/
structure InStep (s : Session) : Prop where
  inOrder : ∀ a, s.attempt = some a → a.run.InOrder
  tick : ∀ a, s.attempt = some a → ∃ run, s.tick.2.attempt = some { a with run } ∧
    (a.run.Rests run ∨ a.run.Executes run)
  others : ∀ d : Deed, d.isPlayers = true → d.isTick = false → ∀ a, s.attempt = some a →
    ∀ a', (s.after d).attempt = some a' → a'.run = a.run ∨ a'.run.history = []

theorem inOrder_of_leads {s s' : Session} (hs : ∀ a, s.attempt = some a → a.run.InOrder)
    (h : s.Leads s') : ∀ a, s'.attempt = some a → a.run.InOrder :=
  run_of_leads (fun _ hhistory hcursor _ => Run.inOrder_of_fresh hhistory hcursor)
    (fun _ clock hr => Run.inOrder_step hr clock) hs h

theorem tick_executes {s : Session} {a : Attempt} (ha : s.attempt = some a) :
    ∃ run, s.tick.2.attempt = some { a with run } ∧ (a.run.Rests run ∨ a.run.Executes run) := by
  by_cases hs : s.stage = .executing
  · exact ⟨_, (snd_tick hs ha).1, a.run.step_executes s.clock⟩
  · rw [tick_of_not_executing hs]
    exact ⟨a.run, ha, .inl a.run.rests_self⟩

/-- Where no run is on, no deed executes anything. -/
theorem history_after_of_not_executing {s : Session} (hs : s.stage ≠ .executing) {d : Deed}
    (hd : d.isPlayers = true) {a a' : Attempt} (ha : s.attempt = some a)
    (ha' : (s.after d).attempt = some a') : a'.run = a.run ∨ a'.run.history = [] := by
  have hpassage := (leads_after hd s).passage
  have hscene : (s.after d).scene.attempt = some a' := ha'
  generalize (s.after d).scene = c at hpassage hscene
  cases hpassage with
  | stay | walk | resume =>
    rw [show s.scene.attempt = some a from ha] at hscene
    cases hscene
    exact .inl rfl
  | edit b program hstage hb =>
    rw [ha] at hb
    cases hb
    cases hscene
    exact .inl rfl
  | begin | refuse | start | rewind =>
    cases hscene
    exact .inr rfl
  | turn b hstage | conclude b report o hstage => exact absurd hstage hs
  | reset => cases hscene

theorem attempt_reset (s : Session) : s.reset.attempt = none := by
  unfold reset
  simp only
  split <;> rfl

/-- While a run is on, a deed that is not a tick executes nothing. -/
theorem history_after_of_executing {s : Session} (hs : s.stage = .executing) {d : Deed}
    (hd : d.isPlayers = true) (htick : d.isTick = false) {a a' : Attempt}
    (ha : s.attempt = some a) (ha' : (s.after d).attempt = some a') :
    a'.run = a.run ∨ a'.run.history = [] := by
  cases haffects : d.affects s.stage with
  | false =>
    rw [(agrees_after (.inl hs) haffects).attempt, ha] at ha'
    cases ha'
    exact .inl rfl
  | true =>
    rw [hs] at haffects
    cases d with
    | beginPlay | sleep => cases haffects
    | act action =>
      cases action with
      | tick => cases htick
      | transition | saveProgress => cases hd
      | pause =>
        rw [after_pause_of_executing hs] at ha'
        rw [show s.attempt = some a' from ha'] at ha
        cases ha
        exact .inl rfl
      | stop =>
        have hstop : s.after (.act .stop) = (s.retire.withRun a a.run.reset).goTo .building :=
          congrArg Prod.snd (stop_eq (.inl hs) ha)
        rw [hstop] at ha'
        cases ha'
        exact .inr rfl
      | reset =>
        rw [show (s.after (.act .reset)).attempt = none from s.attempt_reset] at ha'
        cases ha'
      | _ => cases haffects

theorem inStep_of_inOrder {s : Session} (hs : ∀ a, s.attempt = some a → a.run.InOrder) :
    s.InStep := by
  refine ⟨hs, fun a ha => tick_executes ha, fun d hd htick a ha a' ha' => ?_⟩
  by_cases hstage : s.stage = .executing
  · exact history_after_of_executing hstage hd htick ha ha'
  · exact history_after_of_not_executing hstage hd ha ha'

theorem inStep_follow (catalog : Catalog) (store : Store) (clock : Clock) (limit : Option Int)
    (speed : Speed) {deeds : List Deed} (hp : ∀ d ∈ deeds, d.isPlayers = true) :
    ((fresh catalog store clock limit speed).follow deeds).InStep :=
  inStep_of_inOrder (follow_induction (P := fun s => ∀ a, s.attempt = some a → a.run.InOrder)
    (fun _ ha => by cases ha) (fun _ _ => inOrder_of_leads) hp)

/-! ## One source of ticks -/

theorem executing_of_mem_rounds {generation : Nat} {during : List (List Request)} {s : Session}
    {r : Round} (h : r ∈ rounds generation during s) : s.stage = .executing := by
  refine Decidable.byContradiction fun hs => ?_
  cases during with
  | nil =>
    rw [rounds] at h
    cases hn : s.ticksLeft with
    | zero => rw [hn] at h; cases h
    | succ n => rw [hn, roundsOut, if_neg hs] at h; cases h
  | cons requests rest =>
    rw [rounds, if_neg hs] at h
    cases h

/-- Where a loop ticks at the end of a round, it has been alone since it began. -/
theorem undisturbed_of_ticks {begun : Session} {during : List (List Request)}
    (hp : Request.areAllPlayers during = true) {earlier later : List Round} {r : Round}
    (h : rounds begun.generation during begun = earlier ++ r :: later) (ht : r.ticks = true) :
    begun.Undisturbed (earlier.flatMap Round.deeds ++ r.untilWake) := by
  have hmem : r ∈ rounds begun.generation during begun := by rw [h]; simp
  have hwakes := wakesIn_rounds (s := begun) rfl during
  rw [h] at hwakes
  obtain ⟨hgeneration, hstage⟩ := wakes_of_mem hwakes ht
  refine undisturbed_of_generation (executing_of_mem_rounds hmem) (fun d hd => ?_) hgeneration
    hstage
  have hloop : d ∈ deedsLoop begun.generation during begun := by
    rw [← flatMap_rounds, h, List.flatMap_append, List.flatMap_cons, Round.deeds]
    rcases List.mem_append.mp hd with hd | hd
    · exact List.mem_append_left _ hd
    · exact List.mem_append_right _ (List.mem_append_left _ (List.mem_append_left _ hd))
  exact isPlayers_of_mem_deedsLoop hp hloop

/-- **A run has one source of ticks.** Playing is a course of rounds, and where it ticks at the end
of a round, nothing has taken the run over since playing began: a run has been on all the time, and
nothing has happened to it but ticks. At every moment of a session, ticks execute the instructions
of the stream one after the other, and nothing else executes any. -/
theorem single_tick_source :
    (∀ (s begun : Session) (speed : Option (Except Fault Speed)) (during : List (List Request)),
      s.beginPlay speed = (.ok (), begun) → Request.areAllPlayers during = true →
      let course := rounds begun.generation during begun
      deeds (.play speed during) s = .beginPlay speed :: course.flatMap Round.deeds ∧
      s.follow (deeds (.play speed during) s) = (perform (.play speed during) s).2 ∧
      ∀ earlier round later, course = earlier ++ round :: later → round.ticks = true →
        begun.Undisturbed (earlier.flatMap Round.deeds ++ round.untilWake)) ∧
    ∀ (catalog : Catalog) (store : Store) (clock : Clock) (limit : Option Int) (speed : Speed)
      (deeds : List Deed), (∀ d ∈ deeds, d.isPlayers = true) →
      ((fresh catalog store clock limit speed).follow deeds).InStep := by
  refine ⟨fun s begun speed during hbegun hp => ⟨?_, follow_deeds _ s, ?_⟩,
    fun catalog store clock limit speed _ => inStep_follow catalog store clock limit speed⟩
  · rw [deeds, hbegun, flatMap_rounds]
  · exact fun earlier round later h ht => undisturbed_of_ticks hp h ht

end Session

/-! ## A sample -/

/-- What is asked while the run is played: a run at first, which is refused, and then a pause that
ends at once and playing that is itself interrupted by a pause. -/
def corridorInterruptions : List (List Request) :=
  [[.act .run], [.act .pause, .act .resume, .play none [[.act .pause]]]]

open Session in
/-- The loop ticks at the end of its first round and is alone until then. It does not tick again,
although the run had been gone on with. -/
theorem single_tick_source_corridorRun :
    let begun := corridorRun.retire
    (rounds begun.generation corridorInterruptions begun).map Round.ticks = [true, false] ∧
      begun.Undisturbed [.sleep 800, .act .run] ∧ corridorRun.InStep := by
  intro begun
  obtain ⟨hloops, hmoments⟩ := single_tick_source
  have hmillis : begun.speed.millis = 800 := by decide +kernel
  have hstage : begun.stage = .executing := by decide +kernel
  have hasked : ∀ s, deedsAll [.act .run] s = [.act .run] := fun s => by
    rw [deedsAll, deeds, deedsAll]
    rfl
  have hwoken : ((begun.sleep 800).follow [.act .run]).generation = begun.generation ∧
      ((begun.sleep 800).follow [.act .run]).stage = .executing := by decide +kernel
  have hcourse : ∃ later, rounds begun.generation corridorInterruptions begun =
      ⟨800, [.act .run], true⟩ :: later := by
    rw [corridorInterruptions, rounds, if_pos hstage]
    simp only [hasked, hmillis]
    rw [if_pos hwoken]
    exact ⟨_, rfl⟩
  obtain ⟨later, hfirst⟩ := hcourse
  obtain ⟨-, -, hround⟩ :=
    hloops corridorRun begun none corridorInterruptions rfl (by decide +kernel)
  refine ⟨by decide +kernel, hround [] _ later hfirst rfl, ?_⟩
  unfold corridorRun
  rw [← follow_deedsAll]
  exact hmoments _ _ _ _ _ _ fun d hd => isPlayers_of_mem_deedsAll (by decide +kernel) hd

end RobotPuzzle
