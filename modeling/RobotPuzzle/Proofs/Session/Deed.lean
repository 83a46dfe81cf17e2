import RobotPuzzle.Session.Request

/-!
# Deeds of a session

A request that takes time is carried out in pieces: between two sleeps nothing else can be asked of
the session, and during a sleep anything can. A deed is such a piece. What requests come to, with
those that are made during their sleeps, is a list of deeds in the order in which they are done, and
every state that a session goes through is the one after some of them.

* `follow_append`: doing deeds one part after the other.
* `follow_deedsAll`: the deeds of requests lead where the requests lead.
* `exists_tick_of_drive`: driving a run faults where a tick does.
* `isPlayers_of_mem_deedsAll`: the deeds of a player's requests are a player's.
* `at_every_moment`: what holds after players' deeds holds throughout what their requests come to.
-/

namespace RobotPuzzle

/-- What a session does at once. -/
inductive Deed where
  | act (a : Action)
  /-- Playing begins. -/
  | beginPlay (speed : Option (Except Fault Speed))
  /-- The session falls asleep, for some milliseconds. -/
  | sleep (millis : Int)

/-! ## What players ask for -/

/-- Whether players ask for an action. Only the session itself makes a move for its own sake, and
only its owner puts records into the store. -/
def Action.isPlayers : Action → Bool
  | .transition _ | .saveProgress _ => false
  | _ => true

/-- Whether a deed is a player's. -/
def Deed.isPlayers : Deed → Bool
  | .act a => a.isPlayers
  | .beginPlay _ | .sleep _ => true

namespace Request

mutual

/-- Whether players make a request, and those during its sleeps. -/
def isPlayers : Request → Bool
  | .act a => a.isPlayers
  | .play _ during | .countdown _ during => areAllPlayers during

/-- Whether players make requests. -/
def arePlayers : List Request → Bool
  | [] => true
  | request :: rest => isPlayers request && arePlayers rest

/-- Whether players make the requests during sleeps. -/
def areAllPlayers : List (List Request) → Bool
  | [] => true
  | requests :: rest => arePlayers requests && areAllPlayers rest

end

end Request

namespace Session

/-- The session after a deed. -/
def after (s : Session) : Deed → Session
  | .act a => (s.act a).2
  | .beginPlay speed => (s.beginPlay speed).2
  | .sleep millis => s.sleep millis

/-- The session after deeds. -/
def follow (s : Session) (deeds : List Deed) : Session := deeds.foldl after s

theorem follow_nil (s : Session) : s.follow [] = s := rfl

theorem follow_cons (s : Session) (d : Deed) (rest : List Deed) :
    s.follow (d :: rest) = (s.after d).follow rest := rfl

theorem follow_append (s : Session) (a b : List Deed) :
    s.follow (a ++ b) = (s.follow a).follow b := List.foldl_append

theorem after_beginPlay (s : Session) (speed : Option (Except Fault Speed)) :
    s.after (.beginPlay speed) = (s.beginPlay speed).2 := rfl

theorem after_sleep (s : Session) (millis : Int) : s.after (.sleep millis) = s.sleep millis := rfl

theorem after_tick (s : Session) : s.after (.act .tick) = s.tick.2 := rfl

theorem after_finishCountdown (s : Session) :
    s.after (.act .finishCountdown) = s.finishCountdown.2 := rfl

/-! ## The deeds of requests -/

/-- The deeds of driving the run while nobody makes a request. -/
def deedsOut : Nat → Session → List Deed
  | 0, _ => []
  | n + 1, s =>
    if s.stage = .executing then
      .sleep s.speed.millis :: .act .tick ::
        match (s.sleep s.speed.millis).tick with
        | (.error _, _) => []
        | (.ok _, s) => deedsOut n s
    else []

mutual

/-- The deeds of a request. -/
def deeds : Request → Session → List Deed
  | .act a, _ => [.act a]
  | .play speed during, s =>
    .beginPlay speed ::
      match s.beginPlay speed with
      | (.error _, _) => []
      | (.ok _, begun) => deedsLoop begun.generation during begun
  | .countdown millis during, s =>
    if s.stage = .countdown then
      match millis with
      | .error _ => []
      | .ok millis =>
        .sleep millis :: (deedsFirst during (s.sleep millis) ++ [.act .finishCountdown])
    else []

/-- The deeds of requests. -/
def deedsAll : List Request → Session → List Deed
  | [], _ => []
  | request :: rest, s => deeds request s ++ deedsAll rest (perform request s).2

/-- The deeds of what is asked during a single sleep. -/
def deedsFirst : List (List Request) → Session → List Deed
  | [], _ => []
  | requests :: _, s => deedsAll requests s

/-- The deeds of driving the run for a loop of some generation. -/
def deedsLoop (generation : Nat) : List (List Request) → Session → List Deed
  | [], s => deedsOut s.ticksLeft s
  | requests :: rest, s =>
    if s.stage = .executing then
      let woken := (performAll requests (s.sleep s.speed.millis)).2
      .sleep s.speed.millis :: (deedsAll requests (s.sleep s.speed.millis) ++
        if woken.generation = generation ∧ woken.stage = .executing then
          .act .tick ::
            match woken.tick with
            | (.error _, _) => []
            | (.ok _, s) => deedsLoop generation rest s
        else [])
    else []

end

theorem snd_playReply (mark : Nat) (entries : List Entry) (fault? : Option Fault) (s : Session) :
    (playReply mark entries fault? s).2 = s := by
  cases fault? <;> rfl

theorem snd_countReply (mark : Nat) (entries : List Entry) (s : Session) :
    (countReply mark entries s).2 = s.finishCountdown.2 := by
  unfold countReply
  split
  · next h => rw [h]
  · next h => rw [h]

theorem follow_deedsOut (n : Nat) (s : Session) : s.follow (deedsOut n s) = (driveOut n s).2 := by
  induction n generalizing s with
  | zero => rfl
  | succ n ih =>
    unfold deedsOut driveOut
    split
    · simp only [follow_cons, after_tick, after_sleep]
      split
      · next h => rw [h, follow_nil]
      · next h => rw [h, ih]
    · rfl

mutual

theorem follow_deeds (request : Request) (s : Session) :
    s.follow (deeds request s) = (perform request s).2 := by
  cases request with
  | act a => rw [deeds, perform]; rfl
  | play speed during =>
    rw [deeds, perform, follow_cons, after_beginPlay]
    split
    · next h => rw [h, follow_nil]
    · next h => rw [h, follow_deedsLoop, snd_playReply]
  | countdown millis during =>
    simp only [deeds, perform]
    split
    · cases millis with
      | error fault => rfl
      | ok millis =>
        simp only [follow_cons, follow_append, after_sleep, follow_nil, after_finishCountdown,
          snd_countReply]
        rw [follow_deedsFirst]
    · rfl

/-- The deeds of requests lead where the requests lead. -/
theorem follow_deedsAll (requests : List Request) (s : Session) :
    s.follow (deedsAll requests s) = (performAll requests s).2 := by
  cases requests with
  | nil => rw [deedsAll, performAll]; rfl
  | cons request rest =>
    rw [deedsAll, performAll, follow_append, follow_deeds, follow_deedsAll]

theorem follow_deedsFirst (during : List (List Request)) (s : Session) :
    s.follow (deedsFirst during s) = (performFirst during s).2 := by
  cases during with
  | nil => rw [deedsFirst, performFirst]; rfl
  | cons requests rest => rw [deedsFirst, performFirst, follow_deedsAll]

theorem follow_deedsLoop (generation : Nat) (during : List (List Request)) (s : Session) :
    s.follow (deedsLoop generation during s) = (drive generation during s).2.2 := by
  cases during with
  | nil => rw [deedsLoop, drive]; exact follow_deedsOut _ s
  | cons requests rest =>
    rw [deedsLoop, drive]
    split
    · simp only [follow_cons, follow_append, after_sleep]
      rw [follow_deedsAll]
      split
      · rw [follow_cons, after_tick]
        split
        · next h => rw [h, follow_nil]
        · next h => rw [h, follow_deedsLoop]
      · rfl
    · rfl

end

/-! ## Faults of driving -/

theorem exists_tick_of_driveOut {n : Nat} {s : Session} {fault : Fault}
    (h : (driveOut n s).1 = some fault) :
    ∃ woken : Session, woken.stage = .executing ∧
      woken.tick = (.error fault, (driveOut n s).2) := by
  induction n generalizing s with
  | zero => cases h
  | succ n ih =>
    unfold driveOut at h ⊢
    split at h
    · next hs =>
      rw [if_pos hs]
      split at h
      · next htick =>
        cases h
        exact ⟨s.sleep s.speed.millis, hs, htick⟩
      · exact ih h
    · cases h

/-- Driving a run faults where a tick does, and ends with it. -/
theorem exists_tick_of_drive {generation : Nat} {during : List (List Request)} {s : Session}
    {fault : Fault} (h : (drive generation during s).2.1 = some fault) :
    ∃ woken : Session, woken.stage = .executing ∧
      woken.tick = (.error fault, (drive generation during s).2.2) := by
  induction during generalizing s with
  | nil =>
    rw [drive] at h ⊢
    exact exists_tick_of_driveOut h
  | cons requests rest ih =>
    rw [drive] at h ⊢
    split at h
    · next hs =>
      rw [if_pos hs]
      dsimp only at h ⊢
      split at h
      · next hwoken =>
        rw [if_pos hwoken]
        split at h
        · next htick =>
          cases h
          exact ⟨_, hwoken.2, htick⟩
        · exact ih h
      · cases h
    · cases h

/-! ## Players' deeds -/

theorem isPlayers_of_mem_deedsOut {n : Nat} {s : Session} {d : Deed} (h : d ∈ deedsOut n s) :
    d.isPlayers = true := by
  induction n generalizing s with
  | zero => cases h
  | succ n ih =>
    unfold deedsOut at h
    split at h
    · rcases List.mem_cons.mp h with rfl | h
      · rfl
      · rcases List.mem_cons.mp h with rfl | h
        · rfl
        · split at h
          · cases h
          · exact ih h
    · cases h

mutual

theorem isPlayers_of_mem_deeds {request : Request} (hp : request.isPlayers = true) {s : Session}
    {d : Deed} (h : d ∈ deeds request s) : d.isPlayers = true := by
  cases request with
  | act a =>
    rw [Request.isPlayers] at hp
    rw [deeds, List.mem_singleton] at h
    rw [h]
    exact hp
  | play speed during =>
    rw [Request.isPlayers] at hp
    rw [deeds] at h
    rcases List.mem_cons.mp h with rfl | h
    · rfl
    · split at h
      · cases h
      · exact isPlayers_of_mem_deedsLoop hp h
  | countdown millis during =>
    rw [Request.isPlayers] at hp
    simp only [deeds] at h
    split at h
    · cases millis with
      | error fault => cases h
      | ok millis =>
        rcases List.mem_cons.mp h with rfl | h
        · rfl
        · rcases List.mem_append.mp h with h | h
          · exact isPlayers_of_mem_deedsFirst hp h
          · rw [List.mem_singleton.mp h]
            rfl
    · cases h

/-- The deeds of a player's requests are a player's. -/
theorem isPlayers_of_mem_deedsAll {requests : List Request}
    (hp : Request.arePlayers requests = true) {s : Session} {d : Deed}
    (h : d ∈ deedsAll requests s) : d.isPlayers = true := by
  cases requests with
  | nil => rw [deedsAll] at h; cases h
  | cons request rest =>
    rw [Request.arePlayers, Bool.and_eq_true] at hp
    rw [deedsAll] at h
    rcases List.mem_append.mp h with h | h
    · exact isPlayers_of_mem_deeds hp.1 h
    · exact isPlayers_of_mem_deedsAll hp.2 h

theorem isPlayers_of_mem_deedsFirst {during : List (List Request)}
    (hp : Request.areAllPlayers during = true) {s : Session} {d : Deed}
    (h : d ∈ deedsFirst during s) : d.isPlayers = true := by
  cases during with
  | nil => rw [deedsFirst] at h; cases h
  | cons requests rest =>
    rw [Request.areAllPlayers, Bool.and_eq_true] at hp
    rw [deedsFirst] at h
    exact isPlayers_of_mem_deedsAll hp.1 h

theorem isPlayers_of_mem_deedsLoop {generation : Nat} {during : List (List Request)}
    (hp : Request.areAllPlayers during = true) {s : Session} {d : Deed}
    (h : d ∈ deedsLoop generation during s) : d.isPlayers = true := by
  cases during with
  | nil => rw [deedsLoop] at h; exact isPlayers_of_mem_deedsOut h
  | cons requests rest =>
    rw [Request.areAllPlayers, Bool.and_eq_true] at hp
    rw [deedsLoop] at h
    split at h
    · rcases List.mem_cons.mp h with rfl | h
      · rfl
      · rcases List.mem_append.mp h with h | h
        · exact isPlayers_of_mem_deedsAll hp.1 h
        · split at h
          · rcases List.mem_cons.mp h with rfl | h
            · rfl
            · split at h
              · cases h
              · exact isPlayers_of_mem_deedsLoop hp.2 h
          · cases h
    · cases h

end

/-- What holds after any order of players' deeds holds at every moment of what players' requests
come to, those made during sleeps included. -/
theorem at_every_moment {s : Session} {P : List Deed → Prop}
    (h : ∀ deeds : List Deed, (∀ d ∈ deeds, d.isPlayers = true) → P deeds) :
    (∀ deeds : List Deed, (∀ d ∈ deeds, d.isPlayers = true) → P deeds) ∧
    ∀ requests : List Request, Request.arePlayers requests = true →
      s.follow (deedsAll requests s) = (performAll requests s).2 ∧
      ∀ moment, moment <+: deedsAll requests s → P moment :=
  ⟨h, fun requests hp => ⟨follow_deedsAll requests s, fun moment hm =>
    h moment fun _ hd => isPlayers_of_mem_deedsAll hp (hm.subset hd)⟩⟩

end Session

end RobotPuzzle
