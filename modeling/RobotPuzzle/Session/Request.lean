import RobotPuzzle.Session.Action

/-!
# Requests that take time

A countdown sleeps once, and playing sleeps before each instruction. While a session sleeps, other
requests may be made of it, which may sleep themselves: a request that sleeps carries, for each of
its sleeps in turn, the requests that are made during it.

Only the latest loop drives a run. A loop that wakes up and finds that the session's generation is
no longer the one it began with has been retired, and executes nothing more.

* `driveOut_of_not_executing`: where nothing is executing, driving ends at once.
* `performAll_nil`: without requests nothing happens.
-/

namespace RobotPuzzle

/-- A request to a session. -/
inductive Request where
  | act (a : Action)
  /-- Drives the run to its end, at a new pace if one is named. -/
  | play (speed : Option (Except Fault Speed)) (during : List (List Request))
  /-- Waits out the countdown, for some milliseconds. -/
  | countdown (millis : Except Fault Int) (during : List (List Request))

/-- What a session replies to a request. -/
inductive Reply where
  | answered (r : Except Fault Answer)
  /-- The outcome of the run that was driven, the sleeps, and the requests that were made during
  them, each with its reply and the stage that it left. -/
  | played (outcome : Option Outcome) (slept : List Int) (during : List (Request × Reply × Stage))
  /-- Whether the countdown came to its end, and what went on meanwhile. -/
  | counted (finished : Bool) (slept : List Int) (during : List (Request × Reply × Stage))

/-- A request that was made during a sleep, its reply, and the stage that it left. -/
abbrev Entry := Request × Reply × Stage

namespace Reply

/-- The reply that tells of a fault. -/
def fault (f : Fault) : Reply := .answered (.error f)

end Reply

namespace Session

/-- The milliseconds of a countdown whose length is not said. -/
def standardCountdown : Int := 2900

/-- The milliseconds of a countdown whose length in seconds is a JSON value, or null. -/
def countdownMillis : Json → Except Fault Int
  | .null => .ok standardCountdown
  | seconds => seconds.millisOfSeconds

/-- How many ticks a run takes at most to its end: one for each instruction that is left, and one
for the judgement. -/
def ticksLeft (s : Session) : Nat := (s.attempt.map (·.run.remaining + 1)).getD 0

/-- The sleeps since the journal had a length. -/
def sleepsSince (s : Session) (mark : Nat) : List Int := Journal.sleeps (s.journal.drop mark)

/-- Drives the run while nobody makes a request, for a number of ticks at most. -/
def driveOut : Nat → Session → Option Fault × Session
  | 0, s => (none, s)
  | n + 1, s =>
    if s.stage = .executing then
      match (s.sleep s.speed.millis).tick with
      | (.error fault, s) => (some fault, s)
      | (.ok _, s) => driveOut n s
    else (none, s)

/-- Begins to play: the pace is changed if a new one is named, and other loops are retired. -/
def beginPlay (s : Session) (speed : Option (Except Fault Speed)) : Result Unit :=
  match speed with
  | none => (.ok (), s.retire)
  | some speed =>
    match s.setSpeed speed with
    | (.error fault, s) => (.error fault, s)
    | (.ok _, s) => (.ok (), s.retire)

/-- The outcome that playing returns: that of the last run, when a run is over. -/
def playedOutcome (s : Session) : Option Outcome := if s.stage.isOver then s.lastOutcome else none

/-- What playing replies after it began when the journal had the length `mark`. -/
def playReply (mark : Nat) (entries : List Entry) (fault? : Option Fault) (s : Session) :
    Reply × Session :=
  match fault? with
  | some fault => (.fault fault, s)
  | none => (.played s.playedOutcome (s.sleepsSince mark) entries, s)

/-- What a countdown replies after it began when the journal had the length `mark`. -/
def countReply (mark : Nat) (entries : List Entry) (s : Session) : Reply × Session :=
  match s.finishCountdown with
  | (.error fault, s) => (.fault fault, s)
  | (.ok finished, s) => (.counted finished (s.sleepsSince mark) entries, s)

mutual

/-- Does what a request asks. -/
def perform : Request → Session → Reply × Session
  | .act a, s => let (r, s) := s.act a; (.answered r, s)
  | .play speed during, s =>
    match s.beginPlay speed with
    | (.error fault, s) => (.fault fault, s)
    | (.ok _, begun) =>
      let (entries, fault?, s) := drive begun.generation during begun
      playReply begun.journal.length entries fault? s
  | .countdown millis during, s =>
    if s.stage = .countdown then
      match millis with
      | .error fault => (.fault fault, s)
      | .ok millis =>
        let (entries, after) := performFirst during (s.sleep millis)
        countReply s.journal.length entries after
    else (.counted false [] [], s)

/-- Does what requests ask, one after the other. -/
def performAll : List Request → Session → List Entry × Session
  | [], s => ([], s)
  | request :: rest, s =>
    let (reply, s) := perform request s
    let (entries, after) := performAll rest s
    ((request, reply, s.stage) :: entries, after)

/-- Does what is asked during a single sleep. -/
def performFirst : List (List Request) → Session → List Entry × Session
  | [], s => ([], s)
  | requests :: _, s => performAll requests s

/-- Drives the run for a loop of some generation, with the requests made during its sleeps. -/
def drive (generation : Nat) :
    List (List Request) → Session → List Entry × Option Fault × Session
  | [], s => let (fault?, s) := driveOut s.ticksLeft s; ([], fault?, s)
  | requests :: rest, s =>
    if s.stage = .executing then
      let (entries, s) := performAll requests (s.sleep s.speed.millis)
      if s.generation = generation ∧ s.stage = .executing then
        match s.tick with
        | (.error fault, s) => (entries, some fault, s)
        | (.ok _, s) =>
          let (more, fault?, s) := drive generation rest s
          (entries ++ more, fault?, s)
      else (entries, none, s)
    else ([], none, s)

end

theorem driveOut_of_not_executing {s : Session} (h : s.stage ≠ .executing) (n : Nat) :
    driveOut n s = (none, s) := by
  cases n <;> simp [driveOut, h]

theorem performAll_nil (s : Session) : performAll [] s = ([], s) := by
  rw [performAll]

end Session

end RobotPuzzle
