import RobotPuzzle.Session.Basic

/-!
# Actions

What can be asked of a session that takes no time, as data, and what it answers. What an action
names, such as a command or a pace, may turn out to name nothing; it is then carried as the fault
that comes up when the action gets so far.

* `act_of_isQuestion`: questions leave the session alone.
-/

namespace RobotPuzzle

/-- A request to a session that takes no time. -/
inductive Action where
  | openLevelSelect
  | backToMenu
  | select (key : Json)
  | finishCountdown
  | add (command : Except Fault Command) (spot : Spot)
  | remove (id : Text)
  | moveBlock (id : Text) (spot : Spot)
  | setRepeats (id : Text) (count : Except Fault Int)
  | clearProgram
  | setSpeed (speed : Except Fault Speed)
  | run
  | tick
  | pause
  | resume
  | stop
  | retry
  | nextLevel
  | quitToLevelSelect
  | reset
  /-- Goes to a stage by the table of stages alone. -/
  | transition (target : Except Fault Stage)
  /-- Puts a record into the store. -/
  | saveProgress (record : Except Fault Progress)
  | world
  | history
  | progress
  | isOpen (key : Json)
  | totalStars

/-- What a session answers to an action. -/
inductive Answer where
  | done
  | flag (b : Bool)
  | level (id : Option Int)
  | block (b : Option Block)
  | report (r : Option Report)
  | world (w : Option World)
  | steps (history : List Step)
  | records (all : List Progress)
  | stars (n : Int)

namespace Action

/-- Whether the action only asks. -/
def isQuestion : Action → Bool
  | .world | .history | .progress | .isOpen _ | .totalStars => true
  | _ => false

end Action

namespace Session

/-- A result whose value is an answer. -/
def answer {α : Type} (f : α → Answer) (r : Result α) : Result Answer := (r.1.map f, r.2)

/-- Puts a record into the store. -/
def saveProgress (s : Session) (record : Except Fault Progress) : Result Unit :=
  match record with
  | .error fault => (.error fault, s)
  | .ok p => (.ok (), { s with store := s.store.save p })

/-- Goes to a stage that has been named. -/
def transition (s : Session) (target : Except Fault Stage) : Result Unit :=
  match target with
  | .error fault => (.error fault, s)
  | .ok target => s.move target

/-- Does what an action asks. -/
def act (s : Session) : Action → Result Answer
  | .openLevelSelect => answer .flag s.openLevelSelect
  | .backToMenu => answer .flag s.backToMenu
  | .select key => answer (fun level => .level (some level.id)) (s.select key)
  | .finishCountdown => answer .flag s.finishCountdown
  | .add command spot => answer .block (s.add command spot)
  | .remove id => answer .flag (s.remove id)
  | .moveBlock id spot => answer .flag (s.moveBlock id spot)
  | .setRepeats id count => answer .flag (s.setRepeats id count)
  | .clearProgram => answer .flag s.clearProgram
  | .setSpeed speed => answer (fun _ => .done) (s.setSpeed speed)
  | .run => answer .flag s.run
  | .tick => answer .report s.tick
  | .pause => answer .flag s.pause
  | .resume => answer .flag s.resume
  | .stop => answer .flag s.stop
  | .retry => answer .flag s.retry
  | .nextLevel => answer (fun level => .level (level.map Level.id)) s.nextLevel
  | .quitToLevelSelect => answer .flag s.quitToLevelSelect
  | .reset => (.ok .done, s.reset)
  | .transition target => answer (fun _ => .done) (s.transition target)
  | .saveProgress record => answer (fun _ => .done) (s.saveProgress record)
  | .world => (.ok (.world s.world?), s)
  | .history => (.ok (.steps s.history), s)
  | .progress => (s.store.all.map .records, s)
  | .isOpen key => ((s.store.isOpen key).map .flag, s)
  | .totalStars => (s.store.totalStars.map .stars, s)

theorem act_of_isQuestion {a : Action} (h : a.isQuestion = true) (s : Session) :
    (s.act a).2 = s := by
  cases a <;> first | rfl | simp [Action.isQuestion] at h

end Session

end RobotPuzzle
