import RobotPuzzle.Environment
import RobotPuzzle.Fault
import RobotPuzzle.Json.Number
import RobotPuzzle.Numeral.Real

/-!
# Settings

What an environment sets: two folders, the pace, the cap on instructions and the countdown. The pace
has to be one of three, the cap positive and the countdown not negative; `check` says which of these
fails first.

* `Speed.ofMillis?_millis`: a pace is named by its milliseconds.
* `Settings.fault?_eq_none`: settings without a fault allow at least one instruction.
-/

namespace RobotPuzzle

/-- The pace at which instructions follow each other. -/
inductive Speed where
  | single
  | double
  | quadruple
  deriving DecidableEq, Repr

namespace Speed

/-- All paces, the fastest first. -/
def all : List Speed := [.quadruple, .double, .single]

/-- The milliseconds from one instruction to the next. -/
def millis : Speed → Int
  | .single => 800
  | .double => 400
  | .quadruple => 200

/-- What a pace is called. -/
def label : Speed → String
  | .single => "1x"
  | .double => "2x"
  | .quadruple => "4x"

/-- The pace with so many milliseconds. -/
def ofMillis? (n : Int) : Option Speed := all.find? (·.millis == n)

/-- The pace that a JSON value names by its milliseconds. -/
def ofJson (j : Json) : Except Fault Speed :=
  if j.isKey then
    let named? : Option Speed := match j with
      | .int n => ofMillis? n
      | .real x => all.find? fun s => Float.ofInt s.millis == x
      | _ => none
    match named? with
    | some s => .ok s
    | none => .error (.unknownSpeed j)
  else .error .wrongKind

theorem ofMillis?_millis (s : Speed) : ofMillis? s.millis = some s := by cases s <;> rfl

end Speed

namespace Path

/-- The parts of a path: what stands between slashes, without empty parts and single dots. -/
def parts (path : String) : List String :=
  (path.splitOn "/").filter fun part => part != "" && part != "."

/-- The slashes in front of a path. Exactly two of them are kept, more count as one. -/
def root (path : String) : String :=
  match (path.toList.takeWhile (· == '/')).length with
  | 0 => ""
  | 2 => "//"
  | _ => "/"

/-- A path in its normal form. -/
def normal (path : String) : String :=
  let text := root path ++ "/".intercalate (parts path)
  if text.isEmpty then "." else text

end Path

/-- What an environment sets. -/
structure Settings where
  levels : String
  progress : String
  tick : Int
  maxInstructions : Int
  countdown : Float
  deriving DecidableEq, Repr

namespace Settings

/-- The integer that a text spells. -/
def integer (text : String) : Except Fault Int := (Json.str text).integerValue

/-- The double that a text spells. -/
def real (text : String) : Except Fault Float :=
  match Numeral.real? text with
  | some x => .ok x
  | none => .error (.badReal text)

/-- The settings of an environment, where `levels` is the folder of levels that it does not set. -/
def load (levels : String) (env : Environment) : Except Fault Settings := do
  let tick ← integer ((env.get? "CODEQUEST_TICK_MS").getD "800")
  let maxInstructions ← integer ((env.get? "CODEQUEST_MAX_INSTRUCTIONS").getD "1000")
  let countdown ← real ((env.get? "CODEQUEST_COUNTDOWN_SECONDS").getD "2.9")
  pure
    { levels := Path.normal ((env.get? "CODEQUEST_LEVELS_DIR").getD levels)
      progress := Path.normal ((env.get? "CODEQUEST_PROGRESS_DIR").getD "codequest_progress")
      tick, maxInstructions, countdown }

/-- The first of the settings that is of no use. -/
def fault? (s : Settings) : Option SettingFault :=
  if (Speed.ofMillis? s.tick).isNone then some (.speed s.tick)
  else if s.maxInstructions < 1 then some .instructionLimit
  else if s.countdown < 0.0 then some .countdown
  else none

/-- The settings as a text. -/
def display (s : Settings) : String :=
  let label := ((Speed.ofMillis? s.tick).map Speed.label).getD "?"
  "\n".intercalate
    ["Code Quest Configuration:",
      s!"  Levels: {s.levels}",
      s!"  Progress: {s.progress}",
      s!"  Tick Speed: {s.tick}ms ({label})",
      s!"  Max Instructions: {s.maxInstructions}",
      s!"  Countdown: {Numeral.realText s.countdown}s"]

theorem fault?_eq_none {s : Settings} (h : s.fault? = none) : 1 ≤ s.maxInstructions := by
  unfold fault? at h
  repeat' split at h
  all_goals first | contradiction | omega

end Settings

end RobotPuzzle
