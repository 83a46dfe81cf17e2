import RobotPuzzle.Json.Comparison
import RobotPuzzle.Json.Printer
import RobotPuzzle.Level.Basic
import RobotPuzzle.Record.Issue
import RobotPuzzle.Session.Stage

/-!
# Faults

Why something that was asked for could not be done. A fault keeps what its message needs; the
wording is in `Fault.message`.

* `LevelFault`: what is wrong with the grid of a level.
* `SettingFault`: what is wrong with a setting.
* `Fault`: everything that can go wrong.
-/

namespace RobotPuzzle

/-- What is wrong with a level that was written down. -/
inductive LevelFault where
  | missingFields (names : List String)
  | unknownSymbol (symbol : Json) (row col : Nat)
  | noPosition (id : Json)
  | startTiles (found : Nat)
  | outsideGrid (id : Text)
  | sharedCell (p : Position)
  | sharedId (id : Text)
  | startOutside
  | goalTiles (goal : Goal) (found : Nat)

namespace LevelFault

/-- The wording of a level fault. -/
def message : LevelFault → Text
  | .missingFields names => s!"level missing required fields: {(Json.words names).literal}"
  | .unknownSymbol symbol row col => s!"unknown layout symbol {symbol.literal} at ({row}, {col})"
  | .noPosition id => s!"tile {id.literal} has no position"
  | .startTiles found => s!"start_position missing and grid has {found} start tiles"
  | .outsideGrid id => "tile " ++ id ++ " is outside the grid"
  | .sharedCell p => s!"more than one tile at ({p.row}, {p.col})"
  | .sharedId id => "duplicate tile id " ++ id
  | .startOutside => "start position is outside the grid"
  | .goalTiles goal found =>
    s!"{Word.spelling goal} levels need exactly one goal tile, found {found}"

end LevelFault

/-- What is wrong with a setting. -/
inductive SettingFault where
  | speed (given : Int)
  | instructionLimit
  | countdown

namespace SettingFault

/-- The wording of a setting fault. -/
def message : SettingFault → String
  | .speed given => s!"CODEQUEST_TICK_MS must be one of [200, 400, 800], got {given}"
  | .instructionLimit => "CODEQUEST_MAX_INSTRUCTIONS must be at least 1"
  | .countdown => "CODEQUEST_COUNTDOWN_SECONDS cannot be negative"

end SettingFault

/-- Why something could not be done. -/
inductive Fault where
  /-- Fields of a record were refused. -/
  | invalid (issues : List Issue)
  /-- A value is of a kind that the operation is not for. -/
  | wrongKind
  /-- A record was needed, and the value is none. -/
  | notRecord
  /-- A list has too few items. -/
  | noItem
  /-- A number is too large for a double, an infinity for an integer, or an index for a list. -/
  | tooLarge
  /-- A text is not JSON. -/
  | badJson
  /-- Octets are not UTF-8. -/
  | badEncoding
  /-- NaN was to become an integer. -/
  | notANumber
  /-- A text with half a surrogate pair cannot be written to a file. -/
  | brokenText (text : Text)
  /-- A text spells no integer. -/
  | badInteger (text : Text)
  /-- A text spells no number. -/
  | badReal (text : String)
  /-- A value is not a word of a vocabulary. -/
  | unknownWord (given : Json) (vocabulary : String)
  /-- A record lacks a field. -/
  | missingField (name : String)
  /-- A layout has no rows. -/
  | emptyLayout
  /-- The level that was read from a source is wrong. -/
  | level (source : Text) (fault : LevelFault)
  /-- There is no folder of levels. -/
  | noLevels (folder : String)
  /-- No level has the id that was asked for. -/
  | noLevel (id : Json) (folder : String)
  /-- Two level files have one id. -/
  | sharedLevelId (id : Int) (file : String)
  /-- The program unrolls to more than `limit` instructions. -/
  | programTooLong (limit : Int)
  /-- The level's predecessor has not been completed. -/
  | levelLocked (id : Json)
  /-- A value cannot number a file. -/
  | badFileNumber (given : Json)
  /-- The table of stages does not allow the move. -/
  | forbiddenMove (current target : Stage)
  /-- There is no such pace. -/
  | unknownSpeed (given : Json)
  /-- A setting has no usable value. -/
  | setting (fault : SettingFault)

namespace Fault

/-- What a message shows of a long text: its first two hundred characters. -/
def shortened (s : String) : String := String.ofList (s.toList.take 200)

/-- What is said of a text that has a half of a surrogate pair: where the first one stands, and how
many follow each other there. -/
def brokenTextMessage (text : Text) : String :=
  let start := (text.takeWhile fun p => !p.isHalf).length
  let halves := (text.drop start).takeWhile CodePoint.isHalf
  let place := match halves with
    | [half] => s!"character {Text.quote [half]} in position {start}"
    | _ => s!"characters in position {start}-{start + halves.length - 1}"
  s!"'utf-8' codec can't encode {place}: surrogates not allowed"

/-- What a value is called that cannot number a file. -/
def kindName : Json → String
  | .real _ => "float"
  | _ => "str"

/-- The wording of a fault; those that are told by their kind alone have none. -/
def message : Fault → Option Text
  | .invalid _ | .wrongKind | .notRecord | .noItem | .tooLarge | .badJson | .badEncoding => none
  | .notANumber => some "cannot convert float NaN to integer"
  | .brokenText text => some (brokenTextMessage text)
  | .badFileNumber given =>
    some s!"Unknown format code 'd' for object of type '{kindName given}'"
  | .badInteger text =>
    some s!"invalid literal for int() with base 10: {shortened (Text.quote text)}"
  | .badReal text => some s!"could not convert string to float: {Text.quote text}"
  | .unknownWord given vocabulary => some s!"{given.literal} is not a valid {vocabulary}"
  | .missingField name => some name
  | .emptyLayout => some "max() arg is an empty sequence"
  | .level source fault => some (source ++ ": " ++ fault.message)
  | .noLevels folder => some s!"Levels directory not found: {folder}"
  | .noLevel id folder => some ("Level " ++ id.text ++ s!" not found in {folder}")
  | .sharedLevelId id file => some s!"Duplicate level id {id} in {file}"
  | .programTooLong limit =>
    some <| s!"Program unrolls to more than {limit} instructions.\n\n" ++
      "Remediation tips:\n  - Lower loop repeat counts or nest fewer loops\n" ++
      "  - Raise CODEQUEST_MAX_INSTRUCTIONS if the level really needs it"
  | .levelLocked id =>
    some <| "Level " ++ id.text ++ " is locked.\n\nRemediation tips:\n" ++
      "  - Complete level " ++ id.pred.text ++ " first\n" ++
      "  - Check the progress store passed to the session"
  | .forbiddenMove current target =>
    some <| s!"Cannot go from '{current.name}' to '{target.name}'. " ++
      s!"Allowed from '{current.name}': " ++ ", ".intercalate (current.next.map Stage.name)
  | .unknownSpeed given =>
    some ("Unknown tick speed " ++ given.text ++ "ms; choose one of [200, 400, 800]")
  | .setting fault => some fault.message

end Fault

/-- A checked value as a result. -/
def Checked.result {α : Type} : Checked α → Except Fault α
  | .good a => .ok a
  | .bad issues => .error (.invalid issues)

/-- The word that a value names. -/
def Word.ofJson {α : Type} [Word α] (vocabulary : String) (given : Json) : Except Fault α :=
  match given with
  | .str s =>
    match Word.ofSpelling? s with
    | some word => .ok word
    | none => .error (.unknownWord given vocabulary)
  | _ => .error (.unknownWord given vocabulary)

end RobotPuzzle
