import RobotPuzzle.Json.Printer
import RobotPuzzle.Json.Reader
import RobotPuzzle.Progress.Basic
import RobotPuzzle.Text.LineBreak

/-!
# Folders of progress files

Progress kept in files, one for each level, under a folder that may not exist yet. A file is named
for its level's id and holds the level's record as JSON, one field a line.

* `text?_put_self`, `text?_put_of_ne`: what a file holds after a write.
-/

namespace RobotPuzzle

/-- A folder of text files, by name; there may be no folder at all. -/
structure Folder where
  files : Option (List (String × String))
  deriving DecidableEq, Repr

namespace Folder

/-- No folder. -/
def absent : Folder := ⟨none⟩

/-- Makes sure that there is a folder. -/
def create (f : Folder) : Folder := ⟨some (f.files.getD [])⟩

/-- Writes a text under a name: in place when there is such a file, as a new one otherwise. -/
def putFile (name text : String) : List (String × String) → List (String × String)
  | [] => [(name, text)]
  | (key, old) :: rest =>
    if key = name then (key, text) :: rest else (key, old) :: putFile name text rest

/-- Writes a file, creating the folder if need be. -/
def put (f : Folder) (name text : String) : Folder := ⟨some (putFile name text (f.files.getD []))⟩

/-- What a file holds. -/
def text? (f : Folder) (name : String) : Option String :=
  ((f.files.getD []).find? (·.1 == name)).map (·.2)

/-- The name of a level's file. Ids have three places or more, the sign included. -/
def fileName (id : Int) : String := "level_" ++ Numeral.padded 3 id ++ ".json"

/-- Whether a file holds progress, going by its name. -/
def isProgressFile (name : String) : Bool := name.startsWith "level_" && name.endsWith ".json"

/-- The text of a record. -/
def write (p : Progress) : String := p.toJson.pretty 0

/-- The record that a text holds. -/
def read (text : String) : Except Fault Progress :=
  match Json.read? text with
  | none => .error .badJson
  | some j => (Progress.check j).result

/-- The files by name, with the texts as they are read: with line feeds for line breaks. -/
def contents (f : Folder) : Option (List (String × String)) :=
  f.files.map (·.map fun (name, text) => (name, String.ofList (Text.lineFed text.toList)))

/-- The record of a level. -/
def get (f : Folder) (id : Int) : Except Fault (Option Progress) :=
  match f.text? (fileName id) with
  | none => .ok none
  | some text => (read text).map some

/-- Saves a record. -/
def save (f : Folder) (p : Progress) : Folder := f.put (fileName p.levelId) (write p)

/-- The records of all progress files, in ascending order of their level ids. -/
def all (f : Folder) : Except Fault (List Progress) := do
  let texts := (f.files.getD []).filter fun (name, _) => isProgressFile name
  let records ← texts.mapM fun (_, text) => read text
  pure (records.mergeSort fun p q => p.levelId ≤ q.levelId)

theorem text?_put_self (f : Folder) (name text : String) :
    (f.put name text).text? name = some text := by
  unfold text? put
  generalize f.files.getD [] = files
  induction files with
  | nil => simp [putFile]
  | cons g rest ih =>
    by_cases h : g.1 = name
    · simp [putFile, h]
    · have hb : (g.1 == name) = false := by simpa using h
      simpa [putFile, h, List.find?_cons, hb] using ih

theorem text?_put_of_ne {name other : String} (h : other ≠ name) (f : Folder) (text : String) :
    (f.put name text).text? other = f.text? other := by
  unfold text? put
  generalize f.files.getD [] = files
  have hn : (name == other) = false := by simpa using h.symm
  induction files with
  | nil => simp [putFile, hn]
  | cons g rest ih =>
    by_cases hg : g.1 = name
    · simp [putFile, hg, hn]
    · by_cases ho : g.1 = other
      · simp [putFile, ho, h]
      · have hb : (g.1 == other) = false := by simpa using ho
        simpa [putFile, hg, List.find?_cons, hb] using ih

end Folder

end RobotPuzzle
