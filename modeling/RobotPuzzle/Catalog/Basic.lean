import RobotPuzzle.Catalog.Index
import RobotPuzzle.Json.Reader
import RobotPuzzle.Level.Reading

/-!
# Catalogs

A catalog finds its levels in a folder of JSON files, one level a file. Files whose names start with
an underscore are drafts and are passed over. The folder is read when the catalog is first asked
something, in the order of the files' names, and again with each question until all files are good.

* `index_remember`: what a catalog has kept is what it would read again.
* `find_int`, `nextAfter_int`: an integer names the level with the id.
-/

namespace RobotPuzzle

/-- What a file holds: octets, a text, or a value that has been read already. -/
inductive Content where
  | octets (bytes : ByteArray)
  | text (s : String)
  | value (j : Json)

namespace Content

/-- The value that a text spells. -/
def readText (s : String) : Except Fault Json :=
  match Json.read? s with
  | none => .error .badJson
  | some j => .ok j

/-- The value that a file holds. -/
def read : Content → Except Fault Json
  | .octets bytes =>
    match String.fromUTF8? bytes with
    | none => .error .badEncoding
    | some s => readText s
  | .text s => readText s
  | .value j => .ok j

end Content

/-- A file of a level folder. -/
structure LevelFile where
  name : String
  content : Content

namespace LevelFile

/-- Whether a file holds a level that is meant to be played, going by its name. -/
def isCandidate (f : LevelFile) : Bool := f.name.endsWith ".json" && !f.name.startsWith "_"

/-- Puts a file into a folder, in the stead of one with its name. -/
def put (files : List LevelFile) (f : LevelFile) : List LevelFile :=
  files.filter (·.name != f.name) ++ [f]

/-- The files that hold levels, in the order of their names. -/
def candidates (files : List LevelFile) : List LevelFile :=
  (files.filter isCandidate).mergeSort fun f g => f.name ≤ g.name

/-- Reads the levels of files into an index. -/
def readInto (index : LevelIndex) : List LevelFile → Except Fault LevelIndex
  | [] => .ok index
  | f :: rest => do
    let level ← Level.read f.name (← f.content.read)
    if (index.get? level.id).isSome then throw (.sharedLevelId level.id f.name)
    readInto (index.insert level) rest

end LevelFile

/-- A catalog of levels. -/
structure Catalog where
  /-- What the folder is called. -/
  folder : String
  /-- The files of the folder, if there is one. -/
  files : Option (List LevelFile)
  /-- The levels, once they have been read. -/
  loaded : Option LevelIndex

namespace Catalog

/-- A catalog that has not been read yet. Of files with one name the last one counts. -/
def ofFiles (folder : String) (files : Option (List LevelFile)) : Catalog :=
  ⟨folder, files.map (·.foldl LevelFile.put []), none⟩

/-- The levels of the catalog. -/
def index (c : Catalog) : Except Fault LevelIndex :=
  match c.loaded, c.files with
  | some index, _ => .ok index
  | none, none => .error (.noLevels c.folder)
  | none, some files => LevelFile.readInto [] (LevelFile.candidates files)

/-- The catalog after it has been asked something: it keeps the levels that it could read. -/
def remember (c : Catalog) : Catalog :=
  match c.index with
  | .ok index => { c with loaded := some index }
  | .error _ => c

/-- The level with an id. -/
def get (c : Catalog) (id : Int) : Except Fault Level := do
  match (← c.index).get? id with
  | some level => pure level
  | none => throw (.noLevel (.int id) c.folder)

/-- The level that follows an id. -/
def next (c : Catalog) (id : Int) : Except Fault (Option Level) := do
  pure ((← c.index).next? id)

/-! ## Asking by a JSON value

A level may be asked for by any JSON value. A number that is equal to an id names the level with the
id, and other values name none; arrays and objects cannot be looked up at all. -/

/-- The level that a value names. -/
def find (c : Catalog) (key : Json) : Except Fault Level := do
  let index ← c.index
  if key.isKey then
    match key.whole?.bind index.get? with
    | some level => pure level
    | none => throw (.noLevel key c.folder)
  else throw .wrongKind

/-- The level that follows a number. Without levels nothing is compared, so any value will do. -/
def nextAfter (c : Catalog) (key : Json) : Except Fault (Option Level) := do
  let index ← c.index
  if index.isEmpty || (key.isBelow? 0).isSome then pure (index.nextAfter? key)
  else throw .wrongKind

/-- The levels of the chapter that a value names. -/
def ofChapter (c : Catalog) (key : Json) : Except Fault LevelIndex := do
  pure ((← c.index).filter fun level => key.whole? == some level.chapter)

theorem find_int (c : Catalog) (id : Int) : c.find (.int id) = c.get id := rfl

theorem nextAfter_int (c : Catalog) (id : Int) : c.nextAfter (.int id) = c.next id := by
  simp only [nextAfter, next, Json.isBelow?_int, Option.isSome_some, Bool.or_true, if_true]
  rfl

theorem index_of_loaded {c : Catalog} {index : LevelIndex} (h : c.loaded = some index) :
    c.index = .ok index := by
  simp [Catalog.index, h]

theorem index_remember (c : Catalog) : c.remember.index = c.index := by
  unfold remember
  split
  · next index h => rw [h]; rfl
  · rfl

end Catalog

end RobotPuzzle
