import RobotPuzzle.Text.Basic

/-!
# JSON values

The values of JSON. Integers are kept apart from doubles, and an object keeps its fields in the
order in which their names first came up.

* `get?_set_self`, `get?_set_of_ne`: what a field holds after it, or another one, has been set.
-/

namespace RobotPuzzle

/-- A JSON value. -/
inductive Json where
  | null
  | bool (b : Bool)
  | int (n : Int)
  | real (x : Float)
  | str (s : Text)
  | arr (items : List Json)
  | obj (fields : List (Text × Json))
  deriving Repr, Inhabited, BEq

/-- The fields of an object, in order. -/
abbrev Fields := List (Text × Json)

namespace Fields

/-- The value of the field `name`. -/
def get? (fields : Fields) (name : Text) : Option Json :=
  match fields with
  | [] => none
  | (key, value) :: rest => if key == name then some value else get? rest name

/-- Whether there is a field `name`. -/
def has (fields : Fields) (name : Text) : Bool :=
  fields.any (·.1 == name)

/-- Sets the field `name`: in place when it is there, at the end otherwise. -/
def set (fields : Fields) (name : Text) (value : Json) : Fields :=
  match fields with
  | [] => [(name, value)]
  | (key, old) :: rest =>
    if key == name then (key, value) :: rest else (key, old) :: set rest name value

theorem get?_set_self (fields : Fields) (name : Text) (value : Json) :
    (fields.set name value).get? name = some value := by
  induction fields with
  | nil => simp [set, get?]
  | cons f rest ih => by_cases h : f.1 = name <;> simp [set, get?, h, ih]

theorem get?_set_of_ne {name other : Text} (h : other ≠ name) (fields : Fields) (value : Json) :
    (fields.set name value).get? other = fields.get? other := by
  induction fields with
  | nil => simp [set, get?, h.symm]
  | cons f rest ih =>
    by_cases hk : f.1 = name
    · simp [set, get?, hk, h.symm]
    · by_cases ho : f.1 = other <;> simp [set, get?, hk, ho, h, ih]

end Fields

namespace Json

/-- Whether the value counts as true where a condition is asked of it: null, false, zero and
whatever is empty do not. -/
def truthy : Json → Bool
  | .null => false
  | .bool b => b
  | .int n => n != 0
  | .real x => x != 0.0
  | .str s => !s.isEmpty
  | .arr items => !items.isEmpty
  | .obj fields => !fields.isEmpty

/-- Whether the value may be a key: arrays and objects may not. -/
def isKey : Json → Bool
  | .arr _ => false
  | .obj _ => false
  | _ => true

/-- A list of texts. -/
def texts (ts : List Text) : Json := .arr (ts.map .str)

/-- A list of words. -/
def words (ws : List String) : Json := .arr (ws.map fun w : String => .str w)

/-- The value, or null where there is none. -/
def orNull {α : Type} (f : α → Json) : Option α → Json
  | none => .null
  | some a => f a

mutual

/-- A value with null in the stead of the infinities and of NaN, which JSON has no numbers for. -/
def finite : Json → Json
  | .real x => if x.isFinite then .real x else .null
  | .arr items => .arr (finiteItems items)
  | .obj fields => .obj (finiteFields fields)
  | .null => .null
  | .bool b => .bool b
  | .int n => .int n
  | .str s => .str s

/-- The items of an array, each with null in the stead of what is not finite. -/
def finiteItems : List Json → List Json
  | [] => []
  | item :: rest => finite item :: finiteItems rest

/-- The fields of an object, each with null in the stead of what is not finite. -/
def finiteFields : List (Text × Json) → List (Text × Json)
  | [] => []
  | (name, value) :: rest => (name, finite value) :: finiteFields rest

end

end Json

end RobotPuzzle
