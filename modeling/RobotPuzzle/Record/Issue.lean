/-!
# Issues of records

What can be wrong with the fields of a record, and checked values: a value, or every issue that was
found on the way to it. Checking does not stop at the first issue.
-/

namespace RobotPuzzle

/-- Why a field is refused. -/
inductive Cause where
  | missing
  | notRecord
  | notInteger
  | unreadableInteger
  | brokenText
  | tooWideInteger
  | fraction
  | notFinite
  | tooSmall
  | tooGreat
  | notBoolean
  | unreadableBoolean
  | notText
  | notList
  | unknownWord
  deriving DecidableEq, Repr

namespace Cause

/-- The name under which a cause is reported. -/
def name : Cause → String
  | .missing => "missing"
  | .notRecord => "model_type"
  | .notInteger => "int_type"
  | .unreadableInteger => "int_parsing"
  | .brokenText => "string_unicode"
  | .tooWideInteger => "int_parsing_size"
  | .fraction => "int_from_float"
  | .notFinite => "finite_number"
  | .tooSmall => "greater_than_equal"
  | .tooGreat => "less_than_equal"
  | .notBoolean => "bool_type"
  | .unreadableBoolean => "bool_parsing"
  | .notText => "string_type"
  | .notList => "list_type"
  | .unknownWord => "enum"

end Cause

/-- A refused field: the names and indices that lead to it, and the cause. -/
structure Issue where
  path : List String
  cause : Cause
  deriving DecidableEq, Repr

/-- The path as one text. -/
def Issue.location (issue : Issue) : String := ".".intercalate issue.path

/-- A value, or all that is wrong with it. -/
inductive Checked (α : Type) where
  | good (value : α)
  | bad (issues : List Issue)

namespace Checked

variable {α β : Type}

/-- A refusal for one cause. -/
def refuse (cause : Cause) : Checked α := .bad [⟨[], cause⟩]

/-- A function of a checked value. -/
def map (f : α → β) : Checked α → Checked β
  | .good a => .good (f a)
  | .bad issues => .bad issues

/-- A checked function of a checked value; the issues of both are kept. -/
def seq : Checked (α → β) → Checked α → Checked β
  | .good f, .good a => .good (f a)
  | .good _, .bad issues => .bad issues
  | .bad issues, .good _ => .bad issues
  | .bad issues, .bad more => .bad (issues ++ more)

instance : Applicative Checked where
  pure := .good
  map := map
  seq f a := seq f (a ())

/-- A check whose issues lie under a field name or an index. -/
def under (step : String) : Checked α → Checked α
  | .good a => .good a
  | .bad issues => .bad (issues.map fun issue => { issue with path := step :: issue.path })

/-- A further check of a value that is good so far. -/
def andThen (c : Checked α) (next : α → Checked β) : Checked β :=
  match c with
  | .good a => next a
  | .bad issues => .bad issues

/-- Checks of the items of a list, each under its index, counted from `first`. -/
def items (check : α → Checked β) (first : Nat) : List α → Checked (List β)
  | [] => .good []
  | a :: rest => List.cons <$> (check a).under (toString first) <*> items check (first + 1) rest

end Checked

end RobotPuzzle
