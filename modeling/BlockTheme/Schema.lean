import BlockTheme.Binary64

/-!
# Checked values

Reading a value out of JSON gives either the value or the list of everything that is wrong with it
(`Checked`). Every `Issue` says where the fault is and what the `Problem` is. Two readings combine
so that the issues of both are kept, in order.
-/
namespace BlockTheme.Schema

/-- One step into a value: the member of an object or the item of an array. -/
inductive Step where
  | key (name : String)
  | index (position : Nat)
  deriving DecidableEq, Repr

inductive Problem where
  | missing
  | notAText
  | notAnInteger
  /-- A text that spells no integer. -/
  | unreadableInteger
  /-- A number between two integers. -/
  | fractional
  /-- An integer beyond the size that a number or a text may give. -/
  | oversizedInteger
  /-- An infinity, or what is not a number. -/
  | notFinite
  | notANumber
  | unreadableNumber
  | notAFlag
  /-- A text or a number that stands for neither truth value. -/
  | unreadableFlag
  | notAnArray
  /-- Something else than an object where texts are kept by name. -/
  | notAMap
  /-- Something else than an object where one with fixed members belongs. -/
  | notAnObject
  /-- None of the words of a vocabulary, which has a name of its own or not. -/
  | notListed (vocabulary : Bool) (options : List String)
  | empty
  /-- A text that is no JSON, or JSON that nests too deep. -/
  | notJson
  deriving DecidableEq, Repr

/-- The options of a vocabulary, the last one after an `or`. -/
def listing : List String → String
  | [] => ""
  | [a] => a
  | [a, b] => a ++ " or " ++ b
  | a :: rest => a ++ ", " ++ listing rest

def Problem.code : Problem → String
  | .missing => "missing"
  | .notAText => "string_type"
  | .notAnInteger => "int_type"
  | .unreadableInteger => "int_parsing"
  | .fractional => "int_from_float"
  | .oversizedInteger => "int_parsing_size"
  | .notFinite => "finite_number"
  | .notANumber => "float_type"
  | .unreadableNumber => "float_parsing"
  | .notAFlag => "bool_type"
  | .unreadableFlag => "bool_parsing"
  | .notAnArray => "list_type"
  | .notAMap => "dict_type"
  | .notAnObject => "model_type"
  | .notListed true _ => "enum"
  | .notListed false _ => "literal_error"
  | .empty => "too_short"
  | .notJson => "json_invalid"

/-- A problem in words. What is wrong with a text that is no JSON is not said. -/
def Problem.message : Problem → Option String
  | .missing => "Field required"
  | .notAText => "Input should be a valid string"
  | .notAnInteger => "Input should be a valid integer"
  | .unreadableInteger =>
    "Input should be a valid integer, unable to parse string as an integer"
  | .fractional => "Input should be a valid integer, got a number with a fractional part"
  | .oversizedInteger => "Unable to parse input string as an integer, exceeded maximum size"
  | .notFinite => "Input should be a finite number"
  | .notANumber => "Input should be a valid number"
  | .unreadableNumber => "Input should be a valid number, unable to parse string as a number"
  | .notAFlag => "Input should be a valid boolean"
  | .unreadableFlag => "Input should be a valid boolean, unable to interpret input"
  | .notAnArray => "Input should be a valid array"
  | .notAMap => "Input should be an object"
  | .notAnObject => "Input should be an object"
  | .notListed _ options => "Input should be " ++ listing options
  | .empty => "List should have at least 1 item after validation, not 0"
  | .notJson => none

/-- A problem and the way to it from the value that was read. -/
structure Issue where
  path : List Step
  problem : Problem
  deriving DecidableEq, Repr

/-- The same problem, seen from one step further out. -/
def Issue.within (step : Step) (issue : Issue) : Issue := { issue with path := step :: issue.path }

/-- A value, or everything that is wrong with what should have given it. -/
inductive Checked (α : Type) where
  | valid (value : α)
  | invalid (issues : List Issue)

namespace Checked

variable {α β : Type}

/-- A reading that failed for one reason, at the value itself. -/
def fail (problem : Problem) : Checked α := .invalid [⟨[], problem⟩]

def map (f : α → β) : Checked α → Checked β
  | .valid a => .valid (f a)
  | .invalid issues => .invalid issues

/-- A function and its argument, with the issues of both. -/
def apply : Checked (α → β) → Checked α → Checked β
  | .valid f, .valid a => .valid (f a)
  | .valid _, .invalid later => .invalid later
  | .invalid issues, .valid _ => .invalid issues
  | .invalid issues, .invalid later => .invalid (issues ++ later)

instance : Functor Checked where
  map := map

instance : Applicative Checked where
  pure := valid
  seq f a := apply f (a ())

def within (step : Step) : Checked α → Checked α
  | .valid a => .valid a
  | .invalid issues => .invalid (issues.map (Issue.within step))

def toOption : Checked α → Option α
  | .valid a => some a
  | .invalid _ => none

end Checked

end BlockTheme.Schema
