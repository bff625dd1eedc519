import BlockTheme.Binary64.Shortest
import BlockTheme.Json
import BlockTheme.Text.Quoted

/-!
# Showing values

How a value is shown where a text is expected: a text as itself, everything else in a notation of
its own with `True`, `False` and `None`, in which texts inside arrays and objects are quoted.
-/
namespace BlockTheme.Json

/-- Floating-point numbers as they are shown: laid out as in JSON, with `inf` and `nan` in lower
case. -/
def displayLayout : Binary64.Layout := ⟨-4, 16, 2, "inf", "nan"⟩

def displayNumber : Number → List Char
  | .int n => Number.digits n
  | .float x => x.text displayLayout

mutual

/-- A value inside another one. -/
def literal : Json → List Char
  | .null => "None".toList
  | .bool true => "True".toList
  | .bool false => "False".toList
  | .number n => displayNumber n
  | .string s => Text.Quoted.encode s.toList
  | .array [] => ['[', ']']
  | .array (v :: rest) => '[' :: (literal v ++ literalItems rest ++ [']'])
  | .object [] => [Char.ofNat 123, Char.ofNat 125]
  | .object ((key, v) :: rest) =>
    Char.ofNat 123 :: (Text.Quoted.encode key.toList ++ [':', ' '] ++ literal v
      ++ literalMembers rest ++ [Char.ofNat 125])

/-- The items after the first one. -/
def literalItems : List Json → List Char
  | [] => []
  | v :: rest => [',', ' '] ++ literal v ++ literalItems rest

/-- The members after the first one. -/
def literalMembers : List (String × Json) → List Char
  | [] => []
  | (key, v) :: rest =>
    [',', ' '] ++ Text.Quoted.encode key.toList ++ [':', ' '] ++ literal v
      ++ literalMembers rest

end

def display : Json → List Char
  | .string s => s.toList
  | v => literal v

def displayText (v : Json) : String := String.ofList (display v)

end BlockTheme.Json
