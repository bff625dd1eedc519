import BlockTheme.Binary64

/-!
# JSON values

The values of the documents, settings and block attributes. An object keeps its members in the
order in which they were put there, and numbers keep the distinction between integers of any size
and binary floating-point numbers.
-/
namespace BlockTheme

/-- A number: an integer of any size or a binary64 number. -/
inductive Number where
  | int (value : Int)
  | float (value : Binary64)
  deriving DecidableEq

inductive Json where
  | null
  | bool (value : Bool)
  | number (value : Number)
  | string (value : String)
  | array (items : List Json)
  | object (members : List (String × Json))

/-- The members of an object, in order. -/
abbrev Fields := List (String × Json)

namespace Number

def digits (n : Int) : List Char :=
  (if n < 0 then ['-'] else []) ++ Nat.toDigits 10 n.natAbs

def isZero : Number → Bool
  | .int n => n == 0
  | .float x => x.isZero

end Number

namespace Fields

def get? (fields : Fields) (key : String) : Option Json := fields.lookup key

/-- The value of the last of the members with a key. -/
def last? : Fields → String → Option Json
  | [], _ => none
  | (k, v) :: rest, key => (last? rest key).or (if k = key then some v else none)

/-- Gives a key a value: in its place if it is there, at the end otherwise. -/
def set : Fields → String → Json → Fields
  | [], key, value => [(key, value)]
  | (k, v) :: rest, key, value =>
    if k = key then (k, value) :: rest else (k, v) :: set rest key value

def keys (fields : Fields) : List String := fields.map (·.1)

end Fields

namespace Json

def int (n : Int) : Json := .number (.int n)

def nat (n : Nat) : Json := .number (.int n)

def text? : Option String → Json
  | some s => .string s
  | none => .null

/-- Whether a value counts as given: null, false, zero, and empty texts, arrays and objects do
not. -/
def isGiven : Json → Bool
  | .null => false
  | .bool b => b
  | .number n => !n.isZero
  | .string s => !s.isEmpty
  | .array items => !items.isEmpty
  | .object members => !members.isEmpty

def fields? : Json → Option Fields
  | .object members => some members
  | _ => none

mutual

/-- How deep arrays and objects nest. -/
def depth : Json → Nat
  | .array items => depthItems items + 1
  | .object members => depthMembers members + 1
  | _ => 0

def depthItems : List Json → Nat
  | [] => 0
  | v :: rest => max (depth v) (depthItems rest)

def depthMembers : List (String × Json) → Nat
  | [] => 0
  | (_, v) :: rest => max (depth v) (depthMembers rest)

end

/-- Whether a value says nothing: null, an empty text or an empty object. -/
def isVoid : Json → Bool
  | .null => true
  | .string s => s.isEmpty
  | .object members => members.isEmpty
  | _ => false

mutual

/-- Drops the members of an object that say nothing, or with nothing left in them. -/
def clean : Json → Json
  | .object members => .object (cleanMembers members)
  -- arrays stay as they are, with all that is in them
  | v => v

def cleanMembers : List (String × Json) → List (String × Json)
  | [] => []
  | (key, v) :: rest =>
    if (clean v).isVoid then cleanMembers rest else (key, clean v) :: cleanMembers rest

end

end Json

def Fields.clean (fields : Fields) : Fields := Json.cleanMembers fields

end BlockTheme
