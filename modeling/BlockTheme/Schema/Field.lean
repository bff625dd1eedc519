import BlockTheme.Json
import BlockTheme.Schema
import BlockTheme.Text.Numeral

/-!
# Reading fields

What each kind of field takes: texts, integers, numbers, flags, words of a vocabulary, arrays and
maps, and the members of objects under either of their two names. A field is generous where the
meaning is plain (`"12"` for 12, `1.0` for 1, `"yes"` for true) and says what it wanted otherwise.
-/
namespace BlockTheme.Schema

variable {α : Type}

/-! ## Single values -/

/-- The magnitude at which signed 64-bit integers end. -/
def wordBound : Nat := Nat.pow 2 63

def isWord (n : Int) : Bool := -(wordBound : Int) ≤ n && n < (wordBound : Int)

/-- A text; nothing else stands for one. -/
def text : Json → Checked String
  | .string s => .valid s
  | _ => .fail .notAText

/-- The integer that a floating-point number stands for. Its magnitude has to stay below the one at
which 64-bit integers end. -/
def wholeNumber (x : Binary64) : Checked Int :=
  match x with
  | .finite .. =>
    match x.toInt? with
    | none => .fail .fractional
    | some n => if n.natAbs < wordBound then .valid n else .fail .oversizedInteger
  | _ => .fail .notFinite

/-- An integer of any size, also written as a text, a flag or a number without fraction. -/
def integer : Json → Checked Int
  | .number (.int n) => .valid n
  | .number (.float x) => wholeNumber x
  | .bool b => .valid (if b then 1 else 0)
  | .string s =>
    match Text.fieldInteger s.toList with
    | .ok n => .valid n
    | .error .malformed => .fail .unreadableInteger
    | .error .tooLong => .fail .oversizedInteger
  | _ => .fail .notAnInteger

/-- A floating-point number, also written as an integer, a text or a flag. -/
def float : Json → Checked Binary64
  | .number (.int n) => .valid (Binary64.ofInt n)
  | .number (.float x) => .valid x
  | .bool b => .valid (Binary64.ofInt (if b then 1 else 0))
  | .string s =>
    match Text.fieldNumber? s.toList with
    | some x => .valid x
    | none => .fail .unreadableNumber
  | _ => .fail .notANumber

/-- An integer or a floating-point number. -/
def number : Json → Checked Number
  | .number n => .valid n
  | .bool b => .valid (.int (if b then 1 else 0))
  | v =>
    -- an integer is tried first, and what is neither is reported once for each of the two
    match integer v, float v with
    | .valid n, _ => .valid (.int n)
    | .invalid _, .valid x => .valid (.float x)
    | .invalid issues, .invalid later =>
      .invalid (issues.map (Issue.within (.key "int")) ++ later.map (Issue.within (.key "float")))

def flagWords : List (String × Bool) :=
  [("0", false), ("off", false), ("f", false), ("false", false), ("n", false), ("no", false),
    ("1", true), ("on", true), ("t", true), ("true", true), ("y", true), ("yes", true)]

/-- A flag, also written as 0 or 1 or as a word for it in letters of any case. -/
def flag : Json → Checked Bool
  | .bool b => .valid b
  | .string s =>
    match flagWords.lookup (String.ofList (s.toList.map Char.toLower)) with
    | some b => .valid b
    | none => .fail .unreadableFlag
  | .number (.int n) =>
    if n = 0 then .valid false
    else if n = 1 then .valid true
    -- a wider integer is not even a bad flag
    else if isWord n then .fail .unreadableFlag
    else .fail .notAFlag
  | .number (.float x) =>
    match wholeNumber x with
    | .valid n =>
      if n = 0 then .valid false
      else if n = 1 then .valid true
      else .fail .unreadableFlag
    | .invalid _ => .fail .notAFlag
  | _ => .fail .notAFlag

/-! ## Vocabularies -/

/-- A closed set of words, each standing for a value. -/
class Named (α : Type) where
  all : List α
  name : α → String

/-- The value that a word stands for. -/
def Named.ofName? [Named α] (word : String) : Option α :=
  (Named.all : List α).find? fun a => Named.name a == word

def Named.options (α : Type) [Named α] : List String :=
  (Named.all : List α).map fun a => "'" ++ Named.name a ++ "'"

/-- One of the words of a vocabulary. -/
def oneOf (vocabulary : Bool) [Named α] : Json → Checked α
  | .string s =>
    match Named.ofName? s with
    | some a => .valid a
    | none => .fail (.notListed vocabulary (Named.options α))
  | _ => .fail (.notListed vocabulary (Named.options α))

/-! ## Arrays and maps -/

def nullable (read : Json → Checked α) : Json → Checked (Option α)
  | .null => .valid none
  | v => (read v).map some

/-- The items of an array, from a position on. -/
def items (read : Json → Checked α) (position : Nat) : List Json → Checked (List α)
  | [] => .valid []
  | v :: rest =>
    (List.cons <$> (read v).within (.index position)) <*> items read (position + 1) rest

def array (read : Json → Checked α) : Json → Checked (List α)
  | .array values => items read 0 values
  | _ => .fail .notAnArray

/-- An array with at least one item. -/
def filledArray (read : Json → Checked α) : Json → Checked (List α)
  | .array [] => .fail .empty
  | v => array read v

def entries (read : Json → Checked α) : Fields → Checked (List (String × α))
  | [] => .valid []
  | (key, v) :: rest =>
    ((fun a more => (key, a) :: more) <$> (read v).within (.key key)) <*> entries read rest

/-- Gives a name a value: in its place if it is there, at the end otherwise. -/
def put : List (String × α) → String → α → List (String × α)
  | [], name, a => [(name, a)]
  | (other, b) :: rest, name, a =>
    if other = name then (other, a) :: rest else (other, b) :: put rest name a

/-- The values by name, of several with one name the last. -/
def byName (found : List (String × α)) : List (String × α) :=
  found.foldl (fun map (name, a) => put map name a) []

/-- A map from names to values. Every value is read, also one that a later one replaces. -/
def map (read : Json → Checked α) : Json → Checked (List (String × α))
  | .object members => byName <$> entries read members
  | _ => .fail .notAMap

/-! ## Members of objects -/

/-- The two ways of writing the names of members. -/
inductive Naming where
  | camelCase
  | snakeCase
  deriving DecidableEq, Repr

/-- The name of a member, in both ways of writing. -/
structure Key where
  camel : String
  snake : String

def Key.word (name : String) : Key := ⟨name, name⟩

def Key.spelled (key : Key) : Naming → String
  | .camelCase => key.camel
  | .snakeCase => key.snake

/-- The last member with a name, and the spelling under which it was found. -/
def Key.find? (key : Key) (members : Fields) : Option (String × Json) :=
  -- with both spellings there this one counts, whatever its value
  match members.last? key.camel with
  | some v => some (key.camel, v)
  | none => (members.last? key.snake).map fun v => (key.snake, v)

def required (key : Key) (read : Json → Checked α) (members : Fields) : Checked α :=
  match key.find? members with
  | some (name, v) => (read v).within (.key name)
  | none => .invalid [⟨[.key key.camel], .missing⟩]

def withDefault (default : α) (key : Key) (read : Json → Checked α) (members : Fields) :
    Checked α :=
  match key.find? members with
  | some (name, v) => (read v).within (.key name)
  | none => .valid default

/-- A member that may be null or missing. -/
def optional (key : Key) (read : Json → Checked α) (members : Fields) : Checked (Option α) :=
  withDefault none key (nullable read) members

/-- An object with fixed members. -/
def object (read : Fields → Checked α) : Json → Checked α
  | .object members => read members
  | _ => .fail .notAnObject

end BlockTheme.Schema
