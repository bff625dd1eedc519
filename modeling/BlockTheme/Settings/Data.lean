import BlockTheme.Json
import BlockTheme.Text.Glyph

/-!
# Data of the settings

What the settings consist of: atoms, lists and records. The members of a record are found by keys, and
any atom can be one. This is more than JSON has, where keys are texts: a record can be made of pairs.

A value is either data as such, a tree, or a reference to an object in memory. The functions that only
look at values are the same for both; they work on a `Reading`.
-/
namespace BlockTheme.Settings

open Text (Glyphs)

/-! ## Atoms -/

/-- A value with nothing inside it. -/
inductive Atom where
  | null
  | flag (value : Bool)
  | number (value : Number)
  | text (value : Glyphs)
  deriving DecidableEq

namespace Atom

/-- An atom in the form that it shares with those that count as the same key: flags and numbers
without a fraction become integers. -/
def canonical : Atom → Atom
  | .flag b => .number (.int (if b then 1 else 0))
  | .number (.float x) => .number ((x.toInt?.map Number.int).getD (.float x))
  | a => a

/-- Whether two atoms count as one key. -/
def isSame (a b : Atom) : Bool := a.canonical = b.canonical

/-- Whether an atom counts as given: null, false, zero and the empty text do not. -/
def isGiven : Atom → Bool
  | .null => false
  | .flag b => b
  | .number n => !n.isZero
  | .text s => !s.isEmpty

end Atom

/-! ## Members -/

/-- The members of a record, in the order in which their keys were put there. -/
abbrev Members (α : Type) := List (Atom × α)

namespace Members

variable {α : Type}

def get? : Members α → Atom → Option α
  | [], _ => none
  | (k, v) :: rest, key => if k.isSame key then some v else get? rest key

/-- Gives a key a value: in its place, with the key that is there, or else at the end. -/
def set : Members α → Atom → α → Members α
  | [], key, v => [(key, v)]
  | (k, w) :: rest, key, v => if k.isSame key then (k, v) :: rest else (k, w) :: set rest key v

end Members

/-! ## Values -/

/-- The kinds of values. Integers and floating-point numbers are two of them. -/
inductive Kind where
  | null | flag | integer | float | text | list | record
  deriving DecidableEq, Repr

/-- What a value shows of itself: an atom, or the values right inside it. -/
inductive View (α : Type) where
  | atom (a : Atom)
  | list (items : List α)
  | record (members : Members α)

namespace View

variable {α : Type}

def kind : View α → Kind
  | .atom .null => .null
  | .atom (.flag _) => .flag
  | .atom (.number (.int _)) => .integer
  | .atom (.number (.float _)) => .float
  | .atom (.text _) => .text
  | .list _ => .list
  | .record _ => .record

/-- Whether a value counts as given. Empty lists and records do not. -/
def isGiven : View α → Bool
  | .atom a => a.isGiven
  | .list items => !items.isEmpty
  | .record members => !members.isEmpty

def members? : View α → Option (Members α)
  | .record members => some members
  | _ => none

end View

/-- How values of a type are looked at. -/
structure Reading (α : Type) where
  view : α → View α
  ofAtom : Atom → α
  /-- What tells two values apart that show the same, for values that are kept in memory. -/
  identity? : α → Option Nat

/-- Data as such. -/
inductive Data where
  | atom (a : Atom)
  | list (items : List Data)
  | record (members : List (Atom × Data))

namespace Data

def view : Data → View Data
  | .atom a => .atom a
  | .list items => .list items
  | .record members => .record members

def ofView : View Data → Data
  | .atom a => .atom a
  | .list items => .list items
  | .record members => .record members

def reading : Reading Data := ⟨view, .atom, fun _ => none⟩

def null : Data := .atom .null

def flag (b : Bool) : Data := .atom (.flag b)

def int (n : Int) : Data := .atom (.number (.int n))

def float (x : Binary64) : Data := .atom (.number (.float x))

def text (s : Glyphs) : Data := .atom (.text s)

/-- A record whose keys are texts. -/
def fields (members : List (String × Data)) : Data :=
  .record (members.map fun (name, v) => (.text name, v))

def kind (v : Data) : Kind := v.view.kind

def isGiven (v : Data) : Bool := v.view.isGiven

def members? : Data → Option (Members Data)
  | .record members => some members
  | _ => none

mutual

/-- Data as JSON, for those who look for members by texts: members with other keys are left out. A
half of a character becomes one that stands for what cannot be shown. -/
def json : Data → Json
  | .atom .null => .null
  | .atom (.flag b) => .bool b
  | .atom (.number n) => .number n
  | .atom (.text s) => .string (String.ofList (s.map fun glyph => glyph.char?.getD (Char.ofNat 0xfffd)))
  | .list items => .array (jsonItems items)
  | .record members => .object (jsonMembers members)

def jsonItems : List Data → List Json
  | [] => []
  | v :: rest => json v :: jsonItems rest

def jsonMembers : List (Atom × Data) → Fields
  | [] => []
  | (.text s, v) :: rest =>
    match Glyphs.chars? s with
    | some chars => (String.ofList chars, json v) :: jsonMembers rest
    | none => jsonMembers rest
  | _ :: rest => jsonMembers rest

end

end Data

end BlockTheme.Settings
