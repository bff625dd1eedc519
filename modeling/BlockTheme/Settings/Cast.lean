import BlockTheme.Settings.Shown
import BlockTheme.Text.Case
import BlockTheme.Text.Numeral

/-!
# Casting settings

A value that replaces another one is cast to the kind of the old one where that makes sense: texts are
read as numbers, anything can be shown as a text, and so on. A cast makes something new, but what lies
inside it is what lay inside the value before. A value that cannot be cast stays as it is. Two things
are errors: numbers beyond the range of their new kind, and values that lie too deep to be shown.
-/
namespace BlockTheme.Settings.Cast

open Text (Glyphs)

inductive Fault where
  | beyondRange
  | tooDeep
  deriving DecidableEq, Repr

/-- The words that switch a flag on. -/
def onWords : List String := ["1", "true", "yes", "on"]

/-- Whether a text is a word for on, in any case and with blanks around it. -/
def isOn (s : Glyphs) : Bool :=
  match Glyphs.chars? s with
  | some chars => onWords.contains (Text.lowerText (Text.stripText (String.ofList chars)))
  | none => false

def floatOfInteger (n : Int) : Except Fault (Option Binary64) :=
  match Binary64.ofInt n with
  | .infinity _ => .error .beyondRange
  | x => .ok (some x)

section Atoms

variable {α : Type}

/-- As a flag: texts by the words for on, everything else by whether it is given. -/
def toFlag : View α → Bool
  | .atom (.text s) => isOn s
  | v => v.isGiven

/-- As an integer: texts are read, numbers cut off. -/
def toInteger : View α → Except Fault (Option Int)
  | .atom (.number (.int n)) => .ok (some n)
  | .atom (.number (.float (.infinity _))) => .error .beyondRange
  | .atom (.number (.float x)) => .ok x.truncate?
  | .atom (.flag b) => .ok (some (if b then 1 else 0))
  | .atom (.text s) => .ok ((Glyphs.chars? s).bind Text.settingInteger?)
  | _ => .ok none

def toFloat : View α → Except Fault (Option Binary64)
  | .atom (.number (.int n)) => floatOfInteger n
  | .atom (.number (.float x)) => .ok (some x)
  | .atom (.flag b) => floatOfInteger (if b then 1 else 0)
  | .atom (.text s) => .ok ((Glyphs.chars? s).bind Text.settingNumber?)
  | _ => .ok none

end Atoms

variable {α : Type} (reading : Reading α)

/-- As a text. One that cannot be shown for a number in it is not cast. -/
def toText (room : Nat) (v : α) : Except Fault (Option Glyphs) :=
  match reading.shown room v with
  | .ok s => .ok (some s)
  | .error .tooLong => .ok none
  | .error .tooDeep => .error .tooDeep

/-- The values that a value runs through: glyphs, items or keys. -/
def itemsOf? (v : α) : Option (List α) :=
  match reading.view v with
  | .atom (.text s) => some (s.map fun glyph => reading.ofAtom (.text [glyph]))
  | .list items => some items
  | .record members => some (members.map fun (key, _) => reading.ofAtom key)
  | .atom _ => none

/-- Two values as a key and what it stands for. Lists and records are no keys. -/
def pairOf? (v : α) : Option (Atom × α) :=
  match itemsOf? reading v with
  | some [key, value] =>
    match reading.view key with
    | .atom a => some (a, value)
    | _ => none
  | _ => none

/-- The record of pairs. Of several ones with the same key the last value counts. -/
def recordOf (pairs : List (Atom × α)) : Members α :=
  pairs.foldl (fun members (key, v) => members.set key v) []

/-- As the members of a record, which any values make that are pairs. -/
def membersOf? (v : α) : Option (Members α) :=
  match reading.view v with
  | .record members => some members
  | _ => ((itemsOf? reading v).bind fun items => items.mapM (pairOf? reading)).map recordOf

/-- What a value becomes as one of a kind; nothing if it cannot be cast. -/
def toKind (room : Nat) (kind : Kind) (v : α) : Except Fault (Option (View α)) :=
  match kind with
  | .null => .ok none
  | .flag => .ok (some (.atom (.flag (toFlag (reading.view v)))))
  | .integer => (toInteger (reading.view v)).map fun n => n.map fun n => .atom (.number (.int n))
  | .float => (toFloat (reading.view v)).map fun x => x.map fun x => .atom (.number (.float x))
  | .text => (toText reading room v).map fun s => s.map fun s => .atom (.text s)
  | .list => .ok ((itemsOf? reading v).map .list)
  | .record => .ok ((membersOf? reading v).map .record)

/-- What is stored of a value where another one, or none, stood before: something new, or the value
as it is. -/
def replacement (room : Nat) (old : Option α) (v : α) : Except Fault (Option (View α)) :=
  match old with
  | none => .ok none
  | some old => toKind reading room (reading.view old).kind v

end BlockTheme.Settings.Cast
