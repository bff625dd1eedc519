import BlockTheme.Settings

/-!
# Verbosity

From which level on messages are reported: in general, for single modules, and for modules that are
to be silent. A level is a number or the name of one; what is neither gives a level of its own for
each of the three.
-/
namespace BlockTheme.Logging

open Settings (Atom Data Members)
open Text (Glyphs)

/-- A level. A flag is kept as the flag that it is. -/
inductive Verbosity where
  | number (n : Int)
  | flag (b : Bool)
  deriving DecidableEq, Repr

/-- Why there are no levels. -/
inductive BadLevel where
  /-- A text that names no level. -/
  | unnamed
  | noLevel
  /-- The levels of modules are given by something that is no record. -/
  | noRecord
  /-- A level is given for something that is no text, and so not the name of a module. -/
  | noName
  deriving DecidableEq, Repr

def named : List (String × Int) :=
  [("CRITICAL", 50), ("FATAL", 50), ("ERROR", 40), ("WARN", 30), ("WARNING", 30), ("INFO", 20),
    ("DEBUG", 10), ("NOTSET", 0)]

/-- Words that are reserved for other things than levels. -/
def reserved : List (String × BadLevel) := [("BASIC_FORMAT", .unnamed), ("_STYLES", .noLevel)]

/-- A text as a word in capitals, in which names of levels are looked up. -/
def capitals? (s : Glyphs) : Option String :=
  (Glyphs.chars? s).map fun chars => String.ofList (chars.flatMap Text.asciiUpperChar)

/-- The level that a value stands for. -/
def level (fallback : Int) : Data → Except BadLevel Verbosity
  | .atom (.number (.int n)) => .ok (.number n)
  | .atom (.flag b) => .ok (.flag b)
  | .atom (.text s) =>
    match (capitals? s).bind fun word => reserved.lookup word with
    | some why => .error why
    | none => .ok (.number (((capitals? s).bind fun word => named.lookup word).getD fallback))
  | _ => .ok (.number fallback)

/-- The level of messages in general when it is not said. -/
def generalFallback : Int := 30

/-- The level of a module when it is not said. -/
def moduleFallback : Int := 20

/-- The level of a silenced module when it is not said. -/
def silencedFallback : Int := 50

structure Levels where
  root : Verbosity := .number 0
  modules : List (Glyphs × Verbosity) := []
  deriving DecidableEq

/-- Whether a name stands for messages in general. -/
def isRoot (name : Glyphs) : Bool := name = "" || name = "root"

def Levels.set (levels : Levels) (name : Glyphs) (v : Verbosity) : Levels :=
  if isRoot name then { levels with root := v }
  else { levels with modules := levels.modules.filter (·.1 != name) ++ [(name, v)] }

/-- The level of a module; none is the lowest. -/
def Levels.get (levels : Levels) (name : Glyphs) : Verbosity :=
  if isRoot name then levels.root else (levels.modules.lookup name).getD (.number 0)

/-- The name of the module that a key stands for. -/
def nameOf : Atom → Except BadLevel Glyphs
  | .text s => .ok s
  -- what is not given stands for messages in general
  | key => if key.isGiven then .error .noName else .ok ""

def setAll (fallback : Int) (levels : Levels) : Members Data → Except BadLevel Levels
  | [] => .ok levels
  | (key, v) :: rest => do
    let name ← nameOf key
    let found ← level fallback v
    setAll fallback (levels.set name found) rest

/-- The levels of modules that a value gives. -/
def membersOf : Data → Except BadLevel (Members Data)
  | .record members => .ok members
  | v => if v.isGiven then .error .noRecord else .ok []

/-- The levels for messages in general, for modules and for silenced modules. -/
def configure (general modules silenced : Data) : Except BadLevel Levels := do
  let root ← level generalFallback general
  let levels ← setAll moduleFallback { root } (← membersOf modules)
  -- the silenced modules have the last word
  setAll silencedFallback levels (← membersOf silenced)

end BlockTheme.Logging
