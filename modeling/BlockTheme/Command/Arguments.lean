import BlockTheme.Text.Numeral
import BlockTheme.Text.Quoted

/-!
# Command-line arguments

A grammar of switches and one operand, and how arguments are read by it: switches under any
unambiguous beginning of their long names, values joined to them or after them, single-letter
switches run together. What fits nowhere is left over and reported by the caller.
-/
namespace BlockTheme.Command

/-- What a switch takes. -/
inductive Value where
  | none
  | text
  | integer
  /-- Nothing; it asks for help. -/
  | help
  deriving DecidableEq, Repr

structure Switch where
  /-- Its names, the last of which it is known by. -/
  names : List String
  value : Value
  deriving DecidableEq, Repr

namespace Switch

def key (s : Switch) : String := s.names.getLastD ""

def label (s : Switch) : String := "/".intercalate s.names

def takesValue (s : Switch) : Bool := s.value = .text || s.value = .integer

end Switch

/-- What the operand is. -/
inductive Operand where
  | single (name : String)
  /-- An argument and everything after it; it may be missing. -/
  | rest
  deriving DecidableEq, Repr

/-- The switches and the operand that are understood. -/
structure Grammar where
  switches : List Switch
  operand : Operand

/-- Why reading ended early. -/
inductive Stop where
  | help
  | fault (message : String)
  deriving DecidableEq, Repr

/-- What arguments say. -/
structure Parsed where
  /-- The values of switches, the last first; an empty one where a switch has none. -/
  values : List (String × String) := []
  operand : Option (List String) := none
  extras : List String := []
  deriving DecidableEq, Repr

def Parsed.value? (p : Parsed) (key : String) : Option String := p.values.lookup key

def Parsed.has (p : Parsed) (key : String) : Bool := (p.value? key).isSome

/-! ## Recognizing switches -/

/-- What an argument may be taken for. -/
inductive Mark where
  | operand
  /-- The two hyphens after which everything is an operand. -/
  | hyphens
  /-- A switch as it was written, or none that is known, and a value joined to it. -/
  | switch (found : Option Switch) (written : List Char) (joined : Option (List Char))
  deriving DecidableEq, Repr

def begins (start s : List Char) : Bool := start.isPrefixOf s

def Grammar.find? (g : Grammar) (name : List Char) : Option Switch :=
  g.switches.find? fun s => s.names.any fun n => n.toList == name

def Grammar.names (g : Grammar) : List (List Char × Switch) :=
  g.switches.flatMap fun s => s.names.map fun n => (n.toList, s)

/-- The text before and after the first equals sign, if there is one. -/
def splitJoined (s : List Char) : List Char × Option (List Char) :=
  let name := s.takeWhile (· != '=')
  if name.length = s.length then (s, none) else (name, some (s.drop (name.length + 1)))

/-- The switches that an argument may mean, with the names that it may stand for and the values
joined to them. -/
def Grammar.candidates (g : Grammar) (s : List Char) :
    List (List Char × Switch × Option (List Char)) :=
  if begins ['-', '-'] s then
    let (name, joined) := splitJoined s
    (g.names.filter fun (n, _) => begins name n).map fun (n, found) => (n, found, joined)
  else
    g.names.filterMap fun (n, found) =>
      if n == s.take 2 then some (n, found, some (s.drop 2))
      else if begins s n then some (n, found, none)
      else none

/-- Whether an argument is a negative number: digits, perhaps with a point among them. -/
def isNegativeNumber (s : List Char) : Bool :=
  match s with
  | '-' :: r =>
    let (whole, rest) := r.span fun c => (Text.digit? c).isSome
    match rest with
    | [] => !whole.isEmpty
    | '.' :: fraction => !fraction.isEmpty && fraction.all fun c => (Text.digit? c).isSome
    | _ => false
  | _ => false

/-- What an argument before the two hyphens may be taken for. -/
def Grammar.mark (g : Grammar) (arg : String) : Except Stop Mark :=
  let s := arg.toList
  if !begins ['-'] s || s.length = 1 then .ok .operand
  else
    match g.find? s with
    | some found => .ok (.switch (some found) s none)
    | none =>
      let (name, joined) := splitJoined s
      match joined, g.find? name with
      | some value, some found => .ok (.switch (some found) name (some value))
      | _, _ =>
        match g.candidates s with
        | [(name, found, joined)] => .ok (.switch (some found) name joined)
        | [] =>
          if isNegativeNumber s || s.contains ' ' then .ok .operand
          else .ok (.switch none s none)
        | several =>
          .error (.fault ("ambiguous option: " ++ arg ++ " could match "
            ++ ", ".intercalate (several.map fun (n, _, _) => String.ofList n)))

/-- Arguments with what they may be taken for. -/
def Grammar.marks (g : Grammar) : List String → Except Stop (List (String × Mark))
  | [] => .ok []
  | arg :: rest =>
    if arg = "--" then .ok ((arg, .hyphens) :: rest.map fun a => (a, .operand))
    else
      match g.mark arg with
      | .error stop => .error stop
      | .ok mark => (g.marks rest).map fun more => (arg, mark) :: more

/-! ## Reading -/

/-- A switch with the value that it got. -/
abbrev Use := Switch × Option String

/-- The value that was joined to a switch: two hyphens stand for none. -/
def joinedValue? (joined : List Char) : Option String :=
  if joined = ['-', '-'] then none else some (String.ofList joined)

/-- The uses that a switch makes, of itself and of those run together with it, and the arguments
after them. -/
def Grammar.uses (g : Grammar) : Nat → Switch → List Char → Option (List Char) →
    List (String × Mark) → Except Stop (List Use × List (String × Mark))
  | fuel, s, written, some joined, rest =>
    if s.takesValue then .ok ([(s, joinedValue? joined)], rest)
    else
      let ignored := Stop.fault ("argument " ++ s.label ++ ": ignored explicit argument "
        ++ Text.quoted (String.ofList joined))
      -- every switch that is run together takes one step of fuel
      match fuel, joined with
      | fuel + 1, letter :: more =>
        if begins ['-', '-'] written then .error ignored
        else
          match g.find? ['-', letter] with
          | none => .error ignored
          | some next =>
            (g.uses fuel next ['-', letter] (if more.isEmpty then none else some more) rest).map
              fun (later, rest) => ((s, none) :: later, rest)
      | _, _ => .error ignored
  | _, s, _, none, rest =>
    if s.takesValue then
      match rest with
      | (value, .operand) :: rest => .ok ([(s, some value)], rest)
      | _ => .error (.fault ("argument " ++ s.label ++ ": expected one argument"))
    else .ok ([(s, none)], rest)

/-- Records the uses of switches in order. -/
def Parsed.record (p : Parsed) : List Use → Except Stop Parsed
  | [] => .ok p
  | (s, value) :: rest =>
    if s.value = .help then .error .help
    else
      match value.filter fun text =>
          s.value = .integer && (Text.settingInteger? text.toList).isNone with
      | some text =>
        .error (.fault ("argument " ++ s.label ++ ": invalid int value: " ++ Text.quoted text))
      | none => ({ p with values := (s.key, value.getD "") :: p.values } : Parsed).record rest

def Mark.isHyphens : Mark → Bool
  | .hyphens => true
  | _ => false

def Mark.isSwitch : Mark → Bool
  | .switch _ _ _ => true
  | _ => false

/-- The operand at the front of arguments, and those after it. -/
def Grammar.operand? (g : Grammar) (args : List (String × Mark)) :
    Option (List String × List (String × Mark)) :=
  -- the two hyphens before and behind an operand are no part of it
  let (before, rest) := args.span fun (_, mark) => mark.isHyphens
  match rest with
  | (arg, .operand) :: rest =>
    match g.operand with
    | .single _ =>
      let (behind, rest) := rest.span fun (_, mark) => mark.isHyphens
      some (((before.map (·.1)) ++ [arg] ++ behind.map (·.1)).erase "--", rest)
    | .rest => some (args.map (·.1), [])
  | _ => none

/-- Reads marked arguments, of which every step takes at least one. -/
def Grammar.read (g : Grammar) : Nat → Parsed → List (String × Mark) → Except Stop Parsed
  | 0, p, _ => .ok p
  | _ + 1, p, [] => .ok p
  | fuel + 1, p, (arg, .switch found written joined) :: rest =>
    match found with
    | none => g.read fuel { p with extras := p.extras ++ [arg] } rest
    | some s =>
      match g.uses arg.length s written joined rest with
      | .error stop => .error stop
      | .ok (uses, rest) =>
        match p.record uses with
        | .error stop => .error stop
        | .ok p => g.read fuel p rest
  | fuel + 1, p, args =>
    match (if p.operand.isNone then g.operand? args else none) with
    | some (operand, rest) => g.read fuel { p with operand := some operand } rest
    | none =>
      let (skipped, rest) := args.span fun (_, mark) => !mark.isSwitch
      g.read fuel { p with extras := p.extras ++ skipped.map (·.1) } rest

/-- Reads arguments. -/
def Grammar.parse (g : Grammar) (args : List String) : Except Stop Parsed := do
  let marks ← g.marks args
  let p ← g.read (marks.length + 1) {} marks
  match g.operand, p.operand with
  -- a single operand has to be there
  | .single name, none => .error (.fault ("the following arguments are required: " ++ name))
  | _, _ => return p

end BlockTheme.Command
