import BlockTheme.Json
import BlockTheme.Text.Numeral

/-!
# Reading JSON

Strict JSON with three more literals, `NaN`, `Infinity` and `-Infinity`. A reader may limit how deep
arrays and objects nest. Of several members with one key it keeps the last value (`parse?`), or else
all members for whoever has to check each of them (`read? .all`).
-/
namespace BlockTheme.Json

/-- The blanks between the parts of a JSON text. -/
def isSpace (c : Char) : Bool := c == ' ' || c == '\t' || c == '\n' || c == '\r'

def skip (s : List Char) : List Char := s.dropWhile isSpace

/-- The 16-bit code unit of four hexadecimal digits. -/
def unit? (a b c d : Char) : Option Nat := do
  let a ← Text.hexDigit? a
  let b ← Text.hexDigit? b
  let c ← Text.hexDigit? c
  let d ← Text.hexDigit? d
  return 4096 * a + 256 * b + 16 * c + d

/-- The character that a letter after a backslash stands for. -/
def escaped? (c : Char) : Option Char :=
  match c with
  | 'b' => some (Char.ofNat 8)
  | 'f' => some (Char.ofNat 12)
  | 'n' => some '\n'
  | 'r' => some '\r'
  | 't' => some '\t'
  | '/' => some '/'
  | c => if c.toNat = 34 || c.toNat = 92 then some c else none

/-- A string after its opening quote: its characters and the rest of the text. -/
def readString : List Char → Option (List Char × List Char)
  | [] => none
  | '\\' :: 'u' :: a :: b :: c :: d :: rest =>
    match unit? a b c d with
    | none => none
    | some high =>
      -- surrogates have to come in pairs
      if 0xd800 ≤ high ∧ high < 0xdc00 then
        match rest with
        | '\\' :: 'u' :: a :: b :: c :: d :: rest =>
          match unit? a b c d with
          | none => none
          | some low =>
            if 0xdc00 ≤ low ∧ low < 0xe000 then
              (readString rest).map fun (s, r) =>
                (Char.ofNat (0x10000 + 0x400 * (high - 0xd800) + (low - 0xdc00)) :: s, r)
            else none
        | _ => none
      else if 0xdc00 ≤ high ∧ high < 0xe000 then none
      else (readString rest).map fun (s, r) => (Char.ofNat high :: s, r)
  | '\\' :: c :: rest =>
    match escaped? c with
    | some x => (readString rest).map fun (s, r) => (x :: s, r)
    | none => none
  | c :: rest =>
    if c.toNat = 34 then some ([], rest)
    else if c.toNat < 32 ∨ c.toNat = 92 then none
    else (readString rest).map fun (s, r) => (c :: s, r)

/-- An exponent, if an `e` comes first: its value and the rest of the text. -/
def readExponent : List Char → Option (Option Int × List Char)
  | c :: rest =>
    if c = 'e' || c = 'E' then
      let (negative, rest) := Text.readSign rest
      let (power, rest) := rest.span Char.isDigit
      if power.isEmpty then none
      else some (some (Binary64.signed negative (Text.digitsValue power)), rest)
    else some (none, c :: rest)
  | [] => some (none, [])

/-- A number without its sign, and the rest of the text. -/
def readUnsigned (negative : Bool) (s : List Char) : Option (Number × List Char) :=
  let (whole, rest) := s.span Char.isDigit
  -- a zero in front has to stand alone
  let wellFormed :=
    match whole with
    | [] => false
    | '0' :: _ :: _ => false
    | _ => true
  if !wellFormed then none
  else
    let (fraction, rest) :=
      match rest with
      | '.' :: r => let (digits, r) := r.span Char.isDigit; (some digits, r)
      | r => (none, r)
    if fraction == some [] then none
    else
      match readExponent rest with
      | none => none
      | some (power, rest) =>
        -- with neither of the two it is an integer, which may not have too many digits
        if fraction.isNone && power.isNone then
          if Text.maxDigits < whole.length then none
          else some (.int (Binary64.signed negative (Text.digitsValue whole)), rest)
        else
          let digits := fraction.getD []
          let value := Binary64.ofDecimal negative (Text.digitsValue (whole ++ digits))
            (power.getD 0 - digits.length)
          some (.float value, rest)

def literals : List (List Char × Json) :=
  [("null".toList, .null), ("true".toList, .bool true), ("false".toList, .bool false),
    ("NaN".toList, .number (.float .nan)),
    ("Infinity".toList, .number (.float (.infinity false))),
    ("-Infinity".toList, .number (.float (.infinity true)))]

/-- A literal or a number, and the rest of the text. -/
def readScalar (s : List Char) : Option (Json × List Char) :=
  match literals.findSome? fun (word, v) => (Text.dropStart? word s).map fun rest => (v, rest) with
  | some found => some found
  | none =>
    match s with
    | '-' :: rest => (readUnsigned true rest).map fun (n, r) => (.number n, r)
    | s => (readUnsigned false s).map fun (n, r) => (.number n, r)

/-- What an object keeps of several members with one key. -/
inductive Repeats where
  /-- The last value, in the place of the first one. -/
  | last
  /-- All of them. -/
  | all
  deriving DecidableEq, Repr

/-- The members that were read before, and one more. -/
def Repeats.add : Repeats → Fields → String → Json → Fields
  | .last, before, key, v => before.set key v
  | .all, before, key, v => before ++ [(key, v)]

mutual

/-- A value at the front of a text, with at most `room` more levels of nesting. Every call takes
one step of `fuel`, of which the length of the text is enough. -/
def readValue (repeats : Repeats) (fuel room : Nat) (s : List Char) : Option (Json × List Char) :=
  match fuel with
  | 0 => none
  | fuel + 1 =>
    match s with
    | [] => none
    | c :: rest =>
      if c = '[' then
        match room with
        | 0 => none
        | room + 1 =>
          match skip rest with
          | ']' :: rest => some (.array [], rest)
          | rest => (readItems repeats fuel room rest).map fun (items, r) => (.array items, r)
      else if c.toNat = 123 then
        match room with
        | 0 => none
        | room + 1 =>
          match skip rest with
          | [] => none
          | d :: rest =>
            if d.toNat = 125 then some (.object [], rest)
            else
              (readMembers repeats fuel room [] (d :: rest)).map fun (members, r) =>
                (.object members, r)
      else if c.toNat = 34 then
        (readString rest).map fun (chars, r) => (.string (String.ofList chars), r)
      else readScalar (c :: rest)

/-- Items up to the closing bracket. -/
def readItems (repeats : Repeats) (fuel room : Nat) (s : List Char) : Option (List Json × List Char) :=
  match fuel with
  | 0 => none
  | fuel + 1 =>
    match readValue repeats fuel room s with
    | none => none
    | some (v, rest) =>
      match skip rest with
      | ',' :: rest => (readItems repeats fuel room (skip rest)).map fun (items, r) => (v :: items, r)
      | ']' :: rest => some ([v], rest)
      | _ => none

/-- Members up to the closing brace, added to those read before. -/
def readMembers (repeats : Repeats) (fuel room : Nat) (before : Fields) (s : List Char) :
    Option (Fields × List Char) :=
  match fuel with
  | 0 => none
  | fuel + 1 =>
    match s with
    | [] => none
    | c :: rest =>
      if c.toNat ≠ 34 then none
      else
        match readString rest with
        | none => none
        | some (key, rest) =>
          match skip rest with
          | ':' :: rest =>
            match readValue repeats fuel room (skip rest) with
            | none => none
            | some (v, rest) =>
              let members := repeats.add before (String.ofList key) v
              match skip rest with
              | ',' :: rest => readMembers repeats fuel room members (skip rest)
              | d :: rest => if d.toNat = 125 then some (members, rest) else none
              | [] => none
          | _ => none

end

/-- Reads a text that holds one value and nothing else but blanks around it. -/
def read? (repeats : Repeats) (limit : Option Nat) (text : String) : Option Json :=
  let s := text.toList
  -- no text nests deeper than it is long, so that without a limit its length is one
  match readValue repeats (2 * s.length + 2) (limit.getD s.length) (skip s) with
  | some (v, rest) => if (skip rest).isEmpty then some v else none
  | none => none

/-- The value of a text, in whose objects every key stands once. -/
def parse? (limit : Option Nat) (text : String) : Option Json := read? .last limit text

end BlockTheme.Json
