import BlockTheme.Json.Reader
import BlockTheme.Settings.Data

/-!
# Reading settings

The text of a settings file is JSON, read more leniently than that of a document: halves of surrogate
pairs may stand alone, and the only limit to how deep values nest is the room that there is for
reading. What has no room is an error of its own.
-/
namespace BlockTheme.Settings

open Text (Glyph Glyphs)

/-- Why a text gives no settings. -/
inductive Unread where
  | malformed
  /-- Lists and records nest deeper than there is room for. -/
  | tooDeep
  deriving DecidableEq, Repr

/-- The glyph of a code unit. -/
def glyphOfUnit (unit : Nat) : Glyph :=
  if h : unit - Text.firstHalf < 2048 then
    if Text.firstHalf ≤ unit then .half ⟨unit - Text.firstHalf, h⟩ else .char (Char.ofNat unit)
  else .char (Char.ofNat unit)

def isHighHalf (unit : Nat) : Bool := 0xd800 ≤ unit && unit < 0xdc00

def isLowHalf (unit : Nat) : Bool := 0xdc00 ≤ unit && unit < 0xe000

/-- The character of two halves. -/
def pairChar (high low : Nat) : Char :=
  Char.ofNat (0x10000 + 0x400 * (high - 0xd800) + (low - 0xdc00))

/-- A text after its opening quote: its glyphs and the rest. -/
def readText : List Char → Option (Glyphs × List Char)
  | [] => none
  | '\\' :: 'u' :: a :: b :: c :: d :: rest =>
    match Json.unit? a b c d with
    | none => none
    | some unit =>
      -- two halves that belong together are one character, any other half stands for itself
      let alone := (readText rest).map fun (s, r) => (glyphOfUnit unit :: s, r)
      match rest with
      | '\\' :: 'u' :: a :: b :: c :: d :: more =>
        match Json.unit? a b c d with
        | none => none
        | some low =>
          if isHighHalf unit && isLowHalf low then
            (readText more).map fun (s, r) => (.char (pairChar unit low) :: s, r)
          else alone
      | _ => alone
  | '\\' :: c :: rest =>
    match Json.escaped? c with
    | some x => (readText rest).map fun (s, r) => (.char x :: s, r)
    | none => none
  | c :: rest =>
    if c.toNat = 34 then some ([], rest)
    else if c.toNat < 32 ∨ c.toNat = 92 then none
    else (readText rest).map fun (s, r) => (.char c :: s, r)

/-- A literal or a number as an atom. -/
def atomOf? : Json → Option Atom
  | .null => some .null
  | .bool b => some (.flag b)
  | .number n => some (.number n)
  | _ => none

def readAtom (s : List Char) : Except Unread (Data × List Char) :=
  match Json.readScalar s with
  | none => .error .malformed
  | some (v, rest) =>
    match atomOf? v with
    | some a => .ok (.atom a, rest)
    | none => .error .malformed

mutual

/-- A value at the front of a text, with `room` for so many more levels of nesting. Every call takes
one step of `fuel`, of which twice the length of the text is enough. -/
def readValue (fuel room : Nat) (s : List Char) : Except Unread (Data × List Char) :=
  match fuel with
  | 0 => .error .malformed
  | fuel + 1 =>
    match s with
    | [] => .error .malformed
    | c :: rest =>
      if c = '[' then
        match room with
        | 0 => .error .tooDeep
        | room + 1 =>
          match Json.skip rest with
          | ']' :: rest => .ok (.list [], rest)
          | rest => (readItems fuel room rest).map fun (items, r) => (.list items, r)
      else if c.toNat = 123 then
        match room with
        | 0 => .error .tooDeep
        | room + 1 =>
          match Json.skip rest with
          | [] => .error .malformed
          | d :: rest =>
            if d.toNat = 125 then .ok (.record [], rest)
            else
              (readMembers fuel room [] (d :: rest)).map fun (members, r) => (.record members, r)
      else if c.toNat = 34 then
        match readText rest with
        | some (s, r) => .ok (.text s, r)
        | none => .error .malformed
      else readAtom (c :: rest)

/-- Items up to the closing bracket. -/
def readItems (fuel room : Nat) (s : List Char) : Except Unread (List Data × List Char) :=
  match fuel with
  | 0 => .error .malformed
  | fuel + 1 =>
    match readValue fuel room s with
    | .error why => .error why
    | .ok (v, rest) =>
      match Json.skip rest with
      | ',' :: rest => (readItems fuel room (Json.skip rest)).map fun (items, r) => (v :: items, r)
      | ']' :: rest => .ok ([v], rest)
      | _ => .error .malformed

/-- Members up to the closing brace, added to those read before. -/
def readMembers (fuel room : Nat) (before : Members Data) (s : List Char) :
    Except Unread (Members Data × List Char) :=
  match fuel with
  | 0 => .error .malformed
  | fuel + 1 =>
    match s with
    | [] => .error .malformed
    | c :: rest =>
      if c.toNat ≠ 34 then .error .malformed
      else
        match readText rest with
        | none => .error .malformed
        | some (key, rest) =>
          match Json.skip rest with
          | ':' :: rest =>
            match readValue fuel room (Json.skip rest) with
            | .error why => .error why
            | .ok (v, rest) =>
              -- of several members with one key the last value counts, in the place of the first
              let members := before.set (.text key) v
              match Json.skip rest with
              | ',' :: rest => readMembers fuel room members (Json.skip rest)
              | d :: rest => if d.toNat = 125 then .ok (members, rest) else .error .malformed
              | [] => .error .malformed
          | _ => .error .malformed

end

/-- Reads a text that holds one value and nothing else but blanks around it. -/
def read (room : Nat) (text : String) : Except Unread Data :=
  let s := text.toList
  match readValue (2 * s.length + 2) room (Json.skip s) with
  | .error why => .error why
  | .ok (v, rest) => if (Json.skip rest).isEmpty then .ok v else .error .malformed

end BlockTheme.Settings
