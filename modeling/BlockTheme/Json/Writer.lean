import BlockTheme.Binary64.Shortest
import BlockTheme.Json
import BlockTheme.Text.Quoted

/-!
# Writing JSON

A JSON value as text, on one line or indented. Numbers that are not finite are written as the words
`NaN` and `Infinity`, which strict JSON does not have.
-/
namespace BlockTheme.Json

/-- Floating-point numbers in JSON: positional from 10^-4 up to but not including 10^16, and at
least two digits of an exponent. -/
def layout : Binary64.Layout := ⟨-4, 16, 2, "Infinity", "NaN"⟩

/-- Where a value's line breaks and blanks go. -/
inductive Spacing where
  /-- Everything on one line, with these texts after an item and after a key. -/
  | line (afterItem afterKey : String)
  /-- Every item on a line of its own, indented by `step` spaces for each level. -/
  | indented (step : Nat)

def Spacing.compact : Spacing := .line "" ""

/-- One line, with a space after commas and colons. -/
def Spacing.spaced : Spacing := .line " " " "

/-- A text and whether characters outside ASCII are escaped. -/
structure Style where
  spacing : Spacing
  asciiOnly : Bool := false

def escapeUnit (n : Nat) : List Char := Char.ofNat 92 :: 'u' :: Text.hexDigits 4 n

/-- A character inside a JSON string. -/
def escapeChar (asciiOnly : Bool) (c : Char) : List Char :=
  let n := c.toNat
  if n = 34 || n = 92 then [Char.ofNat 92, c]
  else if c = '\n' then [Char.ofNat 92, 'n']
  else if c = '\r' then [Char.ofNat 92, 'r']
  else if c = '\t' then [Char.ofNat 92, 't']
  else if n = 8 then [Char.ofNat 92, 'b']
  else if n = 12 then [Char.ofNat 92, 'f']
  else if n < 32 then escapeUnit n
  else if asciiOnly && 127 ≤ n then
    if n < 0x10000 then escapeUnit n
    else
      -- beyond the first plane a character is two code units
      let m := n - 0x10000
      escapeUnit (0xd800 + m / 0x400) ++ escapeUnit (0xdc00 + m % 0x400)
  else [c]

def writeString (asciiOnly : Bool) (s : String) : List Char :=
  Char.ofNat 34 :: (s.toList.flatMap (escapeChar asciiOnly) ++ [Char.ofNat 34])

def writeNumber : Number → List Char
  | .int n => Number.digits n
  | .float x => x.text layout

/-- A line break and the indentation of a level, or nothing on one line. -/
def Spacing.break : Spacing → Nat → List Char
  | .line _ _, _ => []
  | .indented step, level => '\n' :: List.replicate (step * level) ' '

def Spacing.comma (spacing : Spacing) (level : Nat) : List Char :=
  match spacing with
  | .line afterItem _ => ',' :: afterItem.toList
  | .indented _ => ',' :: spacing.break level

def Spacing.colon : Spacing → List Char
  | .line _ afterKey => ':' :: afterKey.toList
  | .indented _ => [':', ' ']

mutual

def writeAt (style : Style) (level : Nat) : Json → List Char
  | .null => "null".toList
  | .bool true => "true".toList
  | .bool false => "false".toList
  | .number n => writeNumber n
  | .string s => writeString style.asciiOnly s
  | .array [] => ['[', ']']
  | .array (v :: rest) =>
    '[' :: (style.spacing.break (level + 1) ++ writeAt style (level + 1) v
      ++ writeItems style (level + 1) rest ++ style.spacing.break level ++ [']'])
  | .object [] => [Char.ofNat 123, Char.ofNat 125]
  | .object ((key, v) :: rest) =>
    Char.ofNat 123 :: (style.spacing.break (level + 1) ++ writeString style.asciiOnly key
      ++ style.spacing.colon ++ writeAt style (level + 1) v
      ++ writeMembers style (level + 1) rest ++ style.spacing.break level ++ [Char.ofNat 125])

def writeItems (style : Style) (level : Nat) : List Json → List Char
  | [] => []
  | v :: rest =>
    style.spacing.comma level ++ writeAt style level v ++ writeItems style level rest

def writeMembers (style : Style) (level : Nat) : List (String × Json) → List Char
  | [] => []
  | (key, v) :: rest =>
    style.spacing.comma level ++ writeString style.asciiOnly key ++ style.spacing.colon
      ++ writeAt style level v ++ writeMembers style level rest

end

def write (style : Style) (v : Json) : String := String.ofList (writeAt style 0 v)

/-- A value as text without any blanks between its parts. -/
def compact (v : Json) : String := write ⟨.compact, false⟩ v

/-- A value as text over several lines, indented by two spaces. -/
def pretty (v : Json) : String := write ⟨.indented 2, false⟩ v

end BlockTheme.Json
