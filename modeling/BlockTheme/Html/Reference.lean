import BlockTheme.Html.Name
import BlockTheme.Text.Numeral

/-!
# Character references

What numeric and named references stand for. Numbers from 128 to 159 are read as the characters
that are usually meant by them, which the code page Windows-1252 has at these places. Between tags
a reference is one token and `numberedText` and `namedText` give its text; in the value of an
attribute all references are replaced by `unescape`. A decimal number with too many digits is not
computed at all (`tooLong?`, `longNumberIn?`): whoever reads a text has to look for one first.
-/
namespace BlockTheme.Html

/-- The character that stands in for what cannot be shown. -/
def replacement : Char := Char.ofNat 0xfffd

/-- The code points that are meant by the numbers from 128 on. -/
def codePage : List Nat :=
  [0x20ac, 0x81, 0x201a, 0x192, 0x201e, 0x2026, 0x2020, 0x2021, 0x2c6, 0x2030, 0x160, 0x2039, 0x152,
    0x8d, 0x17d, 0x8f, 0x90, 0x2018, 0x2019, 0x201c, 0x201d, 0x2022, 0x2013, 0x2014, 0x2dc, 0x2122,
    0x161, 0x203a, 0x153, 0x9d, 0x17e, 0x178]

/-- The character of a number, if there is one. -/
def character? (n : Nat) : Option Char :=
  if n = 0 || (0xd800 ≤ n && n ≤ 0xdfff) || 0x10ffff < n then none
  else if 0x80 ≤ n && n ≤ 0x9f then some (Char.ofNat (codePage.getD (n - 0x80) n))
  else some (Char.ofNat n)

/-- The number that digits of a base spell. -/
def number (hexadecimal : Bool) (digits : List Char) : Nat :=
  digits.foldl
    (fun n c => (if hexadecimal then 16 else 10) * n + (Text.hexDigit? c).getD 0) 0

/-- The digits of a number, counted, if they are too many. Hexadecimal ones never are. -/
def tooLong? (hexadecimal : Bool) (digits : List Char) : Option Nat :=
  if !hexadecimal && Text.maxDigits < digits.length then some digits.length else none

/-! ## Between tags -/

/-- The text of a numeric reference. A number that no character has, zero and those of surrogates
among them, stands for `replacement`. -/
def numberedText (hexadecimal : Bool) (digits : List Char) : List Char :=
  [(character? (number hexadecimal digits)).getD replacement]

/-- The text of a named reference, which is itself if the name stands for nothing. -/
def namedText (name : List Char) : List Char := (named? name).getD ('&' :: name)

/-! ## In the values of attributes -/

/-- Whether a number is left out of attributes: control characters and code points that are no
characters. -/
def isLeftOut (n : Nat) : Bool :=
  (1 ≤ n && n ≤ 8) || n == 0xb || (0xe ≤ n && n ≤ 0x1f) || n == 0x7f
    || (0xfdd0 ≤ n && n ≤ 0xfdef) || (0xfffe ≤ n && n % 0x10000 ≥ 0xfffe)

/-- What a numeric reference stands for in an attribute, which is nothing for some characters. -/
def numberedValue (hexadecimal : Bool) (digits : List Char) : List Char :=
  let n := number hexadecimal digits
  match character? n with
  | none => [replacement]
  | some c => if isLeftOut n then [] else [c]

/-- The characters that the name of a reference may be made of. -/
def isNameChar (c : Char) : Bool :=
  c != '\t' && c != '\n' && c.toNat != 12 && c != ' ' && c != '<' && c != '&' && c != '#' &&
    c != ';'

/-- The most characters that a name is looked for in. -/
def longestName : Nat := 32

/-- What the longest understood beginning of a name, of `length` characters or fewer but at least
two, stands for; and how long it is. -/
def lenientStart? (name : List Char) : Nat → Option (List Char × Nat)
  | 0 => none
  | length + 1 =>
    if length = 0 then none
    else if isLenient (name.take (length + 1)) then
      (named? (name.take (length + 1))).map fun chars => (chars, length + 1)
    else lenientStart? name length

/-- What a named reference stands for in an attribute, whether a semicolon follows or not. -/
def namedValue (name : List Char) (semicolon : Bool) : List Char :=
  let tail := if semicolon then [';'] else []
  match (if semicolon then named? name else none) with
  | some chars => chars
  | none =>
    -- without the semicolon, or for a name that is none, its beginning is tried
    match lenientStart? name name.length with
    | some (chars, length) => chars ++ name.drop length ++ tail
    | none => '&' :: (name ++ tail)

/-- An optional semicolon at the front. -/
def semicolon? : List Char → Bool × List Char
  | ';' :: r => (true, r)
  | r => (false, r)

/-- The reference after an ampersand, replaced, and the rest of the text; nothing if there is
none. -/
def replaceReference? (s : List Char) : Option (List Char × List Char) :=
  let numbered (hexadecimal : Bool) (digits rest : List Char) :=
    some (numberedValue hexadecimal digits, (semicolon? rest).2)
  match s with
  | '#' :: r =>
    let (digits, rest) := r.span Char.isDigit
    if !digits.isEmpty then numbered false digits rest
    else
      match r with
      | x :: r =>
        let (digits, rest) := r.span fun c => (Text.hexDigit? c).isSome
        if (x = 'x' || x = 'X') && !digits.isEmpty then numbered true digits rest else none
      | [] => none
  | s =>
    let name := (s.take longestName).takeWhile isNameChar
    if name.isEmpty then none
    else
      let (semicolon, rest) := semicolon? (s.drop name.length)
      some (namedValue name semicolon, rest)

/-- Replaces references, at most as many as there is `fuel` for. -/
def unescapeFrom : Nat → List Char → List Char
  | 0, s => s
  | _ + 1, [] => []
  | fuel + 1, c :: r =>
    if c = '&' then
      match replaceReference? r with
      | some (chars, rest) => chars ++ unescapeFrom fuel rest
      | none => '&' :: unescapeFrom fuel r
    else c :: unescapeFrom fuel r

/-- The text with all its references replaced. -/
def unescape (s : List Char) : List Char := unescapeFrom s.length s

/-- The digits of the decimal number after an ampersand, if they are too many. -/
def longDecimal? : List Char → Option Nat
  | '#' :: r => tooLong? false (r.takeWhile Char.isDigit)
  | _ => none

/-- The number of digits in the first reference that has too many of them. References are found as
`unescapeFrom` finds them. -/
def longNumberFrom : Nat → List Char → Option Nat
  | 0, _ => none
  | _ + 1, [] => none
  | fuel + 1, c :: r =>
    if c = '&' then
      match longDecimal? r with
      | some digits => some digits
      | none =>
        match replaceReference? r with
        | some (_, rest) => longNumberFrom fuel rest
        | none => longNumberFrom fuel r
    else longNumberFrom fuel r

def longNumberIn? (s : List Char) : Option Nat := longNumberFrom s.length s

end BlockTheme.Html
