import BlockTheme.Binary64
import BlockTheme.Text.Letter

/-!
# Numbers written as text

Integers and decimal numbers in the forms that people type them: with a sign, with leading zeros,
with single underscores between digits. Two spellings are read: that of fields of a document
(`fieldInteger`, `fieldNumber`) and that of settings (`settingInteger?`, `settingNumber?`), which
also takes the decimal digits of other scripts.
-/
namespace BlockTheme.Text

/-- An optional sign at the front: whether it is a minus, and what follows. -/
def readSign : List Char → Bool × List Char
  | '-' :: r => (true, r)
  | '+' :: r => (false, r)
  | r => (false, r)

/-- Digits only, with at most one underscore between two of them: the digits, without the
underscores. -/
def groupedDigits? : List Char → Option (List Char)
  | [] => none
  | [c] => if c.isDigit then some [c] else none
  | c :: '_' :: r => if c.isDigit then (groupedDigits? r).map (c :: ·) else none
  | c :: d :: r => if c.isDigit then (groupedDigits? (d :: r)).map (c :: ·) else none

def digitsValue (s : List Char) : Nat := s.foldl (fun n c => 10 * n + (c.toNat - 48)) 0

/-- The most digits that an integer may be written with. -/
def maxDigits : Nat := 4300

/-- What is said of an integer that is written with too many digits. -/
def tooManyDigits (digits : Nat) : String :=
  let decimal (n : Nat) := String.ofList (Nat.toDigits 10 n)
  "Exceeds the limit (" ++ decimal maxDigits ++ " digits) for integer string conversion: value has "
    ++ decimal digits ++ " digits; use sys.set_int_max_str_digits() to increase the limit"

/-- An unsigned decimal number: digits with at most one point among or next to them, and an
exponent. -/
def unsignedDecimal? (negative : Bool) (s : List Char) : Option Binary64 :=
  let (whole, r) := s.span Char.isDigit
  let (fraction, r) :=
    match r with
    | '.' :: r => r.span Char.isDigit
    | r => ([], r)
  if whole.isEmpty && fraction.isEmpty then none
  else
    let value (exponent : Int) :=
      Binary64.ofDecimal negative (digitsValue (whole ++ fraction)) (exponent - fraction.length)
    match r with
    | [] => some (value 0)
    | c :: r =>
      if c = 'e' || c = 'E' then
        let (minus, power) := readSign r
        if !power.isEmpty && power.all Char.isDigit then
          some (value (Binary64.signed minus (digitsValue power)))
        else none
      else none

/-- A decimal number with a sign, an infinity, or what is not a number, in letters of any case. -/
def decimal? (s : List Char) : Option Binary64 :=
  let (negative, r) := readSign s
  let word := String.ofList (r.map Char.toLower)
  if word = "inf" || word = "infinity" then some (.infinity negative)
  else if word = "nan" then some .nan
  else unsignedDecimal? negative r

/-! ## Fields of a document -/

/-- Why a text gives no integer. -/
inductive NoInteger where
  | malformed
  | tooLong
  deriving DecidableEq, Repr

/-- The zeros in front of a number and the underscores among them, dropped. -/
def dropZeros : List Char → List Char
  | '0' :: r =>
    let (run, rest) := r.span fun c => c == '0' || c == '_'
    -- the last of them stays if no other digit follows
    if startsWith Char.isDigit rest then rest else run.getLastD '0' :: rest
  | s => s

/-- The text without a point and zeros after it, of which there has to be one. -/
def dropZeroFraction (s : List Char) : List Char :=
  let (whole, tail) := s.span (· != '.')
  match tail with
  | _ :: '0' :: zeros => if zeros.all (· == '0') then whole else s
  | _ => s

/-- Whether every underscore has a neighbour on both sides, and none of them is another one. -/
def underscoresSeparate (s : List Char) : Bool :=
  !startsWith (· == '_') s && !startsWith (· == '_') s.reverse
    && !(s.zip (s.drop 1)).contains ('_', '_')

def dropUnderscores (s : List Char) : List Char :=
  if underscoresSeparate s then s.filter (· != '_') else s

/-- An integer that is written in the one canonical way. -/
def canonicalInteger (s : List Char) : Except NoInteger Int :=
  let (negative, digits) :=
    match s with
    | '-' :: r => (true, r)
    | r => (false, r)
  match digits with
  | [] | '0' :: _ :: _ => .error .malformed
  | digits =>
    if !digits.all Char.isDigit then .error .malformed
    else if maxDigits < digits.length then .error .tooLong
    else .ok (Binary64.signed negative (digitsValue digits))

/-- An integer as the text of a field: with blanks around it, a sign, underscores between digits,
and a tail of a point and zeros that changes nothing. -/
def fieldInteger (s : List Char) : Except NoInteger Int :=
  match trim isWhiteSpace s with
  | '+' :: '-' :: _ => .error .malformed
  | '+' :: r => canonicalInteger (dropUnderscores (dropZeroFraction (dropZeros r)))
  -- zeros behind a minus are out of reach here, and then refused
  | s => canonicalInteger (dropUnderscores (dropZeroFraction (dropZeros s)))

/-- A decimal number as the text of a field. -/
def fieldNumber? (s : List Char) : Option Binary64 :=
  let s := trim isWhiteSpace s
  match decimal? s with
  | some x => some x
  | none =>
    -- underscores are dropped only if the text is no number with them
    if s.contains '_' then decimal? (dropUnderscores s) else none

/-! ## Settings -/

/-- Decimal digits of any script as ASCII digits. -/
def asciiDigits (s : List Char) : List Char :=
  s.map fun c =>
    match digit? c with
    | some n => Char.ofNat (48 + n)
    | none => c

def settingInteger? (s : List Char) : Option Int :=
  let (negative, r) := readSign (asciiDigits (trim isWhiteSpace s))
  match groupedDigits? r with
  | some digits =>
    if maxDigits < digits.length then none else some (Binary64.signed negative (digitsValue digits))
  | none => none

/-- Drops single underscores between digits. -/
def ungroup : List Char → List Char
  | c :: '_' :: d :: r =>
    if c.isDigit && d.isDigit then c :: ungroup (d :: r) else c :: '_' :: ungroup (d :: r)
  -- any other underscore stays where it is, where no number can have one
  | c :: r => c :: ungroup r
  | [] => []

def settingNumber? (s : List Char) : Option Binary64 :=
  decimal? (ungroup (asciiDigits (trim isWhiteSpace s)))

end BlockTheme.Text
