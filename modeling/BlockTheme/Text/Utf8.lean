import BlockTheme.Text.Quoted

/-!
# UTF-8

Texts as bytes. Reading stops at the first sequence that is no character (`Fault`), and says where
it begins, how far it goes and what is wrong with it.
-/
namespace BlockTheme.Text.Utf8

/-- What is wrong with a sequence of bytes. -/
inductive Reason where
  | start
  | continuation
  | truncated
  deriving DecidableEq, Repr

/-- A sequence of bytes that is no character. -/
structure Fault where
  byte : UInt8
  position : Nat
  length : Nat
  reason : Reason
  deriving DecidableEq, Repr

def Reason.message : Reason → String
  | .start => "invalid start byte"
  | .continuation => "invalid continuation byte"
  | .truncated => "unexpected end of data"

def decimal (n : Nat) : String := String.ofList (Nat.toDigits 10 n)

def Fault.message (f : Fault) : String :=
  let what :=
    if f.length = 1 then
      "byte 0x" ++ String.ofList (hexDigits 2 f.byte.toNat) ++ " in position " ++ decimal f.position
    else
      "bytes in position " ++ decimal f.position ++ "-" ++ decimal (f.position + f.length - 1)
  "'utf-8' codec can't decode " ++ what ++ ": " ++ f.reason.message

def continues (b : UInt8) : Bool := 0x80 ≤ b && b < 0xc0

/-- Whether a byte may follow the first one of a character. -/
def mayFollow (first second : UInt8) : Bool :=
  continues second
    -- too many bytes for the character, a surrogate, or beyond the last character
    && !(first == 0xe0 && second < 0xa0) && !(first == 0xed && 0xa0 ≤ second)
    && !(first == 0xf0 && second < 0x90) && !(first == 0xf4 && 0x90 ≤ second)

def low (b : UInt8) : Nat := b.toNat % 64

/-- How many bytes a character has that begins with a byte; none begins with some of them. -/
def sizeOf? (b : UInt8) : Option Nat :=
  if b < 0x80 then some 1
  else if b < 0xc2 then none
  else if b < 0xe0 then some 2
  else if b < 0xf0 then some 3
  else if b < 0xf5 then some 4
  else none

/-- What is wrong with a character of several bytes, given its first byte and those after it. -/
def fault (position size : Nat) (first : UInt8) (rest : List UInt8) : Fault :=
  match rest with
  | [] => ⟨first, position, 1, .truncated⟩
  | second :: rest =>
    if !mayFollow first second then ⟨first, position, 1, .continuation⟩
    else
      let good := (rest.takeWhile continues).length
      if rest.length = good then ⟨first, position, 2 + rest.length, .truncated⟩
      else ⟨first, position, min (2 + good) (size - 1), .continuation⟩

/-- The characters of bytes that begin at a position. -/
def decodeFrom (position : Nat) : List UInt8 → Except Fault (List Char)
  | [] => .ok []
  | a :: rest =>
    match sizeOf? a, rest with
    | none, _ => .error ⟨a, position, 1, .start⟩
    | some 1, rest => (decodeFrom (position + 1) rest).map (Char.ofNat a.toNat :: ·)
    | some 2, b :: rest =>
      if mayFollow a b then
        (decodeFrom (position + 2) rest).map (Char.ofNat (a.toNat % 32 * 64 + low b) :: ·)
      else .error (fault position 2 a [b])
    | some 3, b :: c :: rest =>
      if mayFollow a b && continues c then
        (decodeFrom (position + 3) rest).map
          (Char.ofNat (a.toNat % 16 * 4096 + low b * 64 + low c) :: ·)
      else .error (fault position 3 a [b, c])
    | some 4, b :: c :: d :: rest =>
      if mayFollow a b && continues c && continues d then
        (decodeFrom (position + 4) rest).map
          (Char.ofNat (a.toNat % 8 * 262144 + low b * 4096 + low c * 64 + low d) :: ·)
      else .error (fault position 4 a [b, c, d])
    | some size, rest => .error (fault position size a rest)

def decode (bytes : List UInt8) : Except Fault (List Char) := decodeFrom 0 bytes

def encodeChar (c : Char) : List UInt8 :=
  let n := c.toNat
  let tail (k : Nat) : UInt8 := UInt8.ofNat (0x80 + n / Nat.pow 64 k % 64)
  if n < 0x80 then [UInt8.ofNat n]
  else if n < 0x800 then [UInt8.ofNat (0xc0 + n / 64), tail 0]
  else if n < 0x10000 then [UInt8.ofNat (0xe0 + n / 4096), tail 1, tail 0]
  else [UInt8.ofNat (0xf0 + n / 262144), tail 2, tail 1, tail 0]

def encode (s : List Char) : List UInt8 := s.flatMap encodeChar

end BlockTheme.Text.Utf8
