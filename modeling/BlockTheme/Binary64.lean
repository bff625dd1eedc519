/-!
# Binary floating-point numbers

The double-precision numbers of the binary64 format as plain data: a number is a signed integer
below 2^53 times a power of two, an infinity, or not a number. Every operation is exact integer
arithmetic followed by one rounding to the nearest number, ties to even (`ofRatio`), so nothing
here depends on the machine's own arithmetic.
-/
namespace BlockTheme

/-- The pairs by which finite numbers are written in one way only: full 53 bits, or fewer at the
least exponent. -/
def Canonical (mantissa : Nat) (exponent : Int) : Prop :=
  mantissa < Nat.pow 2 53 ∧ (Nat.pow 2 52 ≤ mantissa ∨ exponent = -1074) ∧ -1074 ≤ exponent
    ∧ exponent ≤ 971

instance (mantissa : Nat) (exponent : Int) : Decidable (Canonical mantissa exponent) :=
  inferInstanceAs (Decidable (_ ∧ _ ∧ _ ∧ _))

/-- A binary64 number. All values that are not numbers count as one. -/
inductive Binary64 where
  | nan
  | infinity (negative : Bool)
  | finite (negative : Bool) (mantissa : Nat) (exponent : Int)
      (canonical : Canonical mantissa exponent)
  deriving DecidableEq

namespace Binary64

def zero (negative : Bool) : Binary64 := .finite negative 0 (-1074) (by decide)

/-- A mantissa and an exponent outside the format stand for a number too large for it. -/
def pack (negative : Bool) (mantissa : Nat) (exponent : Int) : Binary64 :=
  if h : Canonical mantissa exponent then .finite negative mantissa exponent h
  else .infinity negative

/-- The integer nearest to `num / den`; of two equally near ones the even one. -/
def roundHalfEven (num den : Nat) : Nat :=
  let q := num / den
  let r := num % den
  if 2 * r < den then q
  else if den < 2 * r then q + 1
  else q + q % 2

/-- Numerator and denominator of `num / (den * 2 ^ e)`. -/
def scale (num den : Nat) (e : Int) : Nat × Nat :=
  if 0 ≤ e then (num, den * Nat.pow 2 e.toNat) else (num * Nat.pow 2 (-e).toNat, den)

/-- The greatest power of two that `num / den` reaches, for a positive ratio. -/
def floorLog2 (num den : Nat) : Int :=
  let guess : Int := (num.log2 : Int) - (den.log2 : Int)
  -- both logarithms are cut off, so the guess is right or one too high
  let (n, d) := scale num den guess
  if d ≤ n then guess else guess - 1

/-- The number nearest to `num / den`. -/
def ofRatio (negative : Bool) (num den : Nat) : Binary64 :=
  if num = 0 then zero negative
  else
    -- the mantissa has 53 bits, or fewer at the least exponent
    let e := max (floorLog2 num den - 52) (-1074)
    let (n, d) := scale num den e
    let m := roundHalfEven n d
    -- rounding up can take one more bit
    if m = Nat.pow 2 53 then pack negative (Nat.pow 2 52) (e + 1) else pack negative m e

def ofInt (n : Int) : Binary64 := ofRatio (n < 0) n.natAbs 1

def digitCount (n : Nat) : Nat := (Nat.toDigits 10 n).length

/-- The number nearest to `digits * 10 ^ exponent`. -/
def ofDecimal (negative : Bool) (digits : Nat) (exponent : Int) : Binary64 :=
  let magnitude := (digitCount digits : Int) + exponent
  if digits = 0 then zero negative
  -- far outside the format the answer is known without computing the power
  else if 310 < magnitude then .infinity negative
  else if magnitude < -330 then zero negative
  else if 0 ≤ exponent then ofRatio negative (digits * Nat.pow 10 exponent.toNat) 1
  else ofRatio negative digits (Nat.pow 10 (-exponent).toNat)

def isZero : Binary64 → Bool
  | .finite _ m _ _ => m == 0
  | _ => false

/-- Numerator and denominator of a finite number's magnitude. -/
def ratio (mantissa : Nat) (exponent : Int) : Nat × Nat :=
  if 0 ≤ exponent then (mantissa * Nat.pow 2 exponent.toNat, 1)
  else (mantissa, Nat.pow 2 (-exponent).toNat)

def signed (negative : Bool) (n : Nat) : Int := if negative then -(n : Int) else n

/-- A finite number cut off towards zero. -/
def truncate? : Binary64 → Option Int
  | .finite s m e _ => let (n, d) := ratio m e; some (signed s (n / d))
  | _ => none

/-- The integer that a number is, if it is one. -/
def toInt? : Binary64 → Option Int
  | .finite s m e _ =>
    let (n, d) := ratio m e
    if n % d = 0 then some (signed s (n / d)) else none
  | _ => none

/-- The product, rounded once. -/
def mul : Binary64 → Binary64 → Binary64
  | .nan, _ | _, .nan => .nan
  | .infinity s, .infinity t => .infinity (s != t)
  | .infinity s, .finite t m _ _ | .finite t m _ _, .infinity s =>
    -- zero times an infinity is not a number
    if m = 0 then .nan else .infinity (s != t)
  | .finite s m e _, .finite t k f _ =>
    let (n, d) := ratio m e
    let (n', d') := ratio k f
    ofRatio (s != t) (n * n') (d * d')

/-- The number nearest to the value rounded to `places` decimal places, ties to even. -/
def roundTo (places : Nat) : Binary64 → Binary64
  | .finite s m e _ =>
    let (n, d) := ratio m e
    ofRatio s (roundHalfEven (n * Nat.pow 10 places) d) (Nat.pow 10 places)
  | x => x

/-- Why a number has no integer above it. -/
inductive NoCeiling where
  | notANumber
  | infinite
  deriving DecidableEq, Repr

/-- The least integer that is not below a number. -/
def ceil : Binary64 → Except NoCeiling Int
  | .nan => .error .notANumber
  | .infinity _ => .error .infinite
  | .finite s m e _ =>
    let (n, d) := ratio m e
    .ok (if s then -((n / d : Nat) : Int) else (((n + d - 1) / d : Nat) : Int))

/-- Whether a number is less than another. What is not a number is neither less nor more. -/
def lt : Binary64 → Binary64 → Bool
  | .nan, _ | _, .nan => false
  | .infinity s, .infinity t => s && !t
  | .infinity s, .finite .. => s
  | .finite .., .infinity t => !t
  | .finite s m e _, .finite t k f _ =>
    let (n, d) := ratio m e
    let (n', d') := ratio k f
    signed s (n * d') < signed t (n' * d)

end Binary64

end BlockTheme
