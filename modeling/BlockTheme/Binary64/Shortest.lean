import BlockTheme.Binary64

/-!
# The shortest decimal that reads back

A finite number is written with the fewest decimal digits that read back as the same number, and
of the decimals with so few digits with the nearest one. `Layout` says where the point or the
exponent goes and how the values that are no finite numbers are spelled.
-/
namespace BlockTheme.Binary64

/-- The power of ten of the leading digit of `num / den`, for a positive ratio. -/
def floorLog10 (num den : Nat) : Int :=
  if den ≤ num then (digitCount (num / den) : Int) - 1
  else
    let p := digitCount (den / num)
    -- below one, only a power of ten itself has the greater exponent
    if num * Nat.pow 10 (p - 1) = den then -((p : Int) - 1) else -(p : Int)

/-- Numerator and denominator of `num / (den * 10 ^ k)`. -/
def scale10 (num den : Nat) (k : Int) : Nat × Nat :=
  if 0 ≤ k then (num, den * Nat.pow 10 k.toNat) else (num * Nat.pow 10 (-k).toNat, den)

/-- A decimal with `count` digits that reads back as the number, if there is one. -/
def withDigits? (mantissa : Nat) (exponent : Int) (count : Nat) : Option (Nat × Int) :=
  let x := pack false mantissa exponent
  let (num, den) := ratio mantissa exponent
  let k := floorLog10 num den + 1 - (count : Int)
  let (n, d) := scale10 num den k
  let near := roundHalfEven n d
  let far := if near = n / d then near + 1 else n / d
  -- of the two neighbours on the grid the nearer one goes first
  if ofDecimal false near k = x then some (near, k)
  else if ofDecimal false far k = x then some (far, k)
  else none

/-- The exact decimal value of a number. -/
def exactDecimal (mantissa : Nat) (exponent : Int) : Nat × Int :=
  if 0 ≤ exponent then (mantissa * Nat.pow 2 exponent.toNat, 0)
  else (mantissa * Nat.pow 5 (-exponent).toNat, exponent)

/-- Digits and exponent of the shortest decimal that reads back. -/
def shortest (mantissa : Nat) (exponent : Int) : Nat × Int :=
  -- seventeen digits always do, so the exact value is never needed
  ((List.range' 1 17).findSome? (withDigits? mantissa exponent)).getD
    (exactDecimal mantissa exponent)

/-- How numbers are laid out as text. -/
structure Layout where
  /-- The least power of ten of the leading digit that is written in positional notation. -/
  positionalFrom : Int
  /-- The least power of ten of the leading digit above these that is written with an exponent. -/
  positionalTo : Int
  /-- The least number of digits of a written exponent. -/
  exponentWidth : Nat
  infinity : String
  notANumber : String

def significant (digits : Nat) : List Char :=
  ((Nat.toDigits 10 digits).reverse.dropWhile (· == '0')).reverse

/-- Digits at the position that the power of ten of the leading one says, always with at least one
digit on each side of the point. -/
def positional (digits : List Char) (lead : Int) : List Char :=
  if lead < 0 then '0' :: '.' :: (List.replicate (-lead - 1).toNat '0' ++ digits)
  else
    let whole := lead.toNat + 1
    if digits.length ≤ whole then
      digits ++ List.replicate (whole - digits.length) '0' ++ ['.', '0']
    else digits.take whole ++ '.' :: digits.drop whole

/-- Digits with an exponent: one before the point, and a point only if more follow. -/
def scientific (width : Nat) (digits : List Char) (lead : Int) : List Char :=
  let fraction := digits.drop 1
  let power := Nat.toDigits 10 lead.natAbs
  digits.take 1 ++ (if fraction.isEmpty then [] else '.' :: fraction)
    ++ 'e' :: (if lead < 0 then '-' else '+')
    :: (List.replicate (width - power.length) '0' ++ power)

def text (layout : Layout) : Binary64 → List Char
  | .nan => layout.notANumber.toList
  | .infinity s => (if s then ['-'] else []) ++ layout.infinity.toList
  | .finite s m e _ =>
    let sign := if s then ['-'] else []
    if m = 0 then sign ++ ['0', '.', '0']
    else
      let (digits, k) := shortest m e
      let lead := (digitCount digits : Int) - 1 + k
      sign ++
        (if layout.positionalFrom ≤ lead && lead < layout.positionalTo then
          positional (significant digits) lead
        else scientific layout.exponentWidth (significant digits) lead)

end BlockTheme.Binary64
