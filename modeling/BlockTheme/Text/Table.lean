import BlockTheme.Text.Blank

/-!
# Tables of code points

Tables of a character property are kept as text: hexadecimal code points, a range written
`first-last`, entries separated by blanks. This module reads that notation.
-/
namespace BlockTheme.Text

def hexDigit? (c : Char) : Option Nat :=
  if '0' ≤ c ∧ c ≤ '9' then some (c.toNat - 48)
  else if 'a' ≤ c ∧ c ≤ 'f' then some (c.toNat - 87)
  else if 'A' ≤ c ∧ c ≤ 'F' then some (c.toNat - 55)
  else none

/-- The number that hexadecimal digits spell; any other character counts as a zero. -/
def hexValue (s : List Char) : Nat :=
  s.foldl (fun n c => 16 * n + (hexDigit? c).getD 0) 0

/-- A table of code points, as ranges with both ends included. -/
abbrev Ranges := List (Nat × Nat)

def Ranges.ofText (text : String) : Ranges :=
  (words text.toList).map fun entry =>
    match splitAt '-' entry with
    | [first, last] => (hexValue first, hexValue last)
    | _ => (hexValue entry, hexValue entry)

def Ranges.contains (table : Ranges) (n : Nat) : Bool :=
  table.any fun (first, last) => first ≤ n && n ≤ last

end BlockTheme.Text
