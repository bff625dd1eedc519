/-!
# Chunks

A list cut into consecutive pieces of one size, the last of which may be shorter.
-/
namespace BlockTheme

variable {α : Type}

/-- How many pieces of a size a number of items takes. -/
def pieces (count size : Nat) : Nat := (count + size - 1) / size

/-- The consecutive pieces of a list, all of them `size` items long but perhaps the last one. -/
def slices (size : Nat) (xs : List α) : List (List α) :=
  (List.range (pieces xs.length size)).map fun i => (xs.drop (i * size)).take size

/-- A list spread over at most `count` pieces that are filled one after the other. There are none
for a count below one. -/
def chunks (count : Int) (xs : List α) : List (List α) :=
  if count < 1 then [] else slices (pieces xs.length count.toNat) xs

end BlockTheme
