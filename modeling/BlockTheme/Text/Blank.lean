/-!
# Blanks and words

Which characters separate words, and the three things done with them: cutting them off the ends
of a text (`strip`), collapsing every run of them to one space (`collapse`), and taking the words
between them (`words`). `normalize` is the canonical spelling of a text in which only the words
count.
-/
namespace BlockTheme.Text

/-- The characters that separate words: Unicode white space, and the information separators
U+001C to U+001F. -/
def isBlank (c : Char) : Bool :=
  let n := c.toNat
  (9 ≤ n && n ≤ 13) || (28 ≤ n && n ≤ 32) || n == 0x85 || n == 0xa0 || n == 0x1680
    || (0x2000 ≤ n && n ≤ 0x200a) || n == 0x2028 || n == 0x2029 || n == 0x202f
    || n == 0x205f || n == 0x3000

/-- Unicode white space alone. -/
def isWhiteSpace (c : Char) : Bool :=
  -- the information separators are no part of it
  isBlank c && !(28 ≤ c.toNat && c.toNat ≤ 31)

/-- The text `s` without the characters of `p` at its two ends. -/
def trim (p : Char → Bool) (s : List Char) : List Char :=
  ((s.dropWhile p).reverse.dropWhile p).reverse

def strip (s : List Char) : List Char := trim isBlank s

def startsWith (p : Char → Bool) : List Char → Bool
  | [] => false
  | c :: _ => p c

/-- Every run of blanks becomes one space. -/
def collapse : List Char → List Char
  | [] => []
  | c :: r =>
    if isBlank c then
      if startsWith isBlank r then collapse r else ' ' :: collapse r
    else c :: collapse r

/-- The words of `s`: its maximal runs of characters that are not blank. -/
def words : List Char → List (List Char)
  | [] => []
  | c :: r =>
    if isBlank c then words r
    else if startsWith (!isBlank ·) r then
      match words r with
      | [] => [[c]]
      | w :: ws => (c :: w) :: ws
    else [c] :: words r

/-- Blanks collapse to single spaces and disappear from the ends. -/
def normalize (s : List Char) : List Char := strip (collapse s)

def wordsOf (s : String) : List String := (words s.toList).map String.ofList

def normalizeText (s : String) : String := String.ofList (normalize s.toList)

def stripText (s : String) : String := String.ofList (strip s.toList)

def isBlankText (s : String) : Bool := s.toList.all isBlank

/-- Whether a string that may be missing has something in it. -/
def isFilled (s : Option String) : Bool := (s.getD "") != ""

/-- A text, or any other list, cut at every occurrence of `c`. -/
def splitAt {α : Type} [DecidableEq α] (c : α) : List α → List (List α)
  -- there is always one more part than there are cuts
  | [] => [[]]
  | x :: r =>
    if x = c then [] :: splitAt c r
    else
      match splitAt c r with
      | [] => [[x]]
      | w :: ws => (x :: w) :: ws

/-- The rest of `s` after `start`, if `s` begins so. -/
def dropStart? : List Char → List Char → Option (List Char)
  | [], s => some s
  | _ :: _, [] => none
  | a :: p, c :: s => if a = c then dropStart? p s else none

/-- Each value once, where it first stands. -/
def distinct {α : Type} [BEq α] (xs : List α) : List α :=
  xs.foldl (fun seen x => if seen.contains x then seen else seen ++ [x]) []

end BlockTheme.Text
