import BlockTheme.Text.Blank
import BlockTheme.Text.Case

/-!
# Slugs

Names for files and addresses: runs of lower-case ASCII letters and digits, joined by single
hyphens.
-/
namespace BlockTheme.Text

/-- The characters of a slug besides the hyphen. -/
def isSlugChar (c : Char) : Bool := c.isDigit || c.isLower

/-- Every run of characters that cannot stand in a slug becomes one hyphen. -/
def hyphenate : List Char → List Char
  | [] => []
  | c :: r =>
    if isSlugChar c then c :: hyphenate r
    else if startsWith (!isSlugChar ·) r then hyphenate r
    else '-' :: hyphenate r

def slug (s : List Char) : List Char := trim (· == '-') (hyphenate (lower s))

def slugOf (s : String) : String := String.ofList (slug s.toList)

end BlockTheme.Text
