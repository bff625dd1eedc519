import BlockTheme.Text.Blank
import BlockTheme.Text.Letter

/-!
# Class names

Lists of class names as they stand in stylesheets, in attributes and in documents: finding them in
the text of a stylesheet, keeping those that a stylesheet defines, and adding them to the ones that
are there already.
-/
namespace BlockTheme.Recovery

/-- The characters that the class of a selector may begin with. -/
def isClassStart (c : Char) : Bool := c.isAlpha || c == '_'

/-- The characters that may follow. -/
def isClassChar (c : Char) : Bool := Text.isWordChar c || c == '-'

/-- The classes of all selectors in a stylesheet, in the order in which they stand there: after
every point that a name can follow, the longest name. -/
def selectorsIn : List Char → List (List Char)
  | [] => []
  | c :: r =>
    if c == '.' && Text.startsWith isClassStart r then r.takeWhile isClassChar :: selectorsIn r
    else selectorsIn r

/-- The classes that a stylesheet defines. -/
def definedClasses (css : String) : List String :=
  Text.distinct ((selectorsIn css.toList).map String.ofList)

/-- The classes among those of an attribute, given in parts, that a stylesheet defines. -/
def qualifying (parts : List String) (defined : List String) : List String :=
  Text.distinct ((parts.flatMap Text.wordsOf).filter fun name => defined.contains name)

/-- The classes of a text followed by more of them, each once. -/
def mergedClasses (existing : Option String) (additions : List String) : List String :=
  Text.distinct ((Text.wordsOf (existing.getD "") ++ additions).filter fun name => !name.isEmpty)

/-- A class name with classes added to it. -/
def mergeClassName (existing : Option String) (additions : List String) : Option String :=
  -- with nothing to add it keeps its blanks and its repeats
  if additions.isEmpty then existing
  else
    match mergedClasses existing additions with
    | [] => none
    | merged => some (" ".intercalate merged)

end BlockTheme.Recovery
