import BlockTheme.Document
import BlockTheme.Text.Blank

/-!
# Web fonts

The address from which the font families of a design are loaded.
-/
namespace BlockTheme

/-- A family as it is asked for: spaces are written as pluses. -/
def Fonts.request (family : String) : String :=
  "family=" ++ String.ofList (family.toList.map fun c => if c = ' ' then '+' else c)
    ++ ":wght@400;500;600;700"

/-- What is asked for, each family once. -/
def Fonts.requests (fonts : Fonts) : List String :=
  Text.distinct ((([fonts.heading, fonts.body].filter Text.isFilled).filterMap id).map request)

/-- The address of the font families, if there are any. -/
def Fonts.url? (fonts : Fonts) : Option String :=
  match fonts.requests with
  | [] => none
  | requests =>
    some ("https://fonts.googleapis.com/css2?" ++ "&".intercalate requests ++ "&display=swap")

end BlockTheme
