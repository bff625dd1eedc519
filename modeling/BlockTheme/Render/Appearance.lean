import BlockTheme.Markup
import BlockTheme.Style.Mapping
import BlockTheme.Text.Blank

/-!
# Appearances

What a block says about itself twice: in the attributes of its delimiter and in the classes of its
element. The two are built up side by side.
-/
namespace BlockTheme

/-- The attributes of a block, and the classes of its element. -/
structure Appearance where
  attributes : Fields := []
  classes : List String := []

namespace Appearance

def set (a : Appearance) (key : String) (v : Json) : Appearance :=
  { a with attributes := a.attributes.set key v }

def addClasses (a : Appearance) (more : List String) : Appearance :=
  { a with classes := a.classes ++ more }

def setStyle (a : Appearance) (style : Style) : Appearance :=
  if style.isEmpty then a else a.set "style" (.object style)

/-- The class names in a text, which single spaces separate. -/
def classNames (s : String) : List String :=
  ((Text.splitAt ' ' s.toList).filter (!·.isEmpty)).map String.ofList

/-- Takes over a class name of its own, as an attribute and as classes. -/
def named (a : Appearance) (className : Option String) : Appearance :=
  match className with
  | none => a
  | some s =>
    if s.isEmpty then a else (a.set "className" (.string s)).addClasses (classNames s)

/-- The class attribute and the style attribute of the element, as far as there are any. -/
def elementAttributes (a : Appearance) : List (String × String) :=
  Markup.classAttribute a.classes ++ (Style.within a.attributes).inlineAttribute

end Appearance

end BlockTheme
