import BlockTheme.Document
import BlockTheme.Style
import BlockTheme.Style.Preset

/-!
# Styles of nodes

The style object of a node and the classes that go with it. A color comes from the node's
attributes, else from its free style; a value that cannot stand between double quotes counts as not
given.
-/
namespace BlockTheme

/-- A value that can stand between double quotes. -/
def usable? (value : Option String) : Option String :=
  value.filter fun s => !s.isEmpty && !s.toList.contains (Char.ofNat 34)

/-- The value of a property of a free style that can be used. -/
def FreeStyle.usable? (style : FreeStyle) (property : String) : Option String :=
  BlockTheme.usable? (style.lookup property)

/-- A property that a style object takes over, and the class that says so. -/
structure StyleEntry where
  group : String
  property : String
  value : Json
  className : Option String := none

namespace StyleEntry

def textColor (value : String) : StyleEntry :=
  ⟨"color", "text", .string value, some "has-text-color"⟩

def backgroundColor (value : String) : StyleEntry :=
  ⟨"color", "background", .string value, some "has-background"⟩

/-- The same padding on all four sides. -/
def padding (width : String) : StyleEntry :=
  let sides := ["top", "right", "bottom", "left"].map fun side => (side, Json.string width)
  ⟨"spacing", "padding", .object sides, none⟩

/-- The properties of a free style that set type, and their names in style objects. -/
def typographyProperties : List (String × String) :=
  [("font-size", "fontSize"), ("line-height", "lineHeight"), ("letter-spacing", "letterSpacing"),
    ("text-transform", "textTransform")]

def typography (style : FreeStyle) : List StyleEntry :=
  typographyProperties.filterMap fun (property, key) =>
    (style.usable? property).map fun value => ⟨"typography", key, .string value, none⟩

/-- All entries for the attributes and the free style of a node. -/
def ofNode (attributes : Attributes) (style : Option FreeStyle) : List StyleEntry :=
  let free := style.getD []
  let text := usable? attributes.textColor
  let background := usable? attributes.backgroundColor
  (text.map textColor).toList
    ++ (background.map backgroundColor).toList
    ++ (attributes.padding.map fun size => padding size.padding).toList
    ++ typography free
    -- a color of the free style counts only if the attributes have none
    ++ (if background.isSome then []
        else ((free.usable? "background-color").map backgroundColor).toList)
    ++ (if text.isSome then [] else ((free.usable? "color").map textColor).toList)

end StyleEntry

/-- The style object of a node: its entries, grouped in the order in which the groups come up. -/
def Style.ofNode (attributes : Attributes) (style : Option FreeStyle) : Style :=
  (StyleEntry.ofNode attributes style).foldl
    (fun found entry => found.put entry.group entry.property entry.value) []

def Style.classesOfNode (attributes : Attributes) (style : Option FreeStyle) : List String :=
  (StyleEntry.ofNode attributes style).filterMap (·.className)

end BlockTheme
