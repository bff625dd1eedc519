import BlockTheme.Json.Display
import BlockTheme.Text.Escape

/-!
# Style objects

The style of a block as the JSON object that its delimiter carries, with the groups `typography`,
`color`, `spacing` and `border`; and the CSS declarations that it stands for, which go into the
style attribute of the block's element. The attribute is always made from the object, so the two
agree.
-/
namespace BlockTheme

/-- A style object: groups of properties. -/
abbrev Style := Fields

namespace Style

/-- The members of an object; none of anything else. -/
def membersOf (v : Option Json) : Fields :=
  match v with
  | some (.object members) => members
  | _ => []

/-- Gives a property of a group a value. A group that is not there yet is put at the end. -/
def put (style : Style) (group property : String) (v : Json) : Style :=
  style.set group (.object (Fields.set (membersOf (style.get? group)) property v))

/-! ## Declarations -/

abbrev Declaration := String × String

/-- The value of a member, if it is given. -/
def given? (group : Fields) (key : String) : Option Json :=
  (group.get? key).filter Json.isGiven

/-- The declaration of a property that a member gives. -/
def declare (group : Fields) (key property : String) : List Declaration :=
  ((given? group key).map fun v => (property, v.displayText)).toList

/-- The declarations of the four sides of a box. -/
def declareSides (box : Fields) (property : String) : List Declaration :=
  ["top", "right", "bottom", "left"].flatMap fun side => declare box side (property ++ "-" ++ side)

/-- The gap between blocks: one text, or one for rows and one for columns, of which either will
do. -/
def gapValue? (gap : Option Json) : Option String :=
  match gap with
  | some (.string s) => if s.isEmpty then none else some s
  | some (.object members) =>
    match given? members "top", given? members "left" with
    | some top, some left => some (top.displayText ++ " " ++ left.displayText)
    | some top, none => some top.displayText
    | none, some left => some left.displayText
    | none, none => none
  | _ => none

/-- What a style declares, in a fixed order. -/
def declarations (style : Style) : List Declaration :=
  let typography := membersOf (style.get? "typography")
  let color := membersOf (style.get? "color")
  let spacing := membersOf (style.get? "spacing")
  let border := membersOf (style.get? "border")
  declare typography "fontSize" "font-size"
    ++ declare typography "lineHeight" "line-height"
    ++ declare typography "letterSpacing" "letter-spacing"
    ++ declare typography "textTransform" "text-transform"
    ++ declare color "text" "color"
    ++ declare color "background" "background-color"
    ++ declare color "gradient" "background"
    ++ declareSides (membersOf (spacing.get? "padding")) "padding"
    ++ declareSides (membersOf (spacing.get? "margin")) "margin"
    ++ ((gapValue? (spacing.get? "blockGap")).map fun v => ("gap", v)).toList
    ++ declare border "radius" "border-radius"
    ++ declare border "width" "border-width"
    ++ declare border "style" "border-style"
    ++ declare border "color" "border-color"

def inlineAttribute (style : Style) : List (String × String) :=
  match style.declarations with
  | [] => []
  | found =>
    [("style", ";".intercalate (found.map fun (property, v) => property ++ ":" ++ v))]

/-- The style that block attributes carry. -/
def within (attributes : Fields) : Style := membersOf (attributes.get? "style")

/-! ## Styles from outside -/

/-- The groups that a style may have. -/
def groups : List String := ["typography", "color", "spacing", "border"]

/-- A style, or a group of it, that is given and is no object. -/
inductive Malformed where
  | notAnObject
  deriving DecidableEq, Repr

def isGroup (v : Option Json) : Bool :=
  match v with
  | none | some (.object _) => true
  | some v => !v.isGiven

/-- Any value as a style, if it and its groups are objects where they are given. -/
def ofJson (v : Json) : Except Malformed Style :=
  match v with
  | .object members =>
    if groups.all fun group => isGroup (Fields.get? members group) then .ok members
    else .error .notAnObject
  | v => if v.isGiven then .error .notAnObject else .ok []

end Style

end BlockTheme
