import BlockTheme.Json.Display
import BlockTheme.Render.Appearance

/-!
# Markup of nodes

Every kind of node has its block. A button stands in a row of buttons of its own, a navigation
becomes a row of linked paragraphs, and a node of any other type leaves a remark. Only groups show
their children.
-/
namespace BlockTheme

open Markup (escaped)

namespace Render

/-- Alignment and font size as attributes and as classes. The alignment's key depends on the
block. -/
def setText (alignKey : String) (node : Node) (a : Appearance) : Appearance :=
  let aligned :=
    match node.attributes.textAlign with
    | some align =>
      (a.set alignKey (.string (Schema.Named.name align))).addClasses
        ["has-text-align-" ++ Schema.Named.name align]
    | none => a
  match node.attributes.fontSize with
  | some size =>
    (aligned.set "fontSize" (.string size.fontPreset)).addClasses
      ["has-" ++ size.fontPreset ++ "-font-size"]
  | none => aligned

/-- The font family of a role, if the design has one for it. -/
def setFont (role : String) (font : Option String) (a : Appearance) : Appearance :=
  if Text.isFilled font then
    (a.set "fontFamily" (.string role)).addClasses ["has-" ++ role ++ "-font-family"]
  else a

/-- The style object of a node with its classes, then the class name. -/
def setNodeStyle (style : Style) (node : Node) (a : Appearance) : Appearance :=
  ((a.setStyle style).addClasses (Style.classesOfNode node.attributes node.style)).named
    node.className

def contentOf (node : Node) : Markup := Markup.data (node.content.getD "")

def headingTag (level : Level) : String := "h" ++ String.ofList (Nat.toDigits 10 level.number)

def heading (tokens : Tokens) (node : Node) : Markup :=
  -- of level two if it does not say
  let level := node.attributes.level.getD .two
  let a : Appearance :=
    { attributes := [("level", .nat level.number)], classes := ["wp-block-heading"] }
  let a := setFont "heading" tokens.fonts.heading (setText "textAlign" node a)
  let a := setNodeStyle (Style.ofNode node.attributes node.style) node a
  .block "heading" a.attributes
    [.element (headingTag level) a.elementAttributes [contentOf node]]

def paragraph (tokens : Tokens) (node : Node) : Markup :=
  let a := setFont "body" tokens.fonts.body (setText "align" node {})
  let a := setNodeStyle (Style.ofNode node.attributes node.style) node a
  .block "paragraph" a.attributes [.element "p" a.elementAttributes [contentOf node]]

/-- A length that is given and is not zero. -/
def lengthOf (n : Option Number) : Option Number := n.filter fun n => !n.isZero

def image (node : Node) : Markup :=
  let sizes :=
    ((lengthOf node.attributes.width).map fun n => ("width", n)).toList
      ++ ((lengthOf node.attributes.height).map fun n => ("height", n)).toList
  let a : Appearance :=
    { attributes := [("sizeSlug", .string "full"), ("linkDestination", .string "none")]
        ++ sizes.map fun (key, n) => (key, .number n)
      classes := ["wp-block-image", "size-full"] }
  let a := a.named node.className
  .block "image" a.attributes
    [.element "figure" (Markup.classAttribute a.classes)
      [.void "img"
        ([escaped "src" (node.attributes.src.getD ""), escaped "alt" (node.attributes.alt.getD "")]
          ++ sizes.map fun (key, n) => (key, String.ofList (Json.displayNumber n)))]]

/-- How a button of a variant looks. -/
def buttonAppearance (variant : Variant) : Appearance :=
  let base := ["wp-block-button__link", "wp-element-button"]
  -- filled buttons take their colors from the palette, so that they follow it
  let filled (color : String) : Appearance :=
    { attributes := [("backgroundColor", .string color), ("textColor", .string "background")]
      classes := base ++ ["has-" ++ color ++ "-background-color", "has-background-color-color",
        "has-text-color", "has-background"] }
  match variant with
  | .primary => filled "primary"
  | .secondary => filled "secondary"
  | .outline =>
    { attributes := [("textColor", .string "primary"),
        ("style", .object
          [("border", .object [("width", .string "2px"), ("style", .string "solid")])])]
      classes := base ++ ["has-primary-color", "has-text-color", "is-style-outline"] }

/-- What a text names, or the default if it is empty or missing. -/
def orElse (s : Option String) (default : String) : String :=
  if Text.isFilled s then s.getD default else default

/-- A button in a row of buttons. -/
def button (node : Node) : Markup :=
  -- primary if it does not say, and leading nowhere if it has no address
  let a := (buttonAppearance (node.attributes.variant.getD .primary)).named node.className
  let link := Markup.element "a"
    (Markup.classAttribute a.classes ++ [escaped "href" (orElse node.attributes.href "#")]
      ++ (Style.within a.attributes).inlineAttribute)
    [contentOf node]
  .block "buttons" []
    [.element "div" [("class", "wp-block-buttons is-layout-flex")]
      [.newline,
        .block "button" a.attributes [.element "div" [("class", "wp-block-button")] [link]],
        .newline]]

def list (node : Node) : Markup :=
  -- unordered if it does not say
  let ordered := node.attributes.ordered.getD false
  let a : Appearance :=
    { attributes := if ordered then [("ordered", .bool true)] else []
      classes := ["wp-block-list"] }
  let a := a.named node.className
  let items := (node.attributes.items.getD []).map fun item => Markup.element "li" [] [.data item]
  .block "list" a.attributes
    [.element (if ordered then "ol" else "ul") (Markup.classAttribute a.classes)
      ([.newline] ++ Markup.lines items ++ [.newline])]

def spacer (node : Node) : Markup :=
  -- of medium height if it does not say
  let height := (node.attributes.padding.getD .medium).padding
  .block "spacer" [("height", .string height)]
    [.element "div"
      [("style", "height:" ++ height), ("aria-hidden", "true"), ("class", "wp-block-spacer")] []]

/-- The least width of the columns of a grid among nodes. -/
def gridColumnWidth : String := "280px"

/-- The layout attribute of a flow. A grid says how wide its columns are at least. -/
def layoutOf (flow : Flow) (columnWidth : String) : Json :=
  let type := ("type", Json.string (Schema.Named.name flow))
  match flow with
  | .grid => .object [type, ("minimumColumnWidth", .string columnWidth)]
  | .flex => .object [type, ("flexWrap", .string "nowrap")]
  | _ => .object [type]

/-- How the content of a group flows. -/
def groupFlow (style : FreeStyle) : Flow :=
  match style.lookup "display" with
  | some "grid" => .grid
  | some "flex" => .flex
  | _ => .constrained

/-- The style object of a group, which may have a gap. -/
def groupStyle (node : Node) : Style :=
  let style := Style.ofNode node.attributes node.style
  match (node.style.getD []).usable? "gap" with
  | some gap => style.put "spacing" "blockGap" (.string gap)
  | none => style

def group (node : Node) (children : List Markup) : Markup :=
  let flow := groupFlow (node.style.getD [])
  let a : Appearance :=
    { attributes := [("layout", layoutOf flow gridColumnWidth)]
      classes := ["wp-block-group", flow.className] }
  let a := setNodeStyle (groupStyle node) node a
  .block "group" a.attributes
    [.element "div" a.elementAttributes ([.newline] ++ Markup.spaced children ++ [.newline])]

def navigationLink (link : Link) : Markup :=
  .block "paragraph" []
    [.element "p" [] [.element "a" [escaped "href" link.href] [.data link.text]]]

def navigation (node : Node) : Markup :=
  let a : Appearance :=
    { attributes := [("layout", layoutOf .flex gridColumnWidth)]
      classes := ["wp-block-group", Flow.flex.className] }
  let a := a.named node.className
  let links := (node.attributes.links.getD []).map navigationLink
  .block "group" a.attributes
    [.element "div" (Markup.classAttribute a.classes)
      ([.newline] ++ Markup.spaced links ++ [.newline])]

/-- What is left of a node that has no markup of its own. -/
def placeholder (node : Node) : Markup := .remark ("Unsupported node type: " ++ node.type)

/-- The markup of a node, given that of its children. -/
def node (tokens : Tokens) (n : Node) (children : List Markup) : Markup :=
  match n.kind? with
  | some .heading => heading tokens n
  | some .paragraph => paragraph tokens n
  | some .image => image n
  | some .button => button n
  | some .list => list n
  | some .spacer => spacer n
  | some .group => group n children
  | some .navigation => navigation n
  | none => placeholder n

end Render

mutual

def Node.markup (tokens : Tokens) : Node → Markup
  | ⟨type, content, attributes, children, motion, style, className⟩ =>
    Render.node tokens ⟨type, content, attributes, children, motion, style, className⟩
      (Node.markupIn tokens children)

def Node.markupIn (tokens : Tokens) : Option (List Node) → List Markup
  | none => []
  | some nodes => Node.markupAll tokens nodes

def Node.markupAll (tokens : Tokens) : List Node → List Markup
  | [] => []
  | node :: rest => node.markup tokens :: Node.markupAll tokens rest

end

end BlockTheme
