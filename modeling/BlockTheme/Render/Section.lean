import BlockTheme.Chunks
import BlockTheme.Render.Node

/-!
# Markup of sections

The children of a section laid out as its layout says, inside a wrapper that its background
decides: a cover for an image, a group for everything else.
-/
namespace BlockTheme

namespace Render

/-- Over how many columns children are spread if the layout does not say. -/
def defaultColumns : Int := 2

/-- The least width of the columns of a grid among the children of a section. -/
def sectionGridColumnWidth : String := "300px"

/-- How far a background image is dimmed, in percent. -/
def coverDim : Nat := 50

/-- The columns that the children of a section are spread over. -/
def columnsOf (s : Section) : List (List Node) :=
  let count := s.layout.columns.getD 0
  -- a count of zero says as little as none
  chunks (if count = 0 then defaultColumns else count) s.children

def column (tokens : Tokens) (nodes : List Node) : Markup :=
  .block "column" []
    [.element "div" [("class", "wp-block-column is-layout-flow")]
      ([.newline] ++ Markup.spaced (Node.markupAll tokens nodes) ++ [.newline])]

/-- The children of a section, laid out. -/
def layout (tokens : Tokens) (s : Section) : List Markup :=
  match s.layout.kind with
  | .columns =>
    let style : Style :=
      match s.layout.gap with
      | some gap =>
        [("spacing", .object
          [("blockGap", .object [("top", .string gap.width), ("left", .string gap.width)])])]
      | none => []
    [.block "columns" (if style.isEmpty then [] else [("style", .object style)])
      [.element "div" ([("class", "wp-block-columns is-layout-flex")] ++ style.inlineAttribute)
        ([.newline] ++ Markup.spaced ((columnsOf s).map (column tokens)) ++ [.newline])]]
  | .grid =>
    [.block "group" [("layout", layoutOf .grid sectionGridColumnWidth)]
      [.element "div" [("class", "wp-block-group is-layout-grid")]
        ([.newline] ++ Markup.spaced (Node.markupAll tokens s.children) ++ [.newline])]]
  -- the wrapper does the layout, and the children stand one after the other
  | .fullWidth | .constrained => Markup.spaced (Node.markupAll tokens s.children)

/-- How the content of the wrapper flows. -/
def outerFlow (s : Section) : Flow :=
  match s.layout.kind with
  | .fullWidth => .block
  | _ => .constrained

def cover (tokens : Tokens) (s : Section) (url : String) : Markup :=
  let a : Appearance :=
    { attributes := [("url", .string url), ("dimRatio", .nat coverDim),
        ("layout", layoutOf (outerFlow s) sectionGridColumnWidth)]
      classes := ["wp-block-cover"] }
  let a := a.named s.className
  .block "cover" a.attributes
    [.element "div" (Markup.classAttribute a.classes)
      [.newline,
        .element "span"
          [("aria-hidden", "true"), ("class", "wp-block-cover__background has-background-dim")] [],
        .newline,
        .void "img"
          [("class", "wp-block-cover__image-background"), ("alt", ""), Markup.escaped "src" url,
            ("data-object-fit", "cover")],
        .newline,
        .element "div" [("class", "wp-block-cover__inner-container")]
          ([.newline] ++ layout tokens s ++ [.newline]),
        .newline]]

/-- The color group of a background that can be used. -/
def backgroundStyle (background : Option Background) : Style :=
  match background with
  | none => []
  | some b =>
    match usable? (some b.value), b.kind with
    | some value, .color => [("color", .object [("background", .string value)])]
    | some value, .gradient => [("color", .object [("gradient", .string value)])]
    | _, _ => []

/-- The space above and below a section with a gap. -/
def sectionPadding (gap : Option Gap) : Style :=
  match gap with
  | some gap =>
    [("spacing", .object
      [("padding", .object [("top", .string gap.width), ("bottom", .string gap.width)])])]
  | none => []

def sectionGroup (tokens : Tokens) (s : Section) : Markup :=
  let color := backgroundStyle s.background
  let a : Appearance :=
    { attributes := [("layout", layoutOf (outerFlow s) sectionGridColumnWidth)]
      classes := ["wp-block-group", (outerFlow s).className]
        ++ (if color.isEmpty then [] else ["has-background"]) }
  let a := (a.setStyle (color ++ sectionPadding s.layout.gap)).named s.className
  .block "group" a.attributes
    [.element "div" a.elementAttributes ([.newline] ++ layout tokens s ++ [.newline])]

end Render

def Section.markup (tokens : Tokens) (s : Section) : Markup :=
  match s.background with
  | some ⟨.image, url⟩ => Render.cover tokens s url
  | _ => Render.sectionGroup tokens s

end BlockTheme
