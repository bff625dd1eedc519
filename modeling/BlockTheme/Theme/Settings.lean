import BlockTheme.Json.Writer
import BlockTheme.Style.Preset
import BlockTheme.Text.Blank
import BlockTheme.Theme.Slug

/-!
# Theme settings

The file `theme.json`, which declares the palette, the font families and the font sizes that the
templates refer to.
-/
namespace BlockTheme.Theme

/-- A member, if a condition holds. -/
def memberIf (condition : Bool) (key : String) (v : Json) : Fields :=
  if condition then [(key, v)] else []

def paletteColor (slug color name : String) : Json :=
  .object [("slug", .string slug), ("color", .string color), ("name", .string name)]

/-- The palette, with the accent and the muted color only if they are given. -/
def palette (colors : Colors) : List Json :=
  [paletteColor "primary" colors.primary "Primary",
    paletteColor "secondary" colors.secondary "Secondary",
    paletteColor "background" colors.background "Background",
    paletteColor "foreground" colors.foreground "Foreground"]
    ++ (if Text.isFilled colors.accent then
        [paletteColor "accent" (colors.accent.getD "") "Accent"] else [])
    ++ (if Text.isFilled colors.muted then
        [paletteColor "muted" (colors.muted.getD "") "Muted"] else [])

def fontFamily (slug name : String) (family : Option String) : List Json :=
  if Text.isFilled family then
    [.object
      [("fontFamily", .string (family.getD "" ++ ", sans-serif")), ("slug", .string slug),
        ("name", .string name)]]
  else []

def fontFamilies (fonts : Fonts) : List Json :=
  fontFamily "heading" "Heading" fonts.heading ++ fontFamily "body" "Body" fonts.body

def fontSize (slug size name : String) : Json :=
  .object [("slug", .string slug), ("size", .string size), ("name", .string name)]

def fontSizes : List Json :=
  [fontSize "small" "14px" "Small",
    fontSize "medium" "18px" "Medium",
    fontSize "large" "24px" "Large",
    fontSize "x-large" "36px" "Extra Large",
    fontSize "xx-large" "48px" "2X Large",
    fontSize "huge" "64px" "Huge",
    fontSize "gigantic" "96px" "Gigantic",
    fontSize "display" "140px" "Display"]

def buttonStyle (radius : Option Radius) : Json :=
  .object
    ([("color", .object
        [("background", .string "var(--wp--preset--color--primary)"),
          ("text", .string "#ffffff")])]
      ++ (radius.map fun r => ("border", Json.object [("radius", .string r.length)])).toList)

/-- The typography of elements in the font of a role. -/
def typographyIn (role : String) : Json :=
  .object [("fontFamily", .string ("var(--wp--preset--font-family--" ++ role ++ ")"))]

def styles (tokens : Tokens) : Json :=
  .object
    ([("color", .object
        [("background", .string tokens.colors.background),
          ("text", .string tokens.colors.foreground)])]
      ++ memberIf (Text.isFilled tokens.fonts.body) "typography" (typographyIn "body")
      ++ [("elements", .object
        (memberIf (Text.isFilled tokens.fonts.heading) "heading"
            (.object [("typography", typographyIn "heading")])
          ++ [("button", buttonStyle tokens.radius),
            ("link", .object
              [("color", .object
                [("text", .string "var(--wp--preset--color--primary)")])])]))])

def settings (tokens : Tokens) : Json :=
  .object
    [("color", .object
        [("palette", .array (palette tokens.colors)), ("defaultPalette", .bool false)]),
      ("typography", .object
        (memberIf (!(fontFamilies tokens.fonts).isEmpty) "fontFamilies"
            (.array (fontFamilies tokens.fonts))
          ++ [("fontSizes", .array fontSizes)])),
      ("layout", .object [("contentSize", .string "1200px"), ("wideSize", .string "1920px")]),
      ("spacing", .object [("units", .array (["px", "em", "rem", "%"].map .string))]),
      ("appearanceTools", .bool true)]

def part (area title : String) : Json :=
  .object [("name", .string area), ("title", .string title), ("area", .string area)]

/-- The template parts of a document. -/
def parts (document : Document) : List Json :=
  let header := part "header" "Header"
  let footer := part "footer" "Footer"
  match document.header.isSome, document.footer.isSome with
  | true, true => [header, footer]
  | false, true => [footer]
  -- without any part, too, a header is declared
  | _, false => [header]

def settingsJson (document : Document) : Json :=
  .object
    [("$schema", .string "https://schemas.wp.org/trunk/theme.json"),
      ("version", .nat 2),
      ("settings", settings document.tokens),
      ("styles", styles document.tokens),
      ("templateParts", .array (parts document))]

def settingsFile (document : Document) : String := (settingsJson document).pretty

end BlockTheme.Theme
