import BlockTheme.Render.Section

/-!
# Templates

The index template refers to the header and the footer and holds the sections in between; header
and footer are templates of their own.
-/
namespace BlockTheme

/-- A reference to a part of the template. -/
def Render.templatePart (area : String) : Markup :=
  .reference "template-part" [("slug", .string area), ("area", .string area)]

def Render.index (tokens : Tokens) (sections : List Section) (hasHeader hasFooter : Bool) :
    List Markup :=
  Markup.spaced
    ((if hasHeader then [Render.templatePart "header"] else [])
      ++ sections.map (Section.markup tokens)
      ++ (if hasFooter then [Render.templatePart "footer"] else []))

structure Templates where
  index : List Markup
  header : Option Markup
  footer : Option Markup

def Document.templates (document : Document) : Templates where
  index := Render.index document.tokens document.body document.header.isSome
    document.footer.isSome
  header := document.header.map (Section.markup document.tokens)
  footer := document.footer.map (Section.markup document.tokens)

end BlockTheme
