import BlockTheme.Document

/-!
# Writing page documents

A document as JSON with every member there, null where nothing is set. The names of members are
written in either of the two ways.
-/
namespace BlockTheme

open Schema (Naming Key Named)

def Schema.Key.member (key : Key) (naming : Naming) (v : Json) : String × Json :=
  (key.spelled naming, v)

/-- The word for a value that may be missing. -/
def Schema.Named.json? {α : Type} [Named α] (a : Option α) : Json :=
  Json.text? (a.map Named.name)

def Json.number? : Option Number → Json
  | some n => .number n
  | none => .null

def Json.texts? : Option (List String) → Json
  | some texts => .array (texts.map .string)
  | none => .null

def FreeStyle.json? : Option FreeStyle → Json
  | some style => .object (style.map fun (property, value) => (property, .string value))
  | none => .null

def Link.json (link : Link) : Json :=
  .object [("text", .string link.text), ("href", .string link.href)]

def Attributes.json (naming : Naming) (a : Attributes) : Json :=
  .object
    [("level", (a.level.map fun level => Json.nat level.number).getD .null),
      ("src", .text? a.src),
      ("alt", .text? a.alt),
      ("width", .number? a.width),
      ("height", .number? a.height),
      ("href", .text? a.href),
      ("variant", Named.json? a.variant),
      ("ordered", (a.ordered.map Json.bool).getD .null),
      ("items", .texts? a.items),
      ("links", (a.links.map fun links => Json.array (links.map Link.json)).getD .null),
      Key.member ⟨"fontSize", "font_size"⟩ naming (Named.json? a.fontSize),
      Key.member ⟨"textAlign", "text_align"⟩ naming (Named.json? a.textAlign),
      Key.member ⟨"backgroundColor", "background_color"⟩ naming (.text? a.backgroundColor),
      Key.member ⟨"textColor", "text_color"⟩ naming (.text? a.textColor),
      ("padding", Named.json? a.padding)]

mutual

def Node.json (naming : Naming) : Node → Json
  | ⟨type, content, attributes, children, motion, style, className⟩ =>
    .object
      [("type", .string type),
        ("content", .text? content),
        ("attributes", attributes.json naming),
        ("children", Node.jsonIn naming children),
        Key.member ⟨"motionIntent", "motion_intent"⟩ naming (Named.json? motion),
        ("style", FreeStyle.json? style),
        Key.member ⟨"className", "class_name"⟩ naming (.text? className)]

def Node.jsonIn (naming : Naming) : Option (List Node) → Json
  | none => .null
  | some nodes => .array (Node.jsonAll naming nodes)

def Node.jsonAll (naming : Naming) : List Node → List Json
  | [] => []
  | node :: rest => node.json naming :: Node.jsonAll naming rest

end

def Layout.json (naming : Naming) (layout : Layout) : Json :=
  .object
    [("type", .string (Named.name layout.kind)),
      ("columns", (layout.columns.map Json.int).getD .null),
      ("gap", Named.json? layout.gap),
      Key.member ⟨"contentWidth", "content_width"⟩ naming (.text? layout.contentWidth),
      Key.member ⟨"verticalAlign", "vertical_align"⟩ naming (Named.json? layout.verticalAlign)]

def Background.json (background : Background) : Json :=
  .object [("type", .string (Named.name background.kind)), ("value", .string background.value)]

def Section.json (naming : Naming) (s : Section) : Json :=
  .object
    [Key.member ⟨"sectionIntent", "section_intent"⟩ naming (.string s.intent),
      ("layout", s.layout.json naming),
      ("children", .array (Node.jsonAll naming s.children)),
      Key.member ⟨"motionIntent", "motion_intent"⟩ naming (Named.json? s.motion),
      ("background", (s.background.map Background.json).getD .null),
      ("style", FreeStyle.json? s.style),
      Key.member ⟨"className", "class_name"⟩ naming (.text? s.className)]

def Colors.json (colors : Colors) : Json :=
  .object
    [("primary", .string colors.primary),
      ("secondary", .string colors.secondary),
      ("background", .string colors.background),
      ("foreground", .string colors.foreground),
      ("accent", .text? colors.accent),
      ("muted", .text? colors.muted)]

def Tokens.json (naming : Naming) (tokens : Tokens) : Json :=
  .object
    [("colors", tokens.colors.json),
      ("fonts", .object
        [("heading", .text? tokens.fonts.heading), ("body", .text? tokens.fonts.body)]),
      Key.member ⟨"borderRadius", "border_radius"⟩ naming (Named.json? tokens.radius)]

def Document.json (naming : Naming) (document : Document) : Json :=
  .object
    [("version", .string "1.0"),
      ("metadata", .object
        [("title", .string document.metadata.title),
          ("description", .text? document.metadata.description),
          Key.member ⟨"sourceUrl", "source_url"⟩ naming (.text? document.metadata.sourceUrl)]),
      Key.member ⟨"designTokens", "design_tokens"⟩ naming (document.tokens.json naming),
      ("header", (document.header.map (Section.json naming)).getD .null),
      ("sections", .array (document.body.map (Section.json naming))),
      ("footer", (document.footer.map (Section.json naming)).getD .null),
      Key.member ⟨"customCSS", "custom_css"⟩ naming (.text? document.stylesheet)]

end BlockTheme
