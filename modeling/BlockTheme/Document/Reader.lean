import BlockTheme.Document
import BlockTheme.Json.Reader

/-!
# Reading page documents

A document out of JSON. Every reader gives the value or all issues, those of a member's value where
the member is declared. Members that are not known are passed over, and so are members that a later
one with the same key replaces. Only in a style these are read too.
-/
namespace BlockTheme

open Schema

/-- A heading level: its number, also as a flag or with a decimal point. -/
def Level.read : Json → Checked Level
  | .number (.int n) =>
    match Level.ofNumber? n with
    | some level => .valid level
    -- a number beyond 64 bits has a problem of its own
    | none => if isWord n then unlisted else .fail .oversizedInteger
  | .number (.float x) =>
    match x.toInt?.bind Level.ofNumber? with
    | some level => .valid level
    | none => unlisted
  | .bool true => .valid .one
  | _ => unlisted
where
  unlisted : Checked Level :=
    .fail (.notListed false (Level.all.map fun level =>
      String.ofList (Nat.toDigits 10 level.number)))

def Link.ofFields (fields : Fields) : Checked Link :=
  Link.mk <$> required (.word "text") Schema.text fields
    <*> required (.word "href") Schema.text fields

def Attributes.ofFields (fields : Fields) : Checked Attributes :=
  Attributes.mk <$> optional (.word "level") Level.read fields
    <*> optional (.word "src") text fields
    <*> optional (.word "alt") text fields
    <*> optional (.word "width") number fields
    <*> optional (.word "height") number fields
    <*> optional (.word "href") text fields
    <*> optional (.word "variant") (oneOf false) fields
    <*> optional (.word "ordered") flag fields
    <*> optional (.word "items") (array text) fields
    <*> optional (.word "links") (array (object Link.ofFields)) fields
    <*> optional ⟨"fontSize", "font_size"⟩ (oneOf false) fields
    <*> optional ⟨"textAlign", "text_align"⟩ (oneOf false) fields
    <*> optional ⟨"backgroundColor", "background_color"⟩ text fields
    <*> optional ⟨"textColor", "text_color"⟩ text fields
    <*> optional (.word "padding") (oneOf false) fields

def Attributes.read : Json → Checked Attributes := object Attributes.ofFields

namespace Node

def ofFields (fields : Fields) (children : Checked (Option (List Node))) : Checked Node :=
  Node.mk <$> required (.word "type") text fields
    <*> optional (.word "content") text fields
    <*> withDefault {} (.word "attributes") Attributes.read fields
    <*> children
    <*> optional ⟨"motionIntent", "motion_intent"⟩ (oneOf true) fields
    <*> optional (.word "style") (map text) fields
    <*> optional ⟨"className", "class_name"⟩ text fields

mutual

def read : Json → Checked Node
  | .object members => ofFields members (readChildren members)
  | _ => .fail .notAnObject

/-- The children that the last of the members with their name gives a node. -/
def readChildren : List (String × Json) → Checked (Option (List Node))
  | [] => .valid none
  | (key, v) :: rest =>
    if key = "children" ∧ key ∉ Fields.keys rest then (readList? v).within (.key key)
    else readChildren rest

def readList? : Json → Checked (Option (List Node))
  | .null => .valid none
  | .array values => some <$> readItems 0 values
  | _ => .fail .notAnArray

def readItems (position : Nat) : List Json → Checked (List Node)
  | [] => .valid []
  | v :: rest =>
    (List.cons <$> (read v).within (.index position)) <*> readItems (position + 1) rest

end

end Node

def Layout.ofFields (fields : Fields) : Checked Layout :=
  Layout.mk <$> required (.word "type") (oneOf false) fields
    <*> optional (.word "columns") integer fields
    <*> optional (.word "gap") (oneOf false) fields
    <*> optional ⟨"contentWidth", "content_width"⟩ text fields
    <*> optional ⟨"verticalAlign", "vertical_align"⟩ (oneOf false) fields

def Background.ofFields (fields : Fields) : Checked Background :=
  Background.mk <$> required (.word "type") (oneOf false) fields
    <*> required (.word "value") text fields

def Section.ofFields (fields : Fields) : Checked Section :=
  Section.mk <$> withDefault "generic" ⟨"sectionIntent", "section_intent"⟩ text fields
    <*> required (.word "layout") (object Layout.ofFields) fields
    <*> withDefault [] (.word "children") (array Node.read) fields
    <*> optional ⟨"motionIntent", "motion_intent"⟩ (oneOf true) fields
    <*> optional (.word "background") (object Background.ofFields) fields
    <*> optional (.word "style") (map text) fields
    <*> optional ⟨"className", "class_name"⟩ text fields

def Section.read : Json → Checked Section := object Section.ofFields

def Colors.ofFields (fields : Fields) : Checked Colors :=
  Colors.mk <$> required (.word "primary") text fields
    <*> required (.word "secondary") text fields
    <*> required (.word "background") text fields
    <*> required (.word "foreground") text fields
    <*> optional (.word "accent") text fields
    <*> optional (.word "muted") text fields

def Fonts.ofFields (fields : Fields) : Checked Fonts :=
  Fonts.mk <$> optional (.word "heading") text fields
    <*> optional (.word "body") text fields

def Fonts.read : Json → Checked Fonts := object Fonts.ofFields

def Tokens.ofFields (fields : Fields) : Checked Tokens :=
  Tokens.mk <$> required (.word "colors") (object Colors.ofFields) fields
    <*> withDefault {} (.word "fonts") Fonts.read fields
    <*> optional ⟨"borderRadius", "border_radius"⟩ (oneOf false) fields

def Tokens.read : Json → Checked Tokens := object Tokens.ofFields

def Metadata.ofFields (fields : Fields) : Checked Metadata :=
  Metadata.mk <$> required (.word "title") text fields
    <*> optional (.word "description") text fields
    <*> optional ⟨"sourceUrl", "source_url"⟩ text fields

/-- The one version of the format. -/
inductive Version where
  | current

instance : Named Version where
  all := [.current]
  name _ := "1.0"

def Document.ofFields (fields : Fields) : Checked Document :=
  (fun (_ : Version) => Document.mk) <$> withDefault .current (.word "version") (oneOf false) fields
    <*> required (.word "metadata") (object Metadata.ofFields) fields
    <*> required ⟨"designTokens", "design_tokens"⟩ Tokens.read fields
    <*> optional (.word "header") Section.read fields
    <*> required (.word "sections") (filledArray Section.read) fields
    <*> optional (.word "footer") Section.read fields
    <*> optional ⟨"customCSS", "custom_css"⟩ text fields

def Document.read : Json → Checked Document := object Document.ofFields

/-- How many levels arrays and objects may nest in the text of a document. -/
def Document.depthLimit : Nat := 200

def Document.readText {α : Type} (read : Json → Checked α) (text : String) : Checked α :=
  match Json.read? .all (some depthLimit) text with
  | some v => read v
  | none => .fail .notJson

/-- Loads a document from its text. -/
def Document.load (text : String) : Checked Document := readText Document.read text

end BlockTheme
