import BlockTheme.Document
import BlockTheme.Html
import BlockTheme.Text.Blank

/-!
# Fingerprints

A leaf is a piece of content that can be recognized: a heading, a paragraph, an image, a button or
a list. Its key is a text made from what it says, and is the same for an element of a page's
markup and for the node of a document that came from it.
-/
namespace BlockTheme.Recovery

inductive LeafKind where
  | heading | paragraph | image | button | list
  deriving DecidableEq, Repr

instance : Schema.Named LeafKind where
  all := [.heading, .paragraph, .image, .button, .list]
  name
    | .heading => "heading"
    | .paragraph => "paragraph"
    | .image => "image"
    | .button => "button"
    | .list => "list"

/-- Whether a name is that of a heading element. -/
def isHeadingTag (tag : String) : Bool :=
  match tag.toList with
  -- a line break may follow the name
  | ['h', digit] | ['h', digit, '\n'] => '1' ≤ digit && digit ≤ '6'
  | _ => false

/-- The kind of leaf that an element is. -/
def LeafKind.ofTag? (tag : String) : Option LeafKind :=
  if isHeadingTag tag then some .heading
  else
    match tag with
    | "p" => some .paragraph
    | "img" => some .image
    | "button" | "a" => some .button
    | "ul" | "ol" => some .list
    | _ => none

/-- The key of a leaf, given the name of its element, its text, and what else identifies it: the
source of an image, the address of a button, the joined items of a list. -/
def leafKey? (tag text extra : String) : Option String :=
  let words := Text.normalizeText text
  -- a leaf that says nothing has no key
  let spoken (key : String) := if words.isEmpty then none else some key
  let extended (key : String) := if extra.isEmpty then none else some key
  match LeafKind.ofTag? tag with
  | some .heading => spoken (tag ++ "|" ++ words)
  | some .paragraph => spoken ("p|" ++ words)
  | some .image => extended ("img|" ++ extra)
  | some .button => spoken ("btn|" ++ words ++ "|" ++ extra)
  | some .list => extended ("list|" ++ tag ++ "|" ++ extra)
  | none => none

/-- The items of a list that say something, joined. -/
def joinItems (items : List String) : String :=
  "|".intercalate ((items.map Text.normalizeText).filter fun item => !item.isEmpty)

/-! ## Elements -/

def tagKey? (tag : Html.Tag) : Option String :=
  match LeafKind.ofTag? tag.name with
  | some .image => leafKey? tag.name "" ((tag.attribute? "src").getD "")
  | some .list =>
    leafKey? tag.name ""
      (joinItems ((tag.inside.filter fun inner => inner.name == "li").map Html.Tag.text))
  | _ => leafKey? tag.name tag.text (if tag.name = "a" then (tag.attribute? "href").getD "" else "")

/-- The keys of the leaves among elements, each once. -/
def tagKeys (tags : List Html.Tag) : List String := Text.distinct (tags.filterMap tagKey?)

/-! ## Nodes -/

def headingName (level : Level) : String := "h" ++ String.ofList (Nat.toDigits 10 level.number)

def nodeLeaf? (node : Node) : Option (LeafKind × String) :=
  let content := node.content.getD ""
  let a := node.attributes
  match node.kind? with
  | some .heading =>
    (leafKey? (headingName (a.level.getD .two)) content "").map fun key => (.heading, key)
  | some .paragraph => (leafKey? "p" content "").map fun key => (.paragraph, key)
  | some .image => (leafKey? "img" "" (a.src.getD "")).map fun key => (.image, key)
  | some .button => (leafKey? "button" content (a.href.getD "")).map fun key => (.button, key)
  | some .list =>
    (leafKey? (if a.ordered.getD false then "ol" else "ul") ""
      (joinItems (a.items.getD []))).map fun key => (.list, key)
  | _ => none

/-- The keys of the leaves among nodes and below them, each once. -/
def nodeKeys (nodes : List Node) : List String :=
  Text.distinct ((Node.preorderAll nodes).filterMap fun node => (nodeLeaf? node).map (·.2))

end BlockTheme.Recovery
