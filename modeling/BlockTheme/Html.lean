import BlockTheme.Html.Token

/-!
# HTML trees

The tree of a text of HTML. An element is closed by the next end tag of its name, which also closes
everything that was opened in between; an end tag without an open element of its name does nothing.
Elements that are always empty are closed at once.
-/
namespace BlockTheme

/-- A tree of HTML: text, which may be hidden, or an element. -/
inductive Html where
  | text (content : String) (hidden : Bool)
  | element (name : String) (attributes : List (String × String)) (children : List Html)

structure Html.Tag where
  name : String
  attributes : List (String × String)
  children : List Html

namespace Html

/-! ## Building -/

/-- The elements that are always empty. -/
def voidElements : List String :=
  ["area", "base", "br", "col", "embed", "hr", "img", "input", "keygen", "link", "menuitem", "meta",
    "param", "source", "track", "wbr", "basefont", "bgsound", "command", "frame", "image",
    "isindex", "nextid", "spacer"]

/-- The elements whose text is not shown. -/
def hidingElements : List String := ["rt", "rp", "style", "script", "template"]

/-- The elements in which blanks count. -/
def preformattedElements : List String := ["pre", "textarea"]

/-- An element that is still open, with what it holds so far, the last first. -/
structure Open where
  name : String
  attributes : List (String × String)
  held : List Html

/-- The state of building: the open elements from the innermost out, what stands outside of them,
the last first, and the names of the void elements whose end tags are still to be passed over. -/
structure Builder where
  stack : List Open := []
  roots : List Html := []
  closed : List String := []

namespace Builder

/-- Adds a piece where building stands. -/
def add (piece : Html) (b : Builder) : Builder :=
  match b.stack with
  | [] => { b with roots := piece :: b.roots }
  | inner :: outer => { b with stack := { inner with held := piece :: inner.held } :: outer }

def closeInner (b : Builder) : Builder :=
  match b.stack with
  | [] => b
  | inner :: outer =>
    add (.element inner.name inner.attributes inner.held.reverse) { b with stack := outer }

/-- Closes elements up to one with a name. -/
def closeThrough (name : String) : Nat → Builder → Builder
  | 0, b => b
  | count + 1, b =>
    match b.stack with
    | [] => b
    | inner :: _ =>
      if inner.name = name then b.closeInner else closeThrough name count b.closeInner

def close (name : String) (b : Builder) : Builder :=
  if b.stack.any (·.name == name) then closeThrough name b.stack.length b else b

/-- An end tag that stands in the text: for a void element that was closed before it does
nothing. -/
def closeWritten (name : String) (b : Builder) : Builder :=
  if b.closed.contains name then { b with closed := b.closed.erase name } else b.close name

/-- Of several attributes with one name the last one counts. -/
def lastOfEach (attributes : List (List Char × List Char)) : List (String × String) :=
  attributes.foldl
    (fun kept (name, value) =>
      kept.filter (·.1 != String.ofList name) ++ [(String.ofList name, String.ofList value)])
    []

/-- Adds text, which is hidden inside the elements that hide it. -/
def addText (content : List Char) (b : Builder) : Builder :=
  b.add (.text (String.ofList content) (b.stack.any fun e => hidingElements.contains e.name))

/-- Adds a marked section of text. -/
def addSection (content : List Char) (b : Builder) : Builder :=
  -- an empty one is a space, except where blanks count
  let blank := content.isEmpty && !b.stack.any fun e => preformattedElements.contains e.name
  b.add (.text (if blank then " " else String.ofList content) false)

def step (b : Builder) : Token → Builder
  | .text content => b.addText content
  | .section content => b.addSection content
  | .stop name => b.closeWritten (String.ofList name)
  | .start name attributes closed =>
    let name := String.ofList name
    let b := { b with stack := ⟨name, lastOfEach attributes, []⟩ :: b.stack }
    if closed then b.closeWritten name
    else if voidElements.contains name then
      -- its end tag, if one is written at all, is passed over later
      { b.close name with closed := name :: b.closed }
    else b

def finish (b : Builder) : List Html :=
  (b.stack.foldl (fun b _ => b.closeInner) b).roots.reverse

end Builder

def ofTokens (found : List Token) : List Html := (found.foldl Builder.step {}).finish

/-- The trees of a text, unless it is refused. -/
def parse (text : String) : Except Rejection (List Html) := (tokens text.toList).map ofTokens

/-! ## Looking into trees -/

mutual

/-- The elements of a tree, each before those inside it. -/
def tags : Html → List Tag
  | .text _ _ => []
  | .element name attributes children => ⟨name, attributes, children⟩ :: tagsOf children

def tagsOf : List Html → List Tag
  | [] => []
  | tree :: rest => tags tree ++ tagsOf rest

end

mutual

/-- The text of a tree, without what is hidden. -/
def shownText : Html → List Char
  | .text content hidden => if hidden then [] else content.toList
  | .element _ _ children => shownTextOf children

/-- The text of trees, without what is hidden. -/
def shownTextOf : List Html → List Char
  | [] => []
  | tree :: rest => shownText tree ++ shownTextOf rest

end

def Tag.inside (tag : Tag) : List Tag := tagsOf tag.children

def Tag.text (tag : Tag) : String := String.ofList (shownTextOf tag.children)

def Tag.attribute? (tag : Tag) (name : String) : Option String := tag.attributes.lookup name

end Html

end BlockTheme
