import BlockTheme.Document.Vocabulary

/-!
# Page documents

A page as a converter gets it: metadata, design tokens, and regions of nested content nodes. The
header and the footer are regions like the sections of the body; `Document.regions` lists them in
the order in which they stand on the page.
-/
namespace BlockTheme

/-- A style as CSS properties and their values. -/
abbrev FreeStyle := List (String × String)

structure Link where
  text : String
  href : String

/-- What a node says about itself besides its content. -/
structure Attributes where
  level : Option Level := none
  src : Option String := none
  alt : Option String := none
  width : Option Number := none
  height : Option Number := none
  href : Option String := none
  variant : Option Variant := none
  ordered : Option Bool := none
  items : Option (List String) := none
  links : Option (List Link) := none
  fontSize : Option Size := none
  textAlign : Option TextAlign := none
  backgroundColor : Option String := none
  textColor : Option String := none
  padding : Option Size := none

/-- A content node. Its type is any text, so that kinds without a markup of their own can be kept
too. -/
structure Node where
  type : String
  content : Option String
  attributes : Attributes
  children : Option (List Node)
  motion : Option Motion
  style : Option FreeStyle
  className : Option String

structure Layout where
  kind : LayoutKind
  columns : Option Int
  gap : Option Gap
  contentWidth : Option String
  verticalAlign : Option VerticalAlign

structure Background where
  kind : BackgroundKind
  value : String

/-- A region of the page. Its intent is advice that nothing depends on. -/
structure Section where
  intent : String
  layout : Layout
  children : List Node
  motion : Option Motion
  background : Option Background
  style : Option FreeStyle
  className : Option String

structure Colors where
  primary : String
  secondary : String
  background : String
  foreground : String
  accent : Option String := none
  muted : Option String := none

structure Fonts where
  heading : Option String := none
  body : Option String := none

structure Tokens where
  colors : Colors
  fonts : Fonts := {}
  radius : Option Radius := none

/-- What a page says about itself. -/
structure Metadata where
  title : String
  description : Option String
  sourceUrl : Option String

/-- A page with its design, and the stylesheet that was found with it. -/
structure Document where
  metadata : Metadata
  tokens : Tokens
  header : Option Section
  body : List Section
  footer : Option Section
  stylesheet : Option String

namespace Node

/-- The kind of a node, if it has a markup of its own. -/
def kind? (node : Node) : Option NodeKind := Schema.Named.ofName? node.type

end Node

/-- Header, body sections and footer in the order of the page. -/
def Document.regions (document : Document) : List Section :=
  document.header.toList ++ document.body ++ document.footer.toList

mutual

/-- A node and everything below it, each node before its children. -/
def Node.preorder : Node → List Node
  | ⟨type, content, attributes, children, motion, style, className⟩ =>
    ⟨type, content, attributes, children, motion, style, className⟩ :: Node.preorderIn children

def Node.preorderIn : Option (List Node) → List Node
  | none => []
  | some nodes => Node.preorderAll nodes

def Node.preorderAll : List Node → List Node
  | [] => []
  | node :: rest => node.preorder ++ Node.preorderAll rest

end

end BlockTheme
