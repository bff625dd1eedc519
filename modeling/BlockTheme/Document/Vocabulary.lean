import BlockTheme.Schema.Field

/-!
# The vocabularies of a page document

The closed sets of words that a document draws on: kinds of nodes, sizes, alignments, layouts and
so on. Each is a type of its own, with the word for every value.
-/
namespace BlockTheme

open Schema (Named)

/-- The kinds of nodes that have a markup of their own. -/
inductive NodeKind where
  | heading | paragraph | image | button | list | spacer | group | navigation
  deriving DecidableEq, Repr

instance : Named NodeKind where
  all := [.heading, .paragraph, .image, .button, .list, .spacer, .group, .navigation]
  name
    | .heading => "heading"
    | .paragraph => "paragraph"
    | .image => "image"
    | .button => "button"
    | .list => "list"
    | .spacer => "spacer"
    | .group => "group"
    | .navigation => "navigation"

/-- The animation that was wished for. -/
inductive Motion where
  | still | fadeIn | slideUp | parallax | hoverReveal | complex
  deriving DecidableEq, Repr

instance : Named Motion where
  all := [.still, .fadeIn, .slideUp, .parallax, .hoverReveal, .complex]
  name
    | .still => "static"
    | .fadeIn => "fade-in"
    | .slideUp => "slide-up"
    | .parallax => "parallax"
    | .hoverReveal => "hover-reveal"
    | .complex => "complex"

inductive Level where
  | one | two | three | four | five | six
  deriving DecidableEq, Repr

namespace Level

def all : List Level := [.one, .two, .three, .four, .five, .six]

def number : Level → Nat
  | .one => 1
  | .two => 2
  | .three => 3
  | .four => 4
  | .five => 5
  | .six => 6

def ofNumber? (n : Int) : Option Level := all.find? fun level => (level.number : Int) == n

end Level

/-- A step of the size scale. -/
inductive Size where
  | small | medium | large | extraLarge
  deriving DecidableEq, Repr

instance : Named Size where
  all := [.small, .medium, .large, .extraLarge]
  name
    | .small => "sm"
    | .medium => "md"
    | .large => "lg"
    | .extraLarge => "xl"

/-- A step of the scale of gaps. -/
inductive Gap where
  | small | medium | large
  deriving DecidableEq, Repr

instance : Named Gap where
  all := [.small, .medium, .large]
  name
    | .small => "sm"
    | .medium => "md"
    | .large => "lg"

/-- How round corners are. -/
inductive Radius where
  | none | small | medium | large | full
  deriving DecidableEq, Repr

instance : Named Radius where
  all := [.none, .small, .medium, .large, .full]
  name
    | .none => "none"
    | .small => "sm"
    | .medium => "md"
    | .large => "lg"
    | .full => "full"

/-- How a button looks. -/
inductive Variant where
  | primary | secondary | outline
  deriving DecidableEq, Repr

instance : Named Variant where
  all := [.primary, .secondary, .outline]
  name
    | .primary => "primary"
    | .secondary => "secondary"
    | .outline => "outline"

inductive TextAlign where
  | left | center | right
  deriving DecidableEq, Repr

instance : Named TextAlign where
  all := [.left, .center, .right]
  name
    | .left => "left"
    | .center => "center"
    | .right => "right"

/-- How columns are aligned with each other. -/
inductive VerticalAlign where
  | top | center | bottom
  deriving DecidableEq, Repr

instance : Named VerticalAlign where
  all := [.top, .center, .bottom]
  name
    | .top => "top"
    | .center => "center"
    | .bottom => "bottom"

/-- How the children of a section are laid out. -/
inductive LayoutKind where
  | fullWidth | constrained | grid | columns
  deriving DecidableEq, Repr

instance : Named LayoutKind where
  all := [.fullWidth, .constrained, .grid, .columns]
  name
    | .fullWidth => "full-width"
    | .constrained => "constrained"
    | .grid => "grid"
    | .columns => "columns"

/-- What a section has behind it. -/
inductive BackgroundKind where
  | color | image | gradient
  deriving DecidableEq, Repr

instance : Named BackgroundKind where
  all := [.color, .image, .gradient]
  name
    | .color => "color"
    | .image => "image"
    | .gradient => "gradient"

end BlockTheme
