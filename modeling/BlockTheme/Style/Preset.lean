import BlockTheme.Document.Vocabulary

/-!
# Presets

The CSS lengths and preset names that the steps of a design's scales stand for.
-/
namespace BlockTheme

/-- The width of a padding, and the height of a spacer. -/
def Size.padding : Size → String
  | .small => "10px"
  | .medium => "20px"
  | .large => "40px"
  | .extraLarge => "60px"

def Size.fontPreset : Size → String
  | .small => "small"
  | .medium => "medium"
  | .large => "large"
  | .extraLarge => "x-large"

def Gap.width : Gap → String
  | .small => "10px"
  | .medium => "20px"
  | .large => "40px"

def Radius.length : Radius → String
  | .none => "0"
  | .small => "4px"
  | .medium => "8px"
  | .large => "16px"
  | .full => "9999px"

/-- How the content of a block flows. -/
inductive Flow where
  | constrained | grid | flex | block
  deriving DecidableEq, Repr

instance : Schema.Named Flow where
  all := [.constrained, .grid, .flex, .block]
  name
    | .constrained => "constrained"
    | .grid => "grid"
    | .flex => "flex"
    | .block => "default"

def Flow.className : Flow → String
  | .constrained => "is-layout-constrained"
  | .grid => "is-layout-grid"
  | .flex => "is-layout-flex"
  | .block => "is-layout-flow"

end BlockTheme
