/-!
# Escaping

Character data and attribute values as they are written in markup. Each character is written on its
own, so escaping distributes over concatenation.
-/
namespace BlockTheme.Text.Escape

def dataChar (c : Char) : List Char :=
  match c with
  | '&' => "&amp;".toList
  | '<' => "&lt;".toList
  | '>' => "&gt;".toList
  | c => [c]

/-- A character inside double quotes. -/
def attributeChar (c : Char) : List Char :=
  if c.toNat = 34 then "&quot;".toList else dataChar c

def data (s : String) : String := String.ofList (s.toList.flatMap dataChar)

def attributeValue (s : String) : String := String.ofList (s.toList.flatMap attributeChar)

end BlockTheme.Text.Escape
