import BlockTheme.Text.Quoted

/-!
# Texts with halves of characters

A text in the settings may hold halves of surrogate pairs, which are no characters: JSON can name them
one by one, and nothing puts them together or takes them out later. So it is a list of glyphs. All
other texts of the converter consist of characters.
-/
namespace BlockTheme.Text

/-- A character, or one half of a surrogate pair, by its place among the code points of halves. -/
inductive Glyph where
  | char (c : Char)
  | half (place : Fin 2048)
  deriving DecidableEq

abbrev Glyphs := List Glyph

/-- The code point of the first half. -/
def firstHalf : Nat := 0xd800

/-- One glyph between quotes of the kind `quote`. Halves are written by their code points. -/
def Glyph.escape (quote : Char) : Glyph → List Char
  | .char c => Quoted.escapeChar quote c
  | .half place => Quoted.backslash :: 'u' :: hexDigits 4 (firstHalf + place)

def Glyph.char? : Glyph → Option Char
  | .char c => some c
  | .half _ => none

namespace Glyphs

def ofChars (s : List Char) : Glyphs := s.map .char

instance : Coe String Glyphs := ⟨fun s => ofChars s.toList⟩

/-- The characters of a text, if it consists of nothing else. -/
def chars? (s : Glyphs) : Option (List Char) := s.mapM Glyph.char?

/-- The text in quotes, of which the characters in it decide the kind. -/
def quoted (s : Glyphs) : List Char :=
  let quote := Quoted.quoteFor (s.filterMap Glyph.char?)
  quote :: (s.flatMap (Glyph.escape quote) ++ [quote])

end Glyphs

end BlockTheme.Text
