import BlockTheme.Json.Writer
import BlockTheme.Text.Escape

/-!
# Block markup

The markup of templates as a tree: HTML elements, and blocks, whose delimiters are comments that
carry the attributes of the block as JSON. `Markup.write` is the one place where the tree becomes
text.
-/
namespace BlockTheme

/-- A piece of block markup. -/
inductive Markup where
  /-- Character data as it is written. -/
  | text (written : String)
  /-- An element with attributes as they are written, and its content. -/
  | element (tag : String) (attributes : List (String × String)) (content : List Markup)
  /-- An element that has no content. -/
  | void (tag : String) (attributes : List (String × String))
  /-- A block between its two delimiters. -/
  | block (name : String) (attributes : Fields) (content : List Markup)
  /-- A block that is only referred to. -/
  | reference (name : String) (attributes : Fields)
  /-- A comment that is no delimiter. -/
  | remark (words : String)

namespace Markup

def data (s : String) : Markup := .text (Text.Escape.data s)

def newline : Markup := .text "\n"

/-- Pieces with an empty line between them. -/
def spaced (pieces : List Markup) : List Markup := pieces.intersperse (.text "\n\n")

/-- Pieces on lines of their own. -/
def lines (pieces : List Markup) : List Markup := pieces.intersperse newline

/-- An attribute whose value is any text. -/
def escaped (name value : String) : String × String := (name, Text.Escape.attributeValue value)

def classAttribute (classes : List String) : List (String × String) :=
  if classes.isEmpty then [] else [("class", " ".intercalate classes)]

/-! ## Writing -/

def writeAttributes (attributes : List (String × String)) : List Char :=
  attributes.flatMap fun (name, value) =>
    ' ' :: (name.toList ++ '=' :: Char.ofNat 34 :: (value.toList ++ [Char.ofNat 34]))

/-- The attributes inside a delimiter, cleaned; nothing if none are left. -/
def writeBlockAttributes (attributes : Fields) : List Char :=
  match attributes.clean with
  | [] => []
  | kept => ' ' :: (Json.compact (.object kept)).toList

mutual

def write : Markup → List Char
  | .text written => written.toList
  | .element tag attributes content =>
    '<' :: (tag.toList ++ writeAttributes attributes ++ '>' :: writeAll content
      ++ '<' :: '/' :: (tag.toList ++ ['>']))
  | .void tag attributes => '<' :: (tag.toList ++ writeAttributes attributes ++ ['/', '>'])
  | .block name attributes content =>
    "<!-- wp:".toList ++ name.toList ++ writeBlockAttributes attributes ++ " -->\n".toList
      ++ writeAll content ++ "\n<!-- /wp:".toList ++ name.toList ++ " -->".toList
  | .reference name attributes =>
    "<!-- wp:".toList ++ name.toList ++ writeBlockAttributes attributes ++ " /-->".toList
  | .remark words => "<!-- ".toList ++ words.toList ++ " -->".toList

/-- Pieces as text, one after the other. -/
def writeAll : List Markup → List Char
  | [] => []
  | piece :: rest => write piece ++ writeAll rest

end

def toText (piece : Markup) : String := String.ofList (write piece)

def allToText (pieces : List Markup) : String := String.ofList (writeAll pieces)

end Markup

end BlockTheme
