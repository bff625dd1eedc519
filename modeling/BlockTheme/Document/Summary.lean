import BlockTheme.Document.Writer
import BlockTheme.Json.Writer
import BlockTheme.Text.Blank

/-!
# Summaries

The headline numbers of a document: how many sections it has, which of its regions are there, and
how many of its regions and nodes ask for an animation, show an image from elsewhere or carry a
class name.
-/
namespace BlockTheme

structure Summary where
  sections : Nat
  hasHeader : Bool
  hasFooter : Bool
  tokens : Tokens
  motionDowngrades : Nat
  externalImages : Nat
  hasStylesheet : Bool
  classNames : Nat

/-- Whether a motion is more than none. -/
def Motion.moves (motion : Option Motion) : Bool :=
  match motion with
  | none | some .still => false
  | some _ => true

/-- Whether an address names a place on the web. -/
def Text.isWebAddress (s : String) : Bool :=
  "http://".toList.isPrefixOf s.toList || "https://".toList.isPrefixOf s.toList

/-- Whether a node is an image that is loaded over the web. -/
def Node.isExternalImage (node : Node) : Bool :=
  node.kind? == some .image && Text.isWebAddress (node.attributes.src.getD "")

namespace Document

/-- All nodes of a document, region by region, each before its children. -/
def nodes (document : Document) : List Node :=
  document.regions.flatMap fun region => Node.preorderAll region.children

def summary (document : Document) : Summary where
  sections := document.body.length
  hasHeader := document.header.isSome
  hasFooter := document.footer.isSome
  tokens := document.tokens
  motionDowngrades :=
    document.regions.countP (fun region => Motion.moves region.motion)
      + document.nodes.countP (fun node => Motion.moves node.motion)
  externalImages := document.nodes.countP Node.isExternalImage
  hasStylesheet := !Text.isBlankText (document.stylesheet.getD "")
  classNames :=
    document.regions.countP (fun region => Text.isFilled region.className)
      + document.nodes.countP (fun node => Text.isFilled node.className)

end Document

namespace Summary

open Schema (Naming Key)

/-- The numbers and flags of a summary, without the design tokens. -/
def counts (naming : Naming) (s : Summary) : Fields :=
  [Key.member ⟨"sectionCount", "section_count"⟩ naming (.nat s.sections),
    Key.member ⟨"hasHeader", "has_header"⟩ naming (.bool s.hasHeader),
    Key.member ⟨"hasFooter", "has_footer"⟩ naming (.bool s.hasFooter),
    Key.member ⟨"motionDowngrades", "motion_downgrades"⟩ naming (.nat s.motionDowngrades),
    Key.member ⟨"externalImages", "external_images"⟩ naming (.nat s.externalImages),
    Key.member ⟨"hasCustomCss", "has_custom_css"⟩ naming (.bool s.hasStylesheet),
    Key.member ⟨"classNameCount", "class_name_count"⟩ naming (.nat s.classNames)]

def json (naming : Naming) (s : Summary) : Json :=
  .object
    -- the design tokens stand after the regions
    ((s.counts naming).take 3
      ++ [Key.member ⟨"designTokens", "design_tokens"⟩ naming (s.tokens.json naming)]
      ++ (s.counts naming).drop 3)

def text (s : Summary) : String := (s.json .camelCase).pretty

end Summary

end BlockTheme
