import BlockTheme.Proofs.Recovery.Shipped
import BlockTheme.Proofs.Render.Layout

/-!
# What the summary of a theme says about its files

The summary of a theme and its files come from one document, each by rules of its own. They agree
about the header and the footer: each has a file exactly if the summary says so, and exactly then the
index begins or ends with a reference to it. About the page's own stylesheet they agree exactly if the
stylesheet that counts has something in it like that of the document (`summary_describes_iff`): the
summary only looks at the latter.
-/

namespace BlockTheme

/-! ## Stylesheets -/

namespace Text

/-- Nothing is left of a text without blanks at its ends exactly if it holds blanks alone. A
stylesheet of blanks counts as none, for the summary as for the file. -/
theorem strip_eq_nil_iff {text : List Char} : strip text = [] ↔ text.all isBlank = true := by
  constructor
  · intro h
    obtain ⟨front, back, htext, hfront, hback⟩ := exists_strip text
    rw [h, List.append_nil] at htext
    rw [htext, List.all_append, Bool.and_eq_true]
    exact ⟨List.all_eq_true.2 hfront, List.all_eq_true.2 hback⟩
  · intro h
    have hdrop : text.dropWhile isBlank = [] :=
      List.dropWhile_eq_nil_iff.2 (List.all_eq_true.1 h)
    rw [strip, trim, hdrop]
    rfl

/-- A text is blank if nothing is left of it without the blanks around it. -/
theorem isEmpty_stripText (s : String) : (stripText s).isEmpty = isBlankText s := by
  rw [Bool.eq_iff_iff, String.isEmpty_iff, stripText, isBlankText, ← strip_eq_nil_iff,
    String.ofList_eq_empty_iff]

end Text

/-- The stylesheet of a theme has more in it than the header exactly if there is one that has
something in it. -/
theorem Theme.stylesheetFile_ne_header_iff {css : Option String} :
    stylesheetFile css ≠ stylesheetHeader ↔ Text.isBlankText (css.getD "") = false := by
  unfold stylesheetFile
  simp only [Text.isEmpty_stripText]
  cases Text.isBlankText (css.getD "") with
  | true => simp
  | false =>
    have hlonger : (stylesheetHeader ++ Text.stripText (css.getD "") ++ "\n").length
        ≠ stylesheetHeader.length := by
      rw [String.length_append, String.length_append]
      have hfeed : "\n".length = 1 := by decide
      omega
    simp only [Bool.false_eq_true, if_false]
    exact iff_of_true (fun heq => hlonger (by rw [heq])) trivial

/-! ## The ends of an index -/

namespace Render

open Markup (write write_block writeAll openingWords closingWords)

/-- The beginning of a block. -/
def blockStart (name : String) : List Char := Comment.opening ++ ([' ', 'w', 'p', ':'] ++ name.toList)

/-- The end of a block. -/
def blockStop (name : String) : List Char := name.toList ++ ' ' :: Comment.closing

/-- A block begins with the start of its delimiter. -/
theorem blockStart_begins_block (name : String) (attributes : Fields) (content : List Markup) :
    blockStart name <+: write (.block name attributes content) := by
  rw [write_block, blockStart, openingWords]
  simp only [List.append_assoc, List.prefix_append_right_inj, List.prefix_append]

theorem blockStop_ends_block (name : String) (attributes : Fields) (content : List Markup) :
    blockStop name <:+ write (.block name attributes content) := by
  have hwrite : write (.block name attributes content)
      = (Comment.opening ++ (openingWords name attributes ++ (Comment.closing ++ '\n' :: (writeAll content
        ++ '\n' :: (Comment.opening ++ [' ', '/', 'w', 'p', ':']))))) ++ blockStop name := by
    simp [write_block, blockStop, closingWords]
  rw [hwrite]
  exact List.suffix_append _ _

/-- The blocks that sections are written as. -/
def wrappers : List String := ["cover", "group"]

theorem exists_markup_eq_block (tokens : Tokens) (s : Section) :
    ∃ name ∈ wrappers, ∃ attributes content, s.markup tokens = .block name attributes content := by
  unfold Section.markup
  split
  · exact ⟨"cover", by simp [wrappers], _, _, rfl⟩
  · exact ⟨"group", by simp [wrappers], _, _, rfl⟩

/-- The reference to a part as it is written. -/
def partReference (area : String) : List Char := write (templatePart area)

/-- No text begins both with a reference to a header and as a section does, and none ends both with a
reference to a footer and as a section does. The two references are no less different. -/
theorem partReference_apart :
    (∀ name ∈ wrappers, ¬partReference "header" <+: blockStart name
        ∧ ¬blockStart name <+: partReference "header")
      ∧ (∀ name ∈ wrappers, ¬partReference "footer" <:+ blockStop name
        ∧ ¬blockStop name <:+ partReference "footer")
      ∧ ¬partReference "header" <+: partReference "footer"
      ∧ ¬partReference "footer" <:+ partReference "header"
      ∧ partReference "header" ≠ [] ∧ partReference "footer" ≠ [] := by
  decide +kernel

variable (tokens : Tokens) (sections : List Section) (hasHeader hasFooter : Bool)

/-- A text that begins with a section does not begin with a reference to a header. -/
theorem not_prefix_of_section {s : Section} {text : List Char}
    (h : write (s.markup tokens) <+: text) : ¬partReference "header" <+: text := by
  obtain ⟨name, hname, attributes, content, hmarkup⟩ := exists_markup_eq_block tokens s
  obtain ⟨hshort, hlong⟩ := partReference_apart.1 name hname
  intro hpart
  rw [hmarkup] at h
  have hstart : blockStart name <+: text := (blockStart_begins_block name attributes content).trans h
  exact (List.prefix_or_prefix_of_prefix hpart hstart).elim hshort hlong

/-- A text that ends with a section does not end with a reference to a footer. -/
theorem not_suffix_of_section {s : Section} {text : List Char}
    (h : write (s.markup tokens) <:+ text) : ¬partReference "footer" <:+ text := by
  obtain ⟨name, hname, attributes, content, hmarkup⟩ := exists_markup_eq_block tokens s
  obtain ⟨hshort, hlong⟩ := partReference_apart.2.1 name hname
  intro hpart
  rw [hmarkup] at h
  have hstop : blockStop name <:+ text := (blockStop_ends_block name attributes content).trans h
  exact (List.suffix_or_suffix_of_suffix hpart hstop).elim hshort hlong

theorem prefix_intercalate_cons (separator first : List Char) (rest : List (List Char)) :
    first <+: separator.intercalate (first :: rest) := by
  cases rest with
  | nil => simp
  | cons next rest =>
    rw [List.intercalate_cons_cons, List.append_assoc]
    exact List.prefix_append _ _

theorem suffix_intercalate_concat (separator last : List Char) (front : List (List Char)) :
    last <:+ separator.intercalate (front ++ [last]) := by
  induction front with
  | nil => simp
  | cons first front ih =>
    rw [List.cons_append]
    cases hrest : front ++ [last] with
    | nil => simp at hrest
    | cons next rest =>
      rw [hrest] at ih
      rw [List.intercalate_cons_cons]
      exact ih.trans (List.suffix_append _ _)

/-- **An index begins with a reference to the header exactly if there is one.** Without a header it
begins with a section, whose delimiter has another name. -/
theorem partReference_prefix_index_iff :
    partReference "header" <+: writeAll (index tokens sections hasHeader hasFooter)
      ↔ hasHeader = true := by
  rw [index, writeAll_spaced]
  cases hasHeader with
  | true =>
    rw [if_pos rfl, List.append_assoc, List.singleton_append, List.map_cons]
    exact iff_of_true (prefix_intercalate_cons _ _ _) rfl
  -- without a header the text begins with the footer, with a section, or is empty
  | false =>
    refine iff_of_false ?_ Bool.false_ne_true
    rw [if_neg Bool.false_ne_true, List.nil_append]
    cases sections with
    | nil =>
      obtain ⟨-, -, hfooter, -, hheader, -⟩ := partReference_apart
      cases hasFooter with
      | true => simpa [partReference] using hfooter
      | false => simpa using hheader
    | cons s rest =>
      rw [List.map_cons, List.cons_append, List.map_cons]
      exact not_prefix_of_section tokens (prefix_intercalate_cons _ _ _)

/-- **An index ends with a reference to the footer exactly if there is one.** Without a footer it
ends with the closing delimiter of a section, or it is empty. -/
theorem partReference_suffix_index_iff :
    partReference "footer" <:+ writeAll (index tokens sections hasHeader hasFooter)
      ↔ hasFooter = true := by
  rw [index, writeAll_spaced]
  cases hasFooter with
  | true =>
    rw [if_pos rfl, List.map_append, List.map_singleton]
    exact iff_of_true (suffix_intercalate_concat _ _ _) rfl
  -- without a footer the text ends with the header, with a section, or is empty
  | false =>
    refine iff_of_false ?_ Bool.false_ne_true
    rw [if_neg Bool.false_ne_true, List.append_nil]
    rcases List.eq_nil_or_concat' sections with rfl | ⟨front, s, rfl⟩
    · obtain ⟨-, -, -, hheader, -, hfooter⟩ := partReference_apart
      cases hasHeader with
      | true => simpa [partReference] using hheader
      | false => simpa using hfooter
    · simp only [List.map_append, List.map_singleton, ← List.append_assoc]
      exact not_suffix_of_section tokens (suffix_intercalate_concat _ _ _)

end Render

/-! ## Summaries -/

namespace Bundle

variable (document : Document) (css : Option String)

/-- The file of the page has the sections of the body. -/
theorem lookup_index :
    (ofDocument document css).files.lookup "templates/index.html"
      = some (Markup.allToText document.templates.index) := by
  simp [ofDocument, filesOf, List.lookup_cons]

/-- There is a file for the header exactly if there is a header, and it has the header's markup. -/
theorem lookup_header :
    (ofDocument document css).files.lookup "parts/header.html"
      = document.templates.header.map Markup.toText := by
  unfold ofDocument filesOf
  rcases document.templates with ⟨index, _ | header, _ | footer⟩ <;> simp [List.lookup_cons]

theorem lookup_footer :
    (ofDocument document css).files.lookup "parts/footer.html"
      = document.templates.footer.map Markup.toText := by
  unfold ofDocument filesOf
  rcases document.templates with ⟨index, _ | header, _ | footer⟩ <;> simp [List.lookup_cons]

end Bundle

/-- What a theme shows of its regions: the files of its parts, and the references in its index. -/
structure Bundle.ShowsParts (bundle : Bundle) (index : String) : Prop where
  header_file : bundle.summary.hasHeader = (bundle.files.lookup "parts/header.html").isSome
  header_reference : bundle.summary.hasHeader = true ↔ Render.partReference "header" <+: index.toList
  footer_file : bundle.summary.hasFooter = (bundle.files.lookup "parts/footer.html").isSome
  footer_reference : bundle.summary.hasFooter = true ↔ Render.partReference "footer" <:+ index.toList

/-- The page refers to the parts that have files, and to no others. A reference to the header can
only stand at the front of the index, and one to the footer at its end. -/
theorem Bundle.showsParts_ofDocument (document : Document) (css : Option String) :
    (ofDocument document css).ShowsParts (Markup.allToText document.templates.index) where
  header_file := by
    rw [lookup_header, Option.isSome_map]
    exact (Option.isSome_map ..).symm
  header_reference := by
    rw [Markup.allToText, String.toList_ofList]
    exact (Render.partReference_prefix_index_iff _ _ _ _).symm
  footer_file := by
    rw [lookup_footer, Option.isSome_map]
    exact (Option.isSome_map ..).symm
  footer_reference := by
    rw [Markup.allToText, String.toList_ofList]
    exact (Render.partReference_suffix_index_iff _ _ _ _).symm

/-- **The summary of a theme describes its parts, and its stylesheet if the one that counts is like
that of the document.** Header and footer are in the summary exactly if they have a file, and exactly
if the index begins and ends with their references. That there is a stylesheet is in the summary
exactly if the file has more than its header, if and only if the stylesheet that the theme is made
with and that of the document are both blank or both not. -/
theorem summary_describes_iff {settings : Settings} {document : Document}
    {html css : Option String} {bundle : Bundle}
    (h : convert settings document html css = .ok bundle) :
    ∃ index sheet, bundle.files.lookup "templates/index.html" = some index
      ∧ bundle.files.lookup "assets/css/custom.css" = some sheet
      ∧ bundle.ShowsParts index
      ∧ ((bundle.summary.hasStylesheet = true ↔ sheet ≠ Theme.stylesheetHeader)
        ↔ Text.isBlankText ((Convert.stylesheet document css).getD "")
          = Text.isBlankText (document.stylesheet.getD "")) := by
  obtain ⟨result, hresult, rfl⟩ := Recovery.convert_eq_ok h
  have hunnamed := congrArg Document.stylesheet (Recovery.unnamed_prepared hresult)
  have hsame : result.stylesheet = document.stylesheet := hunnamed
  refine ⟨_, _, Bundle.lookup_index result css, Recovery.lookup_stylesheetFile result css,
    Bundle.showsParts_ofDocument result css, ?_⟩
  -- the summary looks at the style sheet of the document alone
  have hsummary : (Bundle.ofDocument result css).summary.hasStylesheet
      = !Text.isBlankText (document.stylesheet.getD "") := by
    rw [← hsame]
    rfl
  have hcounts : Convert.stylesheet result css = Convert.stylesheet document css := by
    rw [Convert.stylesheet, Convert.stylesheet, hsame]
  rw [Theme.stylesheetFile_ne_header_iff, hsummary, hcounts]
  cases Text.isBlankText (document.stylesheet.getD "") <;> simp

/-- A blank stylesheet is given to a page that has one of its own. The summary then tells of a
stylesheet, and the file has nothing but its header. -/
theorem summary_describes_blankSheet :
    ∃ bundle, convert (.record []) Recovery.twoHeadings none (some " ") = .ok bundle
      ∧ ∃ index sheet, bundle.files.lookup "templates/index.html" = some index
        ∧ bundle.files.lookup "assets/css/custom.css" = some sheet
        ∧ bundle.ShowsParts index
        ∧ ¬(bundle.summary.hasStylesheet = true ↔ sheet ≠ Theme.stylesheetHeader) := by
  have hconvert : convert (.record []) Recovery.twoHeadings none (some " ")
      = .ok (Bundle.ofDocument Recovery.twoHeadings (some " ")) := by rfl
  obtain ⟨index, sheet, hindex, hsheet, hparts, hiff⟩ := summary_describes_iff hconvert
  refine ⟨_, hconvert, index, sheet, hindex, hsheet, hparts, fun h => ?_⟩
  have hblank := hiff.1 h
  revert hblank
  decide

end BlockTheme
