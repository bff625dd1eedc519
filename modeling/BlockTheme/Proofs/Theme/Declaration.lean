import BlockTheme.Html.Token
import BlockTheme.Proofs.Convert.Targets
import BlockTheme.Proofs.Text.Marks
import BlockTheme.Proofs.Theme.Names

/-!
# The declaration of a theme

`style.css` is one comment with a field in each line. A reader looks for the comment's end and cuts
what is before it into lines, so that a title or a description with such an end or with a line break
in it is read as something else: the fields read back exactly if no value has either
(`readHeader_headerText_iff`), which leaves the title and the description to look at
(`read_declarationFile_iff`).

Readers do not agree on what ends a line. `LineBreaks` is any of their notions: a line feed does, and
no printable character of ASCII does.
-/

namespace BlockTheme.Theme

open Html (untilStop?)
open Text (dropStart? dropStart?_eq_some dropStart?_eq_none)

/-! ## Reading -/

/-- Where a text is cut into lines. -/
structure LineBreaks where
  breaks : Char → Bool
  feed : breaks '\n' = true
  printable : ∀ c : Char, 32 ≤ c.toNat → c.toNat < 127 → breaks c = false

/-- Lines that end at line feeds alone. -/
def LineBreaks.feeds : LineBreaks where
  breaks := (· == '\n')
  feed := rfl
  printable c hblank _ := by
    apply beq_false_of_ne
    rintro rfl
    revert hblank
    decide

/-- A field of a header: its name, and its value. -/
abbrev Field := List Char × List Char

/-- The field in a line. The first colon before a blank ends its name. -/
def readField (line : List Char) : Option Field := untilStop? (dropStart? [':', ' ']) line

/-- The fields in some lines, if there is one in each of them. -/
def readFields : List (List Char) → Option (List Field)
  | [] => some []
  | line :: rest => (readField line).bind fun field => (readFields rest).map (field :: ·)

/-- The fields in the comment that a text begins with, one in each of its lines that is not empty. -/
def readHeader (lines : LineBreaks) (text : List Char) : Option (List Field) :=
  (dropStart? ['/', '*'] text).bind fun inner =>
    (untilStop? (dropStart? ['*', '/']) inner).bind fun (body, _) =>
      readFields ((body.splitOnP lines.breaks).filter fun line => !line.isEmpty)

/-- No end of a comment is in a text but the one before its last line feed. -/
def EndsOnce (text : List Char) : Prop :=
  ∀ before after, text = before ++ ['*', '/'] ++ after → after = ['\n']

/-! ## Writing -/

/-- The line of a field. -/
def fieldLine (field : Field) : List Char := field.1 ++ [':', ' '] ++ field.2

/-- The lines of some fields. -/
def fieldLines (fields : List Field) : List Char :=
  fields.flatMap fun field => fieldLine field ++ ['\n']

/-- The comment that holds some fields. -/
def headerText (fields : List Field) : List Char :=
  ['/', '*', '\n'] ++ fieldLines fields ++ ['*', '/', '\n']

/-- A text that stands in one line of a comment. -/
def Plain (lines : LineBreaks) (text : List Char) : Prop :=
  ¬['*', '/'] <:+: text ∧ ∀ c ∈ text, lines.breaks c = false

/-- The name of a field: letters and blanks. -/
def IsName (name : List Char) : Prop := ∀ c ∈ name, c.isAlpha = true ∨ c = ' '

variable {lines : LineBreaks} {fields : List Field}

/-- Names of fields are of printable characters of ASCII. -/
theorem range_of_isName {name : List Char} (h : IsName name) {c : Char} (hc : c ∈ name) :
    c.toNat = 32 ∨ 65 ≤ c.toNat ∧ c.toNat ≤ 122 := by
  rcases h c hc with halpha | rfl
  · have hletter := (isAlpha_iff.1 halpha).imp Text.range_of_isUpper Text.range_of_isLower
    omega
  · exact Or.inl rfl

/-- The name of a field stands in one line, whatever the reader takes for the end of a line. -/
theorem not_breaks_of_isName {name : List Char} (h : IsName name) :
    ∀ c ∈ name, lines.breaks c = false := by
  intro c hc
  have hrange := range_of_isName h hc
  apply lines.printable <;> omega

/-- The name of a field has no colon, at which it would end too early, and no part of the end of a
comment. -/
theorem not_mem_mark_of_isName {name : List Char} (h : IsName name) :
    ∀ c ∈ name, c ≠ ':' ∧ c ∉ ['*', '/'] := by
  intro c hc
  have hrange := range_of_isName h hc
  constructor
  · rintro rfl
    revert hrange
    decide
  · intro hmark
    obtain rfl | rfl : c = '*' ∨ c = '/' := by simpa using hmark
    · revert hrange
      decide
    · revert hrange
      decide

/-! ## Ends of comments -/

/-- The end of a comment in the line of a field is one in its value: the name and the colon have
none of its characters. -/
theorem infix_fieldLine_iff {field : Field} (hname : IsName field.1) :
    ['*', '/'] <:+: fieldLine field ↔ ['*', '/'] <:+: field.2 := by
  rw [fieldLine, List.append_assoc,
    Text.infix_append_of_forall_not_mem (fun c hc => (not_mem_mark_of_isName hname c hc).2) (by simp),
    Text.infix_append_of_forall_not_mem (by decide) (by simp)]

/-- The end of a comment is in the lines of some fields exactly if it is in a value. -/
theorem infix_fieldLines_iff (hnames : ∀ field ∈ fields, IsName field.1) :
    ['*', '/'] <:+: fieldLines fields ↔ ∃ field ∈ fields, ['*', '/'] <:+: field.2 := by
  induction fields with
  | nil => simp [fieldLines]
  | cons field rest ih =>
    obtain ⟨hname, hnames⟩ := List.forall_mem_cons.1 hnames
    have hlines : fieldLines (field :: rest) = fieldLine field ++ '\n' :: fieldLines rest := by
      simp [fieldLines]
    rw [hlines, Text.infix_append_cons (by decide) (by simp), infix_fieldLine_iff hname, ih hnames]
    simp

/-- A text that ends in the end of a comment has no other one exactly if none is before it. An end
that lay across the border would have its slash where the star of the last end stands. -/
theorem endsOnce_append_iff {text : List Char} :
    EndsOnce (text ++ ['*', '/', '\n']) ↔ ¬['*', '/'] <:+: text := by
  constructor
  -- an end within the text would be followed by the end of the comment
  · rintro honce ⟨before, after, rfl⟩
    have hafter : after ++ ['*', '/', '\n'] = ['\n'] :=
      honce before (after ++ ['*', '/', '\n']) (List.append_assoc _ after _)
    simpa using congrArg List.length hafter
  · intro hnone before after htext
    rw [List.append_assoc] at htext
    rcases List.append_eq_append_iff.1 htext with ⟨more, rfl, hmore⟩ | ⟨more, rfl, hmore⟩
    · -- the end stands in what follows the text
      match more, hmore with
      | [], hmore => simpa using hmore.symm
      | [c], hmore => simp at hmore
      | [c, d], hmore => simp at hmore
      | [c, d, e], hmore => simp at hmore
    · -- the end begins in the text
      match more, hmore with
      | [], hmore => simpa using hmore
      | [c], hmore => simp at hmore
      | c :: d :: more, hmore =>
        obtain ⟨rfl, rfl, -⟩ : '*' = c ∧ '/' = d ∧ _ := by simpa using hmore
        exact absurd ⟨before, more, by simp⟩ hnone

/-- A header ends once exactly if no value ends it before. -/
theorem endsOnce_headerText_iff (hnames : ∀ field ∈ fields, IsName field.1) :
    EndsOnce (headerText fields) ↔ ∀ field ∈ fields, ¬['*', '/'] <:+: field.2 := by
  have hopen : ['/', '*', '\n'] ++ fieldLines fields = ['/', '*'] ++ '\n' :: fieldLines fields := rfl
  have hstart : ¬['*', '/'] <:+: ['/', '*'] := by decide
  rw [headerText, endsOnce_append_iff, hopen, Text.infix_append_cons (by decide) (by simp),
    infix_fieldLines_iff hnames]
  simp only [hstart, false_or, not_exists, not_and]

/-! ## Lines -/

/-- A text is read up to the first place of a mark. The condition says that no mark begins earlier,
not even one that reaches into the mark itself. -/
theorem untilStop?_dropStart? {mark before after : List Char} (hmark : mark ≠ [])
    (h : ∀ front back rest, before = front ++ back → back ++ mark ++ after = mark ++ rest →
      back = []) :
    untilStop? (dropStart? mark) (before ++ mark ++ after) = some (before, after) := by
  induction before with
  | nil =>
    obtain ⟨c, text, hc⟩ := List.exists_cons_of_ne_nil (List.append_ne_nil_of_left_ne_nil hmark after)
    show untilStop? (dropStart? mark) (mark ++ after) = _
    rw [hc, untilStop?, ← hc, dropStart?_eq_some.2 rfl]
  | cons c before ih =>
    -- the mark does not start here, as it would then end before the place that is looked for
    have hnone : dropStart? mark (c :: (before ++ mark ++ after)) = none := by
      apply dropStart?_eq_none.2
      rintro ⟨rest, hrest⟩
      cases h [] (c :: before) rest rfl hrest.symm
    have hbefore : untilStop? (dropStart? mark) (before ++ mark ++ after) = some (before, after) :=
      ih fun front back rest hfront hback => h (c :: front) back rest (by rw [hfront]; rfl) hback
    show untilStop? (dropStart? mark) (c :: (before ++ mark ++ after)) = _
    rw [untilStop?, hnone, hbefore]
    rfl

/-- What is read is the text before and after a mark, so nothing is lost on the way. -/
theorem eq_append_of_untilStop? {mark text before after : List Char}
    (h : untilStop? (dropStart? mark) text = some (before, after)) :
    text = before ++ mark ++ after := by
  -- on the text: the mark stands here, or the character belongs to what comes before it
  induction text generalizing before with
  | nil => cases h
  | cons c text ih =>
    rw [untilStop?] at h
    cases hdrop : dropStart? mark (c :: text) with
    | some rest =>
      rw [hdrop] at h
      cases h
      exact dropStart?_eq_some.1 hdrop
    | none =>
      rw [hdrop] at h
      obtain ⟨⟨front, rest⟩, hrest, hpair⟩ := Option.map_eq_some_iff.1 h
      cases hpair
      rw [ih hrest]
      rfl

/-- A field is read back from its line. Its value may have colons, as the first one counts, and the
name has none. -/
theorem readField_fieldLine {field : Field} (hname : IsName field.1) :
    readField (fieldLine field) = some field := by
  apply untilStop?_dropStart? (List.cons_ne_nil _ _)
  intro front back rest hfront hback
  cases back with
  | nil => rfl
  | cons c back =>
    -- the name has no colon
    have hcolon : c = ':' := List.head_eq_of_cons_eq hback
    have hmem : c ∈ field.1 := by
      rw [hfront]
      exact List.mem_append_right front List.mem_cons_self
    exact absurd hcolon (not_mem_mark_of_isName hname c hmem).1

theorem readFields_map_fieldLine (hnames : ∀ field ∈ fields, IsName field.1) :
    readFields (fields.map fieldLine) = some fields := by
  induction fields with
  | nil => rfl
  | cons field rest ih =>
    obtain ⟨hname, hnames⟩ := List.forall_mem_cons.1 hnames
    rw [List.map_cons, readFields, readField_fieldLine hname, ih hnames]
    rfl

/-- Every field that is read stands in one of the lines. -/
theorem exists_of_readFields {found : List (List Char)} (h : readFields found = some fields) :
    ∀ field ∈ fields, ∃ line ∈ found, readField line = some field := by
  induction found generalizing fields with
  | nil =>
    cases h
    exact List.forall_mem_nil _
  | cons line rest ih =>
    obtain ⟨field, hfield, hmore⟩ := Option.bind_eq_some_iff.1 h
    obtain ⟨more, hrest, rfl⟩ := Option.map_eq_some_iff.1 hmore
    intro other hother
    obtain rfl | hother := List.mem_cons.1 hother
    · exact ⟨line, List.mem_cons_self, hfield⟩
    · obtain ⟨found, hfound, hread⟩ := ih hrest other hother
      exact ⟨found, List.mem_cons_of_mem _ hfound, hread⟩

/-- No line has a line break in it. By induction on the text, with what the first character does to
the first line. -/
theorem not_breaks_of_mem_splitOnP {breaks : Char → Bool} {text line : List Char}
    (hline : line ∈ text.splitOnP breaks) : ∀ c ∈ line, breaks c = false := by
  induction text generalizing line with
  | nil =>
    obtain rfl : line = [] := by simpa using hline
    exact List.forall_mem_nil _
  | cons d text ih =>
    rw [List.splitOnP_cons_eq_if_modifyHead] at hline
    by_cases hd : breaks d = true
    -- a break starts a line that is empty as yet
    · rw [if_pos hd] at hline
      obtain rfl | hrest := List.mem_cons.1 hline
      · exact List.forall_mem_nil _
      · exact ih hrest
    -- any other character goes to the front of the first line
    · rw [if_neg hd] at hline
      obtain ⟨first, rest, hsplit⟩ := List.exists_cons_of_ne_nil (List.splitOnP_ne_nil breaks text)
      rw [hsplit, List.modifyHead_cons] at hline
      rw [hsplit] at ih
      obtain rfl | hrest := List.mem_cons.1 hline
      · exact List.forall_mem_cons.2 ⟨by simpa using hd, ih List.mem_cons_self⟩
      · exact ih (List.mem_cons_of_mem _ hrest)

/-- Values without line breaks stand in one line each. Which characters break a line is left open,
as readers differ on that. -/
theorem splitOnP_fieldLines (hnames : ∀ field ∈ fields, IsName field.1)
    (hvalues : ∀ field ∈ fields, ∀ c ∈ field.2, lines.breaks c = false) :
    (fieldLines fields).splitOnP lines.breaks = fields.map fieldLine ++ [[]] := by
  induction fields with
  | nil => exact List.splitOnP_nil
  | cons field rest ih =>
    obtain ⟨hname, hnames⟩ := List.forall_mem_cons.1 hnames
    obtain ⟨hvalue, hvalues⟩ := List.forall_mem_cons.1 hvalues
    -- a line is a name, a colon, a blank and a value, and none of these has a break in it
    have hline : ∀ c ∈ fieldLine field, lines.breaks c = false := by
      intro c hc
      simp only [fieldLine, List.mem_append, List.mem_cons, List.not_mem_nil, or_false] at hc
      rcases hc with (hc | rfl | rfl) | hc
      · exact not_breaks_of_isName hname c hc
      · exact lines.printable ':' (by decide) (by decide)
      · exact lines.printable ' ' (by decide) (by decide)
      · exact hvalue c hc
    have hlines : fieldLines (field :: rest) = fieldLine field ++ '\n' :: fieldLines rest := by
      simp [fieldLines]
    rw [hlines, List.splitOnP_append_cons_of_forall_mem hline '\n' lines.feed, ih hnames hvalues]
    rfl

/-- A comment with one end is read up to it, and what is in it is read line by line. -/
theorem readHeader_headerText (honce : EndsOnce (headerText fields)) :
    readHeader lines (headerText fields)
      = readFields (((fieldLines fields).splitOnP lines.breaks).filter fun line => !line.isEmpty) := by
  have hopen : headerText fields
      = ['/', '*'] ++ ('\n' :: fieldLines fields ++ ['*', '/'] ++ ['\n']) := by
    simp [headerText]
  -- the comment ends where the header says, as it has one end only
  have hbody : untilStop? (dropStart? ['*', '/']) ('\n' :: fieldLines fields ++ ['*', '/'] ++ ['\n'])
      = some ('\n' :: fieldLines fields, ['\n']) := by
    apply untilStop?_dropStart? (List.cons_ne_nil _ _)
    intro front back rest hfront hback
    have hrest : rest = ['\n'] := by
      apply honce (['/', '*'] ++ front)
      rw [List.append_assoc, ← hback, hopen, hfront]
      simp
    simpa [hrest] using congrArg List.length hback
  rw [readHeader, hopen, dropStart?_eq_some.2 rfl, Option.bind_some, hbody]
  show readFields ((('\n' :: fieldLines fields).splitOnP lines.breaks).filter _) = _
  rw [List.splitOnP_cons_eq_if_modifyHead, if_pos lines.feed]
  rfl

/-- **Fields read back exactly if their values are plain.** If the names of some fields have letters
and blanks, the comment with these fields has one end and gives them back exactly if no value has an
end of a comment or a line break in it. -/
theorem readHeader_headerText_iff (hnames : ∀ field ∈ fields, IsName field.1) :
    EndsOnce (headerText fields) ∧ readHeader lines (headerText fields) = some fields
      ↔ ∀ field ∈ fields, Plain lines field.2 := by
  have hfilled : (fields.map fieldLine ++ [[]]).filter (fun line => !line.isEmpty)
      = fields.map fieldLine := by
    rw [List.filter_append, List.filter_eq_self.2]
    · simp
    · intro line hline
      obtain ⟨field, -, rfl⟩ := List.mem_map.1 hline
      simp [fieldLine]
  constructor
  -- a value that was read is a part of one line
  · rintro ⟨honce, hread⟩ field hfield
    refine ⟨(endsOnce_headerText_iff hnames).1 honce field hfield, fun c hc => ?_⟩
    rw [readHeader_headerText honce] at hread
    obtain ⟨line, hline, hvalue⟩ := exists_of_readFields hread field hfield
    apply not_breaks_of_mem_splitOnP (List.mem_of_mem_filter hline)
    rw [eq_append_of_untilStop? hvalue]
    exact List.mem_append_right _ hc
  · intro hplain
    have honce : EndsOnce (headerText fields) :=
      (endsOnce_headerText_iff hnames).2 fun field hfield => (hplain field hfield).1
    refine ⟨honce, ?_⟩
    rw [readHeader_headerText honce,
      splitOnP_fieldLines hnames fun field hfield => (hplain field hfield).2, hfilled]
    exact readFields_map_fieldLine hnames

/-- A value that ends the comment leaves the fields after it outside. -/
example :
    readHeader .feeds (headerText [(['N'], ['a', '*', '/']), (['D'], ['b'])])
      = some [(['N'], ['a'])] := by
  decide +kernel

/-! ## Documents -/

variable (lines : LineBreaks) (document : Document)

/-- The name that a theme declares. One without a title has a name all the same. -/
def declaredName : String :=
  if document.metadata.title.isEmpty then "AI Generated Theme" else document.metadata.title

/-- The description that a theme declares, its own or the one for all that have none. -/
def declaredDescription : String :=
  if Text.isFilled document.metadata.description then document.metadata.description.getD ""
  else "WordPress Block Theme generated from AI HTML by Blocksmith."

/-- What all themes declare. -/
def commonFields : List (String × String) :=
  [("Version", "1.0.0"), ("Requires at least", "6.0"), ("Tested up to", "6.7"),
    ("Requires PHP", "7.4"), ("License", "GPL-2.0-or-later"),
    ("License URI", "https://www.gnu.org/licenses/gpl-2.0.html")]

/-- What the declaration of a theme says. -/
def declaration : List (String × String) :=
  [("Theme Name", declaredName document), ("Description", declaredDescription document)]
    ++ commonFields ++ [("Text Domain", document.slug)]

/-- A field of strings as one of characters. -/
def Field.ofStrings (field : String × String) : Field := (field.1.toList, field.2.toList)

/-- The line of a field in the text. -/
def lineText (field : String × String) : String := field.1 ++ ": " ++ field.2 ++ "\n"

theorem toList_lineText (field : String × String) :
    (lineText field).toList = fieldLine (Field.ofStrings field) ++ ['\n'] := by
  simp [lineText, fieldLine, Field.ofStrings]

/-- The text of `style.css` is written line by line, and these are the lines of its fields. -/
theorem declarationFile_eq_join :
    declarationFile document = "/*\n" ++ String.join ((declaration document).map lineText) ++ "*/\n" := by
  have hname : "Theme Name: " = "Theme Name" ++ ": " := by decide +kernel
  have hdescription : "Description: " = "Description" ++ ": " := by decide +kernel
  have hdomain : "Text Domain: " = "Text Domain" ++ ": " := by decide +kernel
  have hcommon : "Version: 1.0.0\n" ++ "Requires at least: 6.0\n" ++ "Tested up to: 6.7\n"
      ++ "Requires PHP: 7.4\n" ++ "License: GPL-2.0-or-later\n"
      ++ "License URI: https://www.gnu.org/licenses/gpl-2.0.html\n"
        = String.join (commonFields.map lineText) := by
    decide +kernel
  -- the text of the program cut at the colons
  have hlines : declarationFile document
      = "/*\n" ++ "Theme Name: " ++ declaredName document ++ "\n" ++ "Description: "
        ++ declaredDescription document ++ "\n" ++ "Version: 1.0.0\n" ++ "Requires at least: 6.0\n"
        ++ "Tested up to: 6.7\n" ++ "Requires PHP: 7.4\n" ++ "License: GPL-2.0-or-later\n"
        ++ "License URI: https://www.gnu.org/licenses/gpl-2.0.html\n" ++ "Text Domain: "
        ++ document.slug ++ "\n" ++ "*/\n" := rfl
  rw [hlines, hname, hdescription, hdomain]
  simp only [declaration, List.map_append, List.map_cons, List.map_nil, String.join_append,
    String.join_cons, String.join_nil, ← hcommon, lineText, String.append_assoc, String.append_empty]

/-- The text of `style.css` is the header with the fields of the declaration, so that what is shown
for headers applies to it. -/
theorem toList_declarationFile :
    (declarationFile document).toList = headerText ((declaration document).map Field.ofStrings) := by
  rw [declarationFile_eq_join, String.toList_append, String.toList_append, String.toList_join,
    List.flatMap_map, headerText, fieldLines, List.flatMap_map]
  simp only [toList_lineText]
  rfl

/-- All names of fields are made of letters and blanks. -/
theorem isName_of_mem_declaration :
    ∀ field ∈ (declaration document).map Field.ofStrings, IsName field.1 := by
  have hnames : ∀ name ∈ (declaration document).map Prod.fst, IsName name.toList := by
    show ∀ name ∈ ["Theme Name", "Description", "Version", "Requires at least", "Tested up to",
      "Requires PHP", "License", "License URI", "Text Domain"],
      ∀ c ∈ name.toList, c.isAlpha = true ∨ c = ' '
    decide
  intro field hfield
  obtain ⟨named, hnamed, rfl⟩ := List.mem_map.1 hfield
  exact hnames named.1 (List.mem_map_of_mem hnamed)

variable {document}

/-- A text of printable characters is plain if no end of a comment is in it. -/
theorem plain_of_printable {text : List Char} (hmark : ¬['*', '/'] <:+: text)
    (htext : ∀ c ∈ text, 32 ≤ c.toNat ∧ c.toNat < 127) : Plain lines text :=
  ⟨hmark, fun c hc => lines.printable c (htext c hc).1 (htext c hc).2⟩

theorem plain_of_mem_commonFields : ∀ field ∈ commonFields, Plain lines field.2.toList := by
  have hvalues : ∀ field ∈ commonFields, ¬['*', '/'] <:+: field.2.toList
      ∧ ∀ c ∈ field.2.toList, 32 ≤ c.toNat ∧ c.toNat < 127 := by
    decide
  intro field hfield
  exact plain_of_printable lines (hvalues field hfield).1 (hvalues field hfield).2

/-- A slug is plain: it has neither stars nor slashes nor line breaks, so that it cannot spoil the
header. -/
theorem plain_slug : Plain lines document.slug.toList := by
  have hchars : ∀ c ∈ document.slug.toList, c = '-' ∨ 48 ≤ c.toNat ∧ c.toNat ≤ 122 := by
    intro c hc
    rcases document.mem_slug.2 c hc with hslug | rfl
    · have hrange := Text.range_of_isSlugChar hslug
      omega
    · exact Or.inl rfl
  apply plain_of_printable
  · apply Text.not_infix_of_not_mem List.mem_cons_self
    intro hstar
    exact absurd (hchars _ hstar) (by decide)
  · intro c hc
    rcases hchars c hc with rfl | hrange
    · decide
    · omega

/-- The declared name is plain exactly if the title is: the name for themes without a title is. -/
theorem plain_declaredName_iff :
    Plain lines (declaredName document).toList ↔ Plain lines document.metadata.title.toList := by
  unfold declaredName
  split
  · next hempty =>
    have htitle : document.metadata.title = "" := by simpa using hempty
    rw [htitle]
    constructor <;> intro _ <;> exact plain_of_printable lines (by decide) (by decide)
  · rfl

theorem plain_declaredDescription_iff :
    Plain lines (declaredDescription document).toList
      ↔ Plain lines (document.metadata.description.getD "").toList := by
  unfold declaredDescription
  split
  · rfl
  · next hempty =>
    have hdescription : document.metadata.description.getD "" = "" := by
      simpa [Text.isFilled] using hempty
    rw [hdescription]
    constructor <;> intro _ <;> exact plain_of_printable lines (by decide) (by decide)

variable (document)

/-- **The declaration reads back exactly if title and description are plain.** The text of
`style.css` has the end of one comment, and each line of the comment gives its field, exactly if
neither the title nor the description of the document has an end of a comment or a line break in it.
The slug never has. -/
theorem read_declarationFile_iff :
    EndsOnce (declarationFile document).toList
        ∧ readHeader lines (declarationFile document).toList
          = some ((declaration document).map Field.ofStrings)
      ↔ Plain lines document.metadata.title.toList
        ∧ Plain lines (document.metadata.description.getD "").toList := by
  rw [toList_declarationFile, readHeader_headerText_iff (isName_of_mem_declaration document),
    List.forall_mem_map, ← plain_declaredName_iff, ← plain_declaredDescription_iff]
  constructor
  · intro hplain
    exact ⟨hplain ("Theme Name", declaredName document) (by simp [declaration]),
      hplain ("Description", declaredDescription document) (by simp [declaration])⟩
  -- the name and the description come from the document, the other fields are fixed or made of the
  -- slug
  · rintro ⟨hname, hdescription⟩ field hfield
    rw [declaration, List.mem_append, List.mem_append, List.mem_singleton, List.mem_cons,
      List.mem_singleton] at hfield
    obtain ((rfl | rfl) | hcommon) | rfl := hfield
    · simpa only [Field.ofStrings] using hname
    · simpa only [Field.ofStrings] using hdescription
    · exact plain_of_mem_commonFields lines field hcommon
    · simpa only [Field.ofStrings] using plain_slug lines

end BlockTheme.Theme
