import BlockTheme.Proofs.Convert.Targets
import BlockTheme.Proofs.Php.Tokens
import BlockTheme.Proofs.Text.Words
import BlockTheme.Theme.Files

/-!
# The functions of a theme

The file of functions is written as code, literals and one comment (`Theme.functionTokens`). What it
takes from a document is the slug, which has letters, digits and hyphens, and the names of the fonts,
which may be anything: only their spaces are replaced. So a reader finds the tokens that were written
exactly if no font ends the literal in which the address of the fonts stands
(`Theme.read_functionsFile_iff`).
-/

namespace BlockTheme

open Php (Token Contained BreaksOut code literal comment text)
open Text.Quoted (apostrophe)

namespace Theme

/-! ## Tokens that are written -/

def enqueueTokens (handle : String) (source version : List Token) : List Token :=
  code "\twp_enqueue_style( " ++ literal handle ++ code ", " ++ source ++ code ", array(), "
    ++ version ++ code " );\n"

def loadTokens (document : Document) : List Token :=
  (match document.tokens.fonts.url? with
    | some url => enqueueTokens (document.slug ++ "-google-fonts") (literal url) (code "null")
    | none => [])
    ++ enqueueTokens (document.slug ++ "-custom")
      (code "get_template_directory_uri() . " ++ literal "/assets/css/custom.css")
      (literal "1.0.0")

/-- The line that declares a function. -/
def headTokens (name : String) : List Token := code ("function " ++ (name ++ "() \x7b\n"))

/-- A function, and the hook by which it is called. -/
def hookedTokens (event name : String) (body : List Token) : List Token :=
  headTokens name ++ body ++ code "\x7d\n" ++ code "add_action( " ++ literal event ++ code ", "
    ++ literal name ++ code " );\n"

def introTokens (slug : String) : List Token :=
  code "<?php\n"
    ++ comment ("*\n" ++ " * Theme functions and definitions.\n" ++ " *\n" ++ " * @package " ++ slug
      ++ "\n" ++ " ")
    ++ code ("\n" ++ "\n" ++ "if ( ! defined( ") ++ literal "ABSPATH"
    ++ code (" ) ) \x7b\n" ++ "\texit;\n" ++ "\x7d\n" ++ "\n")

def setupTokens : List Token :=
  code "\tadd_theme_support( " ++ literal "wp-block-styles"
    ++ code " );\n\tadd_theme_support( " ++ literal "editor-styles" ++ code " );\n"

/-- The tokens of the file of functions, as they are written. -/
def functionTokens (document : Document) : List Token :=
  let start := functionPrefix document.slug
  introTokens document.slug
    ++ hookedTokens "after_setup_theme" (start ++ "_setup") setupTokens ++ code "\n"
    ++ hookedTokens "wp_enqueue_scripts" (start ++ "_enqueue_styles") (loadTokens document)
    ++ code "\n"
    ++ hookedTokens "enqueue_block_editor_assets" (start ++ "_enqueue_editor_assets")
      (loadTokens document)

/-- A statement that loads a stylesheet has the text that the theme has for it. -/
theorem text_enqueueTokens (handle : String) (source version : List Token) :
    text (enqueueTokens handle source version) = enqueue handle (text source) (text version) := by
  show _ = ("\twp_enqueue_style( " ++ "'") ++ handle ++ ("'" ++ ", ") ++ text source ++ ", array(), "
    ++ text version ++ " );\n"
  simp only [enqueueTokens, Php.text_append, Php.text_code, Php.text_literal, String.append_assoc]

/-- The statements for the fonts, if there are any, and for the stylesheet of the theme. -/
theorem text_loadTokens (document : Document) :
    text (loadTokens document) = enqueueStatements document := by
  have hsource : text (code "get_template_directory_uri() . " ++ literal "/assets/css/custom.css")
      = "get_template_directory_uri() . '/assets/css/custom.css'" := by
    rw [Php.text_append, Php.text_code, Php.text_literal]
    rfl
  have hversion : text (literal "1.0.0") = "'1.0.0'" := by
    rw [Php.text_literal]
    rfl
  rw [loadTokens, enqueueStatements, Php.text_append, text_enqueueTokens, hsource, hversion]
  cases document.tokens.fonts.url? with
  | none => rfl
  | some url => simp only [text_enqueueTokens, Php.text_literal, Php.text_code]

/-- A function, its body between braces, and the hook behind it. -/
theorem text_hookedTokens (event name : String) (body : List Token) :
    text (hookedTokens event name body)
      = functionDefinition name (text body) ++ hook event name := by
  show _ = "function " ++ name ++ "() \x7b\n" ++ text body ++ "\x7d\n"
    ++ (("add_action( " ++ "'") ++ event ++ ("'" ++ ", " ++ "'") ++ name ++ ("'" ++ " );\n"))
  simp only [hookedTokens, headTokens, Php.text_append, Php.text_code, Php.text_literal,
    String.append_assoc]

/-- The first lines: the comment with the slug, and the guard against being called from outside. -/
theorem text_introTokens (slug : String) :
    text (introTokens slug)
      = "<?php\n" ++ "/**\n" ++ " * Theme functions and definitions.\n" ++ " *\n"
        ++ " * @package " ++ slug ++ "\n" ++ " */\n" ++ "\n" ++ "if ( ! defined( 'ABSPATH' ) ) \x7b\n"
        ++ "\texit;\n" ++ "\x7d\n" ++ "\n" := by
  show _ = "<?php\n" ++ ("/*" ++ "*\n") ++ " * Theme functions and definitions.\n" ++ " *\n"
        ++ " * @package " ++ slug ++ "\n" ++ (" " ++ ("*/" ++ "\n")) ++ "\n"
        ++ ("if ( ! defined( " ++ ("'" ++ "ABSPATH" ++ "'") ++ " ) ) \x7b\n")
        ++ "\texit;\n" ++ "\x7d\n" ++ "\n"
  simp only [introTokens, Php.text_append, Php.text_code, Php.text_comment, Php.text_literal,
    String.append_assoc]

/-- The body of the first function does not depend on the document. -/
theorem text_setupTokens :
    text setupTokens
      = "\tadd_theme_support( 'wp-block-styles' );\n\tadd_theme_support( 'editor-styles' );\n" := by
  rw [setupTokens, Php.text_append, Php.text_append, Php.text_append, Php.text_append,
    Php.text_code, Php.text_code, Php.text_code, Php.text_literal, Php.text_literal]
  rfl

/-- **The file of functions is the text of its tokens.** The program writes a text; here it is cut
into code, literals and the comment, so that it can be said what a reader should find. -/
theorem text_functionTokens (document : Document) :
    text (functionTokens document) = functionsFile document := by
  unfold functionTokens functionsFile
  simp only [Php.text_append, text_introTokens, text_hookedTokens, text_setupTokens,
    text_loadTokens, Php.text_code, String.append_assoc]

/-! ## What comes from a document -/

variable (document : Document)

/-- The names of functions begin with the slug, in which hyphens have become underscores. None of
these characters is a mark of the language. -/
theorem mem_functionPrefix {c : Char} (h : c ∈ (functionPrefix document.slug).toList) :
    Text.isSlugChar c = true ∨ c = '_' := by
  rw [functionPrefix, String.toList_ofList] at h
  obtain ⟨d, hd, rfl⟩ := List.mem_map.1 h
  split_ifs with hyphen
  · exact Or.inr rfl
  · exact Or.inl ((document.mem_slug.2 d hd).resolve_right hyphen)

/-- How the names of the functions end. -/
def nameEndings : List String := ["_setup", "_enqueue_styles", "_enqueue_editor_assets"]

/-- The names of the functions begin with the name of the theme. -/
theorem forall_mem_functionName :
    ∀ ending ∈ nameEndings,
      ∀ c ∈ (functionPrefix document.slug ++ ending).toList, Text.isSlugChar c = true ∨ c = '_' := by
  have hall : ∀ ending ∈ nameEndings, ∀ c ∈ ending.toList, Text.isSlugChar c = true ∨ c = '_' := by
    decide
  intro ending hending c hc
  rw [String.toList_append, List.mem_append] at hc
  exact hc.elim (mem_functionPrefix document) (hall ending hending c)

/-- A character of a function's name neither opens nor closes a literal or a comment. -/
theorem not_mem_marks {c : Char} (h : Text.isSlugChar c = true ∨ c = '_') : c ∉ Php.marks := by
  intro hmark
  have hmarks : ∀ c ∈ Php.marks, ¬(Text.isSlugChar c = true ∨ c = '_') := by decide
  exact hmarks c hmark h

/-- The comment with the slug: it has no slash of its own, so that nothing in it ends the comment.
-/
theorem regular_introTokens : ∀ token ∈ introTokens document.slug, token.Regular := by
  have hwords : '/' ∉ ("*\n" ++ " * Theme functions and definitions.\n" ++ " *\n" ++ " * @package "
      ++ document.slug ++ "\n" ++ " ").toList := by
    have hslug : '/' ∉ document.slug.toList := fun h => absurd (document.mem_slug.2 _ h) (by decide)
    have hfront : '/' ∉ ("*\n" ++ " * Theme functions and definitions.\n" ++ " *\n"
        ++ " * @package ").toList := by decide
    have hback : '/' ∉ ("\n" ++ " ").toList := by decide
    simp only [String.toList_append, List.mem_append, not_or] at hfront hback ⊢
    exact ⟨⟨⟨hfront, hslug⟩, hback.1⟩, hback.2⟩
  simp only [introTokens, List.forall_mem_append]
  exact ⟨⟨⟨⟨Php.regular_code (by decide), Php.regular_comment hwords⟩, Php.regular_code (by decide)⟩,
    Php.regular_literal _⟩, Php.regular_code (by decide)⟩

/-- Statements are regular if what they load is, the handle being in a literal. -/
theorem regular_enqueueTokens {handle : String} {source version : List Token}
    (hsource : ∀ token ∈ source, token.Regular) (hversion : ∀ token ∈ version, token.Regular) :
    ∀ token ∈ enqueueTokens handle source version, token.Regular := by
  simp only [enqueueTokens, List.forall_mem_append]
  exact ⟨⟨⟨⟨⟨⟨Php.regular_code (by decide), Php.regular_literal _⟩, Php.regular_code (by decide)⟩,
    hsource⟩, Php.regular_code (by decide)⟩, hversion⟩, Php.regular_code (by decide)⟩

/-- The statements for the fonts hold the address in a literal, and a literal may have any text. -/
theorem regular_loadTokens : ∀ token ∈ loadTokens document, token.Regular := by
  rw [loadTokens]
  refine List.forall_mem_append.2 ⟨?_, regular_enqueueTokens ?_ (Php.regular_literal _)⟩
  · cases document.tokens.fonts.url? with
    | none => exact List.forall_mem_nil _
    | some url => exact regular_enqueueTokens (Php.regular_literal _) (Php.regular_code (by decide))
  · exact List.forall_mem_append.2 ⟨Php.regular_code (by decide), Php.regular_literal _⟩

/-- The name of a function stands in code and not in a literal, which is why its characters matter.
-/
theorem regular_hookedTokens {event name : String} {body : List Token}
    (hname : ∀ c ∈ name.toList, Text.isSlugChar c = true ∨ c = '_')
    (hbody : ∀ token ∈ body, token.Regular) :
    ∀ token ∈ hookedTokens event name body, token.Regular := by
  have hhead : ∀ token ∈ headTokens name, token.Regular := by
    refine Php.regular_code ?_
    simp only [String.toList_append, List.forall_mem_append]
    exact ⟨by decide, fun c hc => not_mem_marks (hname c hc), by decide⟩
  simp only [hookedTokens, List.forall_mem_append]
  exact ⟨⟨⟨⟨⟨⟨⟨hhead, hbody⟩, Php.regular_code (by decide)⟩, Php.regular_code (by decide)⟩,
    Php.regular_literal _⟩, Php.regular_code (by decide)⟩, Php.regular_literal _⟩,
    Php.regular_code (by decide)⟩

theorem regular_setupTokens : ∀ token ∈ setupTokens, token.Regular := by
  simp only [setupTokens, List.forall_mem_append]
  exact ⟨⟨⟨⟨Php.regular_code (by decide), Php.regular_literal _⟩, Php.regular_code (by decide)⟩,
    Php.regular_literal _⟩, Php.regular_code (by decide)⟩

theorem regular_functionTokens : ∀ token ∈ functionTokens document, token.Regular := by
  have hnames := forall_mem_functionName document
  simp only [nameEndings, List.forall_mem_cons] at hnames
  obtain ⟨hsetup, hstyles, hassets, -⟩ := hnames
  simp only [functionTokens, List.forall_mem_append]
  exact ⟨⟨⟨⟨⟨regular_introTokens document, regular_hookedTokens hsetup regular_setupTokens⟩,
    Php.regular_code (by decide)⟩, regular_hookedTokens hstyles (regular_loadTokens document)⟩,
    Php.regular_code (by decide)⟩, regular_hookedTokens hassets (regular_loadTokens document)⟩

/-! ## Literals -/

/-- A text without apostrophes and backslashes stays in its literal. -/
theorem contained_of_forall {s : String}
    (h : ∀ c ∈ s.toList, Text.isSlugChar c = true ∨ c = '_' ∨ c = '-') :
    Contained apostrophe s.toList := by
  refine Php.contained_of_forall fun c hc => ⟨?_, ?_⟩
  · rintro rfl
    exact absurd (h _ hc) (by decide)
  · rintro rfl
    exact absurd (h _ hc) (by decide)

/-- A statement is sealed exactly if what it loads is: the handle is the slug and a word of the
program. -/
theorem sealed_enqueueTokens_iff {handle : String} (hhandle : Contained apostrophe handle.toList)
    {source version : List Token} :
    (∀ token ∈ enqueueTokens handle source version, token.Sealed)
      ↔ (∀ token ∈ source, token.Sealed) ∧ ∀ token ∈ version, token.Sealed := by
  simp only [enqueueTokens, List.forall_mem_append, Php.sealed_code_iff, Php.sealed_literal_iff,
    hhandle, true_and, and_true]

/-- A handle: the slug with letters and hyphens behind it. -/
theorem contained_handle {rest : String}
    (hrest : ∀ c ∈ rest.toList, Text.isSlugChar c = true ∨ c = '-') :
    Contained apostrophe (document.slug ++ rest).toList := by
  refine contained_of_forall fun c hc => ?_
  rw [String.toList_append, List.mem_append] at hc
  exact (hc.elim (document.mem_slug.2 c) (hrest c)).imp_right Or.inr

/-- Of the literals in the statements for stylesheets, the address of the fonts is the only one that
its text can end. -/
theorem sealed_loadTokens_iff :
    (∀ token ∈ loadTokens document, token.Sealed)
      ↔ ∀ url ∈ document.tokens.fonts.url?, Contained apostrophe url.toList := by
  have hcustom : Contained apostrophe (document.slug ++ "-custom").toList :=
    contained_handle document (by decide)
  have hfonts : Contained apostrophe (document.slug ++ "-google-fonts").toList :=
    contained_handle document (by decide)
  have hfile : Contained apostrophe "/assets/css/custom.css".toList := by decide
  have hversion : Contained apostrophe "1.0.0".toList := by decide
  simp only [loadTokens, List.forall_mem_append, sealed_enqueueTokens_iff hcustom,
    Php.sealed_code_iff, Php.sealed_literal_iff, hfile, hversion, and_true]
  cases document.tokens.fonts.url? with
  | none => simp
  | some url => simp [sealed_enqueueTokens_iff hfonts]

/-- A function is sealed exactly if its body is, as its name and the event are harmless. -/
theorem sealed_hookedTokens_iff {event name : String} (hevent : Contained apostrophe event.toList)
    (hname : ∀ c ∈ name.toList, Text.isSlugChar c = true ∨ c = '_') {body : List Token} :
    (∀ token ∈ hookedTokens event name body, token.Sealed) ↔ ∀ token ∈ body, token.Sealed := by
  have hcalled : Contained apostrophe name.toList :=
    contained_of_forall fun c hc => (hname c hc).imp_right Or.inl
  simp only [hookedTokens, headTokens, List.forall_mem_append, Php.sealed_code_iff,
    Php.sealed_literal_iff, hevent, hcalled, true_and, and_true]

/-- The whole file, in which the address of the fonts stands in two places. All other literals are
the program's, or hold a slug. -/
theorem sealed_functionTokens_iff :
    (∀ token ∈ functionTokens document, token.Sealed)
      ↔ ∀ url ∈ document.tokens.fonts.url?, Contained apostrophe url.toList := by
  have hnames := forall_mem_functionName document
  simp only [nameEndings, List.forall_mem_cons] at hnames
  obtain ⟨hsetup, hstyles, hassets, -⟩ := hnames
  -- the words of the program in literals
  have hevents : ∀ event ∈ ["ABSPATH", "wp-block-styles", "editor-styles", "after_setup_theme",
      "wp_enqueue_scripts", "enqueue_block_editor_assets"], Contained apostrophe event.toList := by
    decide
  simp only [List.forall_mem_cons] at hevents
  obtain ⟨habsolute, hblock, heditor, hafter, hscripts, hblocks, -⟩ := hevents
  simp only [functionTokens, introTokens, setupTokens, List.forall_mem_append, Php.sealed_code_iff,
    Php.sealed_comment_iff, Php.sealed_literal_iff, sealed_hookedTokens_iff hafter hsetup,
    sealed_hookedTokens_iff hscripts hstyles, sealed_hookedTokens_iff hblocks hassets,
    sealed_loadTokens_iff, habsolute, hblock, heditor, true_and, and_true, and_self]

end Theme

/-! ## Fonts -/

namespace Fonts

variable (fonts : Fonts)

/-- The font families that are given: for headings first, then for the body. -/
def families : List String := fonts.heading.toList ++ fonts.body.toList

/-- A family is asked for if it has a name, and once, even if headings and text have the same
family. -/
theorem mem_requests {asked : String} :
    asked ∈ fonts.requests ↔ ∃ family ∈ fonts.families, family ≠ "" ∧ request family = asked := by
  -- families without a name are left out before they are gathered
  have hfilled : ∀ family : Option String,
      family.toList.filter (· ≠ "") = ([family].filter Text.isFilled).filterMap id := by
    intro family
    cases family with
    | none => rfl
    | some name =>
      by_cases hname : name = ""
      · simp [Text.isFilled, hname]
      · simp [List.filter_cons, Text.isFilled, hname]
  have hgiven : ([fonts.heading, fonts.body].filter Text.isFilled).filterMap id
      = fonts.families.filter (· ≠ "") := by
    rw [families, List.filter_append, hfilled, hfilled, ← List.filterMap_append, ← List.filter_append]
    rfl
  rw [requests, Text.mem_distinct, hgiven]
  simp [and_assoc]

/-- A family is asked for with pluses for its spaces, which make no difference to a literal: neither
is a quote or a backslash. -/
theorem advanceAll_pluses (escaped : Bool) (s : List Char) :
    Php.advanceAll apostrophe escaped (s.map fun c => if c = ' ' then '+' else c)
      = Php.advanceAll apostrophe escaped s := by
  induction s generalizing escaped with
  | nil => rfl
  | cons c rest ih =>
    have hc : Php.advance apostrophe escaped (if c = ' ' then '+' else c)
        = Php.advance apostrophe escaped c := by
      split_ifs with hspace
      · rw [hspace]
        cases escaped <;> rfl
      · rfl
    rw [List.map_cons, Php.advanceAll_cons, Php.advanceAll_cons, hc]
    simp only [ih]

/-- What is asked for ends a literal exactly if the family does: a backslash at the end of the family
takes a character of what stands behind it. -/
theorem advanceAll_request (family : String) :
    Php.advanceAll apostrophe false (request family).toList
      = (Php.advanceAll apostrophe false family.toList).map fun _ => false := by
  have hfront : Php.advanceAll apostrophe false "family=".toList = some false := by decide
  have hback : ∀ escaped, Php.advanceAll apostrophe escaped ":wght@400;500;600;700".toList
      = some false := by decide
  rw [request, String.toList_append, String.toList_append, Php.advanceAll_append,
    Php.advanceAll_append, hfront, Option.bind_some, String.toList_ofList, advanceAll_pluses]
  cases Php.advanceAll apostrophe false family.toList with
  | none => rfl
  | some escaped => exact hback escaped

/-- A request either stays in its literal or breaks out: it is never left open, as it ends with more
than the family. -/
theorem contained_or_breaksOut_request (family : String) :
    Contained apostrophe (request family).toList ∨ BreaksOut apostrophe (request family).toList := by
  rw [Contained, BreaksOut, advanceAll_request]
  cases Php.advanceAll apostrophe false family.toList with
  | none => exact Or.inr rfl
  | some _ => exact Or.inl rfl

/-- Whether it breaks out is decided by the family in it. -/
theorem contained_request_iff (family : String) :
    Contained apostrophe (request family).toList ↔ ¬BreaksOut apostrophe family.toList := by
  rw [Contained, BreaksOut, advanceAll_request]
  cases Php.advanceAll apostrophe false family.toList with
  | none => simp
  | some _ => simp

/-- The address is held by its literal exactly if no family ends that. The families are put one
after the other into the address, with text of the program between them that ends in neither quote
nor backslash. -/
theorem contained_url_iff :
    (∀ url ∈ fonts.url?, Contained apostrophe url.toList)
      ↔ ∀ family ∈ fonts.families, ¬BreaksOut apostrophe family.toList := by
  have hrequests : (∀ asked ∈ fonts.requests, Contained apostrophe asked.toList)
      ↔ ∀ family ∈ fonts.families, ¬BreaksOut apostrophe family.toList := by
    constructor
    · intro h family hfamily hout
      have hfilled : family ≠ "" := by
        rintro rfl
        exact absurd hout (by decide)
      have hasked := h _ (fonts.mem_requests.2 ⟨family, hfamily, hfilled, rfl⟩)
      exact (contained_request_iff family).1 hasked hout
    · intro h asked hasked
      obtain ⟨family, hfamily, -, rfl⟩ := fonts.mem_requests.1 hasked
      exact (contained_request_iff family).2 (h family hfamily)
  -- no request leaves the literal in the middle of an escape, so that they can be looked at one by
  -- one
  have hsettled : ∀ asked ∈ fonts.requests.map String.toList,
      Contained apostrophe asked ∨ BreaksOut apostrophe asked := by
    rw [List.forall_mem_map]
    intro asked hasked
    obtain ⟨family, -, -, rfl⟩ := fonts.mem_requests.1 hasked
    exact contained_or_breaksOut_request family
  have hfront : Contained apostrophe "https://fonts.googleapis.com/css2?".toList := by decide
  have hjoin : Contained apostrophe "&".toList := by decide
  have hback : Contained apostrophe "&display=swap".toList := by decide
  -- the address is made of requests between a front and a back that the program gives
  rw [← hrequests, url?]
  generalize fonts.requests = requests at hsettled
  cases requests with
  | nil => simp
  | cons asked more =>
    simp only [Option.mem_some_iff, forall_eq']
    rw [String.toList_append, String.toList_append, String.toList_intercalate, List.append_assoc,
      Php.contained_append_iff (Or.inl hfront), Php.contained_intercalate_append_iff hjoin hsettled,
      List.forall_mem_map, iff_true_intro hfront, iff_true_intro hback, true_and, and_true]

end Fonts

/-- **The literals in the file of functions end where they should exactly if no font breaks out.**
All other texts in literals are the program's, or slugs. -/
theorem Theme.read_functionsFile_iff (document : Document) :
    (Theme.functionsFile document).toList = Php.writeAll (Theme.functionTokens document)
      ∧ (Php.read (Theme.functionsFile document).toList = Theme.functionTokens document
        ↔ ∀ family ∈ document.tokens.fonts.families, ¬BreaksOut apostrophe family.toList) := by
  have htext : (Theme.functionsFile document).toList = Php.writeAll (Theme.functionTokens document) := by
    rw [← Theme.text_functionTokens, Php.toList_text]
  refine ⟨htext, ?_⟩
  rw [htext, Php.read_writeAll_iff (Theme.regular_functionTokens document),
    Theme.sealed_functionTokens_iff, Fonts.contained_url_iff]

example : BreaksOut apostrophe "O'Hara".toList := by decide

end BlockTheme
