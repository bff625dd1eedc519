import BlockTheme.Proofs.Php.Functions
import BlockTheme.Proofs.Theme.Functions

/-!
# The names of a theme's functions

The file of functions declares three functions, whose names begin with the name of the theme. Their
letters are those of identifiers, but nothing keeps a digit from the first place.
-/

namespace BlockTheme

open Php (Token Contained BreaksOut Silent code literal comment codeOf declaredIn IsIdentifier)
open Text.Quoted (apostrophe)

namespace Theme

/-! ## Characters -/

theorem isAlpha_iff {c : Char} : c.isAlpha = true ↔ c.isUpper = true ∨ c.isLower = true := by
  show (c.isUpper || c.isLower) = true ↔ _
  rw [Bool.or_eq_true]

theorem isAlphanum_of_isSlugChar {c : Char} (h : Text.isSlugChar c = true) :
    c.isAlphanum = true := by
  rw [Char.isAlphanum, Bool.or_eq_true, isAlpha_iff]
  rcases Text.isSlugChar_iff.1 h with hdigit | hlower
  · exact Or.inr hdigit
  · exact Or.inl (Or.inr hlower)

/-- The name of a function has no blanks and no brackets, so that a reader finds where it ends. -/
theorem not_isBlank_of_mem {name : List Char} (hname : ∀ c ∈ name, Text.isSlugChar c = true ∨ c = '_') :
    ∀ c ∈ name, Text.isBlank c = false ∧ c ≠ '(' := by
  intro c hc
  rcases hname c hc with hslug | rfl
  · refine ⟨Text.not_isBlank_of_isSlugChar hslug, ?_⟩
    rintro rfl
    exact absurd hslug (by decide)
  · decide

theorem not_isAlpha_of_isDigit {c : Char} (h : c.isDigit = true) : ¬(c.isAlpha = true ∨ c = '_') := by
  have hdigit := Text.range_of_isDigit h
  rintro (halpha | rfl)
  · have hletter := (isAlpha_iff.1 halpha).imp Text.range_of_isUpper Text.range_of_isLower
    omega
  · exact absurd h (by decide)

/-! ## Names -/

variable (document : Document)

/-- The names of the functions that a theme declares. -/
def functionNames : List String := nameEndings.map (functionPrefix document.slug ++ ·)

/-- A name is an identifier exactly if the name of the theme begins with no digit. All its other
characters are letters, digits and underscores, since dashes have been replaced. -/
theorem isIdentifier_functionName_iff {ending : String} (hending : ending ∈ nameEndings) :
    IsIdentifier (functionPrefix document.slug ++ ending).toList
      ↔ Text.startsWith Char.isDigit document.slug.toList = false := by
  have hchars := forall_mem_functionName document ending hending
  obtain ⟨hempty, hslug⟩ := document.mem_slug
  have hwritten : (functionPrefix document.slug).toList
      = document.slug.toList.map fun c => if c = '-' then '_' else c := String.toList_ofList
  rw [String.toList_append] at hchars ⊢
  have hrest : ∀ c ∈ (functionPrefix document.slug).toList ++ ending.toList,
      c.isAlphanum = true ∨ c = '_' := fun c hc => (hchars c hc).imp_left isAlphanum_of_isSlugChar
  cases hletters : document.slug.toList with
  | nil => exact absurd (String.toList_eq_nil_iff.1 hletters) hempty
  | cons c rest =>
    rw [hletters] at hwritten hslug
    -- all depends on the first character, as the others may stand in a name anyway
    have hhead : ((functionPrefix document.slug).toList ++ ending.toList).head?
        = some (if c = '-' then '_' else c) := by
      rw [hwritten, List.map_cons, List.cons_append, List.head?_cons]
    simp only [IsIdentifier, hhead, iff_true_intro hrest, and_true, Option.mem_some_iff,
      exists_eq_left', Text.startsWith]
    by_cases hdigit : c.isDigit = true
    · have hyphen : c ≠ '-' := by
        rintro rfl
        exact absurd hdigit (by decide)
      rw [if_neg hyphen, hdigit]
      exact iff_of_false (not_isAlpha_of_isDigit hdigit) (by decide)
    -- a hyphen has become an underscore, and everything else is a letter
    · refine iff_of_true ?_ (by simpa using hdigit)
      split_ifs with hyphen
      · exact Or.inr rfl
      · have hc := (hslug c List.mem_cons_self).resolve_right hyphen
        have hlower : c.isLower = true := (Text.isSlugChar_iff.1 hc).resolve_left hdigit
        exact Or.inl (isAlpha_iff.2 (Or.inr hlower))

/-- All names are identifiers unless the slug begins with a digit: they begin as it does. -/
theorem forall_isIdentifier_iff :
    (∀ name ∈ (functionNames document).map String.toList, IsIdentifier name)
      ↔ Text.startsWith Char.isDigit document.slug.toList = false := by
  simp only [functionNames, List.forall_mem_map]
  have hfirst : "_setup" ∈ nameEndings := List.mem_cons_self
  constructor
  · intro h
    exact (isIdentifier_functionName_iff document hfirst).1 (h "_setup" hfirst)
  · intro hdigit ending hending
    exact (isIdentifier_functionName_iff document hending).2 hdigit

/-! ## Code -/

theorem codeOf_enqueueTokens (handle : String) (source version : List Token) :
    codeOf (enqueueTokens handle source version)
      = "\twp_enqueue_style( ".toList ++ ([' '] ++ (", ".toList ++ (codeOf source
        ++ (", array(), ".toList ++ (codeOf version ++ " );\n".toList))))) := by
  simp only [enqueueTokens, Php.codeOf_append, Php.codeOf_code, Php.codeOf_literal, List.append_assoc]

/-- The body of the first function declares nothing. -/
theorem silent_setupTokens : Silent (codeOf setupTokens) := by
  decide

/-- The statements that load stylesheets declare no function, whatever is in the address: it stands
in a literal, and literals are passed over. -/
theorem silent_loadTokens : Silent (codeOf (loadTokens document)) := by
  have hcustom : Silent (codeOf (enqueueTokens (document.slug ++ "-custom")
      (code "get_template_directory_uri() . " ++ literal "/assets/css/custom.css")
      (literal "1.0.0"))) := by
    rw [codeOf_enqueueTokens]
    decide
  rw [loadTokens, Php.codeOf_append]
  cases document.tokens.fonts.url? with
  | none => exact hcustom
  | some url =>
    refine Silent.append ?_ hcustom
    rw [codeOf_enqueueTokens, Php.codeOf_literal]
    decide

theorem codeOf_headTokens (name : String) :
    codeOf (headTokens name) = "function ".toList ++ (name.toList ++ "() \x7b\n".toList) := by
  rw [headTokens, Php.codeOf_code, String.toList_append, String.toList_append]

/-- A function declares its name, and nothing else if its body declares nothing. The name may begin
with a digit here; that it is no identifier then is another matter. -/
theorem declaredIn_hookedTokens {event name : String} {body : List Token}
    (hname : ∀ c ∈ name.toList, Text.isSlugChar c = true ∨ c = '_') (hbody : Silent (codeOf body))
    (rest : List Char) :
    declaredIn (codeOf (hookedTokens event name body) ++ rest) = name.toList :: declaredIn rest := by
  have hcode : codeOf (hookedTokens event name body)
      = "function ".toList ++ (name.toList ++ ("() \x7b\n".toList
        ++ (codeOf body ++ "\x7d\nadd_action(  ,   );\n".toList))) := by
    simp only [hookedTokens, Php.codeOf_append, codeOf_headTokens, List.append_assoc]
    rfl
  have htail : Silent "\x7d\nadd_action(  ,   );\n".toList := by decide
  simp only [hcode, List.append_assoc]
  rw [Php.declaredIn_head (not_isBlank_of_mem hname), Php.declaredIn_silent_append hbody,
    Php.declaredIn_silent_append htail]

/-- The first lines declare no function, as the slug stands in a comment there. -/
theorem silent_introTokens : Silent (codeOf (introTokens document.slug)) := by
  simp only [introTokens, Php.codeOf_append, Php.codeOf_code, Php.codeOf_comment,
    Php.codeOf_literal]
  decide

/-- The file declares the three functions, and no other: outside of literals and comments the
keyword stands in front of these only. -/
theorem declaredIn_functionTokens :
    declaredIn (codeOf (functionTokens document)) = (functionNames document).map String.toList := by
  have hnames := forall_mem_functionName document
  simp only [nameEndings, List.forall_mem_cons] at hnames
  obtain ⟨hsetup, hstyles, hassets, -⟩ := hnames
  have hline : Silent (codeOf (code "\n")) := by decide
  have hload := silent_loadTokens document
  rw [functionTokens]
  simp only [Php.codeOf_append, List.append_assoc]
  rw [Php.declaredIn_silent_append (silent_introTokens document),
    declaredIn_hookedTokens hsetup silent_setupTokens, Php.declaredIn_silent_append hline,
    declaredIn_hookedTokens hstyles hload, Php.declaredIn_silent_append hline,
    ← List.append_nil (codeOf (hookedTokens _ _ _)), declaredIn_hookedTokens hassets hload]
  rfl

/-- Whatever the fonts are, the first function that is declared is the first that was written: no
font stands before it. -/
theorem exists_declared_functionsFile :
    ∃ more, Php.declared (functionsFile document).toList
      = (functionPrefix document.slug ++ "_setup").toList :: more := by
  -- only the start of the file matters: what comes before the first function, and its head
  obtain ⟨rest, hrest⟩ : ∃ rest, functionTokens document
      = (introTokens document.slug ++ headTokens (functionPrefix document.slug ++ "_setup"))
        ++ rest := by
    simp only [functionTokens, hookedTokens, List.append_assoc]
    exact ⟨_, rfl⟩
  have hregular : ∀ token ∈ introTokens document.slug
      ++ headTokens (functionPrefix document.slug ++ "_setup"), token.Regular := by
    intro token htoken
    refine regular_functionTokens document token ?_
    rw [hrest]
    exact List.mem_append_left _ htoken
  -- no comment and no literal is open where the head begins
  have hsealed : ∀ token ∈ introTokens document.slug
      ++ headTokens (functionPrefix document.slug ++ "_setup"), token.Sealed := by
    have habsolute : Contained apostrophe "ABSPATH".toList := by decide
    simp only [introTokens, headTokens, List.forall_mem_append, Php.sealed_code_iff,
      Php.sealed_comment_iff, Php.sealed_literal_iff, habsolute, and_self]
  have hname := forall_mem_functionName document "_setup" List.mem_cons_self
  -- so the scanner sees the head as code, and the head declares the name
  rw [← text_functionTokens, Php.toList_text, hrest, Php.writeAll_append, Php.declared,
    Php.read_writeAll_append hregular hsealed, Php.codeOf_append, Php.codeOf_append,
    codeOf_headTokens]
  simp only [List.append_assoc]
  rw [Php.declaredIn_silent_append (silent_introTokens document),
    Php.declaredIn_head (not_isBlank_of_mem hname)]
  exact ⟨_, rfl⟩

/-- **The functions that the file declares are the three that were written, unless a font breaks out
of its literal; and their names are identifiers exactly if the name of the theme begins with no
digit.** With a digit, the file declares a function without a proper name whatever the fonts are. -/
theorem declared_functionsFile :
    (Text.startsWith Char.isDigit document.slug.toList = true →
        ∃ name ∈ Php.declared (functionsFile document).toList, ¬IsIdentifier name)
      ∧ ((∀ family ∈ document.tokens.fonts.families, ¬BreaksOut apostrophe family.toList) →
        Php.declared (functionsFile document).toList
            = (functionNames document).map String.toList
          ∧ ((∀ name ∈ Php.declared (functionsFile document).toList, IsIdentifier name)
            ↔ Text.startsWith Char.isDigit document.slug.toList = false)) := by
  constructor
  -- the first name is declared whatever the fonts are, since it stands in front of them
  · intro hdigit
    obtain ⟨more, hdeclared⟩ := exists_declared_functionsFile document
    refine ⟨_, hdeclared ▸ List.mem_cons_self, ?_⟩
    rw [isIdentifier_functionName_iff document List.mem_cons_self, hdigit]
    decide
  -- with these fonts the scanner sees the whole file as it was meant
  · intro hfonts
    have hread := (read_functionsFile_iff document).2.2 hfonts
    have hdeclared : Php.declared (functionsFile document).toList
        = (functionNames document).map String.toList := by
      rw [Php.declared, hread, declaredIn_functionTokens]
    refine ⟨hdeclared, ?_⟩
    rw [hdeclared]
    exact forall_isIdentifier_iff document

/-- A document with a title and one empty section. -/
def titledDocument (title : String) : Document where
  metadata := ⟨title, none, none⟩
  tokens :=
    { colors :=
        { primary := "#0055ff", secondary := "#222222", background := "#ffffff"
          foreground := "#111111" } }
  header := none
  body := [⟨"generic", ⟨.constrained, none, none, none, none⟩, [], none, none, none, none⟩]
  footer := none
  stylesheet := none

theorem slug_report : (titledDocument "2024 Report").slug = "2024-report" := by
  decide +kernel

/-- A title that begins with a year gives its functions no proper names. -/
theorem declared_functionsFile_report :
    Text.startsWith Char.isDigit (titledDocument "2024 Report").slug.toList = true
      ∧ (∀ family ∈ (titledDocument "2024 Report").tokens.fonts.families,
        ¬BreaksOut apostrophe family.toList)
      ∧ Php.declared (functionsFile (titledDocument "2024 Report")).toList
        = ["2024_report_setup".toList, "2024_report_enqueue_styles".toList,
          "2024_report_enqueue_editor_assets".toList]
      ∧ ∃ name ∈ Php.declared (functionsFile (titledDocument "2024 Report")).toList,
        ¬IsIdentifier name := by
  have hdigit : Text.startsWith Char.isDigit (titledDocument "2024 Report").slug.toList = true := by
    rw [slug_report]
    decide
  -- the document names no font
  have hfonts : ∀ family ∈ (titledDocument "2024 Report").tokens.fonts.families,
      ¬BreaksOut apostrophe family.toList := List.forall_mem_nil _
  have hnames : (functionNames (titledDocument "2024 Report")).map String.toList
      = ["2024_report_setup".toList, "2024_report_enqueue_styles".toList,
        "2024_report_enqueue_editor_assets".toList] := by
    rw [functionNames, slug_report]
    decide
  obtain ⟨hreject, hdeclared⟩ := declared_functionsFile (titledDocument "2024 Report")
  exact ⟨hdigit, hfonts, (hdeclared hfonts).1.trans hnames, hreject hdigit⟩

end Theme

end BlockTheme
