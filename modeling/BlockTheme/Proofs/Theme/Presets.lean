import BlockTheme.Proofs.Json.Texts
import BlockTheme.Proofs.Render.References
import BlockTheme.Proofs.Text.Margins
import BlockTheme.Proofs.Text.Marks
import BlockTheme.Theme.Settings

/-!
# The presets that a theme declares

The settings of a theme declare presets, and refer to them by the names of CSS variables. The
templates and the settings are made from the same design, and so every preset that a block refers to
is declared, and every one that the settings refer to, unless the design itself names it in one of its
colors or fonts (`Theme.presets_declared`).
-/

namespace BlockTheme

/-! ## Declarations -/

namespace Json

/-- The items of an array; none of anything else. -/
def items : Option Json → List Json
  | some (.array items) => items
  | _ => []

end Json

namespace Preset

/-- Where the settings of a theme declare the presets of a kind. -/
def path : PresetKind → List String
  | .color => ["settings", "color", "palette"]
  | .fontFamily => ["settings", "typography", "fontFamilies"]
  | .fontSize => ["settings", "typography", "fontSizes"]

/-- The slug of a preset among the settings. -/
def slug? (item : Json) : Option String :=
  match item.at? ["slug"] with
  | some (.string slug) => some slug
  | _ => none

/-- The slugs of the presets of a kind that settings declare. -/
def slugsIn (settings : Json) (kind : PresetKind) : List String :=
  (Json.items (settings.at? (path kind))).filterMap slug?

/-- A preset that settings declare. -/
def DeclaredIn (settings : Json) (preset : Preset) : Prop :=
  preset.slug ∈ slugsIn settings preset.kind

instance (settings : Json) (preset : Preset) : Decidable (preset.DeclaredIn settings) :=
  inferInstanceAs (Decidable (_ ∈ _))

end Preset

namespace Theme

variable (document : Document)

/-- The palette: four colors that every document has, and two that it may lack. -/
theorem slugsIn_color :
    Preset.slugsIn (settingsJson document) .color
      = ["primary", "secondary", "background", "foreground"]
        ++ (if Text.isFilled document.tokens.colors.accent then ["accent"] else [])
        ++ (if Text.isFilled document.tokens.colors.muted then ["muted"] else []) := by
  show (palette document.tokens.colors).filterMap Preset.slug? = _
  unfold palette
  cases Text.isFilled document.tokens.colors.accent <;>
    cases Text.isFilled document.tokens.colors.muted <;> rfl

theorem slugsIn_fontFamily :
    Preset.slugsIn (settingsJson document) .fontFamily
      = (if Text.isFilled document.tokens.fonts.heading then ["heading"] else [])
        ++ (if Text.isFilled document.tokens.fonts.body then ["body"] else []) := by
  unfold Preset.slugsIn settingsJson settings fontFamilies fontFamily
  cases Text.isFilled document.tokens.fonts.heading <;>
    cases Text.isFilled document.tokens.fonts.body <;> rfl

/-- The sizes are the program's and the same for all documents. -/
theorem slugsIn_fontSize :
    Preset.slugsIn (settingsJson document) .fontSize
      = ["small", "medium", "large", "x-large", "xx-large", "huge", "gigantic", "display"] := by
  unfold Preset.slugsIn settingsJson settings
  cases (fontFamilies document.tokens.fonts).isEmpty <;> rfl

/-- **A preset in use is declared.** A font is in use only if the document has it, and then it is
declared; colors in use and sizes always are. -/
theorem declaredIn_of_inUse {preset : Preset} (h : preset.InUse document.tokens) :
    preset.DeclaredIn (settingsJson document) := by
  cases h with
  | color h =>
    show _ ∈ Preset.slugsIn (settingsJson document) .color
    rw [slugsIn_color]
    have hslugs : ∀ slug ∈ ["primary", "secondary", "background"],
        slug ∈ ["primary", "secondary", "background", "foreground"] := by decide
    exact List.mem_append_left _ (List.mem_append_left _ (hslugs _ h))
  -- a font is in use only if the document has it, and then it is declared
  | headingFont h =>
    show _ ∈ Preset.slugsIn (settingsJson document) .fontFamily
    rw [slugsIn_fontFamily, if_pos h]
    exact List.mem_append_left _ (List.mem_singleton_self _)
  | bodyFont h =>
    show _ ∈ Preset.slugsIn (settingsJson document) .fontFamily
    rw [slugsIn_fontFamily, if_pos h]
    exact List.mem_append_right _ (List.mem_singleton_self _)
  | fontSize size =>
    show _ ∈ Preset.slugsIn (settingsJson document) .fontSize
    rw [slugsIn_fontSize]
    cases size <;> decide

end Theme

/-! ## Variables -/

namespace Preset

/-- What the variables of presets begin with. -/
def variableStart : List Char := "var(--wp--preset--".toList

/-- Letters and digits of ASCII, hyphens and underscores can stand in the name of a variable. -/
def isNameChar (c : Char) : Bool := c.isAlphanum || c == '-' || c == '_'

/-- The names of the presets whose variables stand in a text. -/
def namesIn : List Char → List (List Char)
  | [] => []
  | c :: rest =>
    match Text.dropStart? variableStart (c :: rest) with
    | some after => after.takeWhile isNameChar :: namesIn rest
    | none => namesIn rest

/-- The name of a preset in its variable. -/
def name : Preset → String
  | ⟨.color, slug⟩ => "color--" ++ slug
  | ⟨.fontFamily, slug⟩ => "font-family--" ++ slug
  | ⟨.fontSize, slug⟩ => "font-size--" ++ slug

/-- A text without an opening bracket names no preset. -/
theorem namesIn_of_not_mem {text : List Char} (h : '(' ∉ text) : namesIn text = [] := by
  induction text with
  | nil => rfl
  | cons c rest ih =>
    have hbracket : '(' ∈ variableStart := by decide
    have hnone : Text.dropStart? variableStart (c :: rest) = none :=
      Text.dropStart?_eq_none.2 fun hstarts => h (hstarts.subset hbracket)
    rw [namesIn, hnone]
    exact ih fun hmem => h (List.mem_cons_of_mem _ hmem)

/-- A character that no variable holds ends the text, as far as its names are concerned. So names
are found part by part. -/
theorem namesIn_append {rest : List Char} {c : Char} (hc : c ∉ variableStart)
    (hname : isNameChar c = false) (hrest : '(' ∉ c :: rest) (text : List Char) :
    namesIn (text ++ c :: rest) = namesIn text := by
  have hends : ∀ d ∈ (c :: rest).head?, isNameChar d = false := by simpa using hname
  induction text with
  | nil => exact namesIn_of_not_mem hrest
  | cons d text ih =>
    rw [List.cons_append, namesIn, namesIn, ih, ← List.cons_append]
    -- a variable that starts here ends before the character, so it is found in both texts or in
    -- neither
    cases hdrop : Text.dropStart? variableStart (d :: text) with
    | none =>
      have hnone : Text.dropStart? variableStart (d :: text ++ c :: rest) = none := by
        rw [Text.dropStart?_eq_none, Text.prefix_append_cons hc, ← Text.dropStart?_eq_none, hdrop]
      rw [hnone]
    | some after =>
      have hsome : Text.dropStart? variableStart (d :: text ++ c :: rest)
          = some (after ++ c :: rest) := by
        rw [Text.dropStart?_eq_some, Text.dropStart?_eq_some.1 hdrop, List.append_assoc]
      rw [hsome]
      simp only [Text.takeWhile_append hends]

end Preset

/-- The colors and fonts that a design may lack. -/
def Tokens.optional (tokens : Tokens) : List (Option String) :=
  [tokens.colors.accent, tokens.colors.muted, tokens.fonts.heading, tokens.fonts.body]

/-- The colors and fonts of a design, as its document gives them. -/
def Tokens.texts (tokens : Tokens) : List String :=
  [tokens.colors.primary, tokens.colors.secondary, tokens.colors.background,
    tokens.colors.foreground] ++ tokens.optional.filterMap id

namespace Theme

variable (document : Document)

/-- The name of a preset that is declared, or one that a color or a font of the document names. -/
def Accounted (name : List Char) : Prop :=
  (∃ preset : Preset, preset.DeclaredIn (settingsJson document) ∧ name = preset.name.toList)
    ∨ ∃ own ∈ document.tokens.texts, name ∈ Preset.namesIn own.toList

/-- A value in whose texts all names are accounted for. -/
def AccountedIn (v : Json) : Prop :=
  ∀ text ∈ v.texts, ∀ name ∈ Preset.namesIn text.toList, Accounted document name

variable {document}

/-- Values in which no text has an opening bracket name nothing. Most of the settings are such
values. -/
theorem accountedIn_of_plain {v : Json} (h : ∀ text ∈ v.texts, '(' ∉ text.toList) :
    AccountedIn document v := by
  intro text htext name hname
  rw [Preset.namesIn_of_not_mem (h text htext)] at hname
  exact absurd hname List.not_mem_nil

/-- An object is accounted for if its values are; keys are not looked at. -/
theorem accountedIn_object {members : Fields}
    (h : ∀ member ∈ members, AccountedIn document member.2) :
    AccountedIn document (.object members) := by
  intro text htext
  rw [Json.texts_object, Fields.mem_texts] at htext
  obtain ⟨member, hmember, hin⟩ := htext
  exact h member hmember text hin

theorem accountedIn_array {items : List Json} (h : ∀ item ∈ items, AccountedIn document item) :
    AccountedIn document (.array items) := by
  intro text htext
  obtain ⟨item, hitem, hin⟩ := Json.mem_texts_array.1 htext
  exact h item hitem text hin

/-- A color or a font that is taken over as it is may name presets: these are names that the
document gives itself, and so they are accounted for. -/
theorem accountedIn_own {own : String} (h : own ∈ document.tokens.texts) :
    AccountedIn document (.string own) := by
  intro text htext name hname
  obtain rfl := List.mem_singleton.1 htext
  exact Or.inr ⟨text, h, hname⟩

/-- A text that is the variable of a preset in use. -/
theorem accountedIn_variable {preset : Preset} (h : preset.InUse document.tokens) {text : String}
    (htext : Preset.namesIn text.toList = [preset.name.toList]) :
    AccountedIn document (.string text) := by
  intro found hfound name hname
  obtain rfl := List.mem_singleton.1 hfound
  rw [htext, List.mem_singleton] at hname
  exact Or.inl ⟨preset, declaredIn_of_inUse document h, hname⟩

theorem accountedIn_string {s : String} (h : '(' ∉ s.toList) : AccountedIn document (.string s) :=
  accountedIn_of_plain (List.forall_mem_singleton.2 h)

/-- A color of the palette: its slug and its name are the program's, the color is the document's. -/
theorem accountedIn_paletteColor {slug color name : String} (hslug : '(' ∉ slug.toList)
    (hcolor : color ∈ document.tokens.texts) (hname : '(' ∉ name.toList) :
    AccountedIn document (paletteColor slug color name) := by
  refine accountedIn_object ?_
  simp only [List.forall_mem_cons]
  exact ⟨accountedIn_string hslug, accountedIn_own hcolor, accountedIn_string hname,
    List.forall_mem_nil _⟩

variable (document)

/-- A color or a font that is given is one of the texts of the design. -/
theorem mem_texts_of_isFilled {own : Option String} (hown : own ∈ document.tokens.optional)
    (h : Text.isFilled own = true) : own.getD "" ∈ document.tokens.texts := by
  cases own with
  | none => exact absurd h (by decide)
  | some s => exact List.mem_append_right _ (List.mem_filterMap.2 ⟨some s, hown, rfl⟩)

/-- All colors of the palette, those that may be missing included. A color is a text of the
document, and may refer to whatever it likes. -/
theorem accountedIn_palette : AccountedIn document (.array (palette document.tokens.colors)) := by
  have hgiven : ∀ own ∈ [document.tokens.colors.primary, document.tokens.colors.secondary,
      document.tokens.colors.background, document.tokens.colors.foreground],
      own ∈ document.tokens.texts :=
    fun own hown => List.mem_append_left _ hown
  simp only [List.forall_mem_cons] at hgiven
  obtain ⟨hprimary, hsecondary, hbackground, hforeground, -⟩ := hgiven
  refine accountedIn_array ?_
  simp only [palette, List.forall_mem_append, List.forall_mem_cons]
  -- the four colors that are always there, then the two that may not be
  refine ⟨⟨⟨accountedIn_paletteColor (by decide) hprimary (by decide),
    accountedIn_paletteColor (by decide) hsecondary (by decide),
    accountedIn_paletteColor (by decide) hbackground (by decide),
    accountedIn_paletteColor (by decide) hforeground (by decide), List.forall_mem_nil _⟩, ?_⟩, ?_⟩
  · split
    · next hfilled =>
      have haccent := mem_texts_of_isFilled document (by simp [Tokens.optional]) hfilled
      exact List.forall_mem_singleton.2 (accountedIn_paletteColor (by decide) haccent (by decide))
    · exact List.forall_mem_nil _
  · split
    · next hfilled =>
      have hmuted := mem_texts_of_isFilled document (by simp [Tokens.optional]) hfilled
      exact List.forall_mem_singleton.2 (accountedIn_paletteColor (by decide) hmuted (by decide))
    · exact List.forall_mem_nil _

/-- What stands behind a font in its family names no preset, so that only the font itself could
bring one in. -/
theorem accountedIn_fontFamily {slug name : String} {font : Option String}
    (hslug : '(' ∉ slug.toList) (hname : '(' ∉ name.toList)
    (hfont : font ∈ document.tokens.optional) :
    ∀ item ∈ fontFamily slug name font, AccountedIn document item := by
  unfold fontFamily
  split
  · next hfilled =>
    have hnames : Preset.namesIn (font.getD "" ++ ", sans-serif").toList
        = Preset.namesIn (font.getD "").toList := by
      rw [String.toList_append]
      show Preset.namesIn (_ ++ ',' :: " sans-serif".toList) = _
      exact Preset.namesIn_append (by decide) (by decide) (by decide) _
    -- what stands behind the font starts with a comma, at which no name goes on
    have hfamily : AccountedIn document (.string (font.getD "" ++ ", sans-serif")) := by
      intro text htext name hname
      obtain rfl := List.mem_singleton.1 htext
      rw [hnames] at hname
      exact Or.inr ⟨_, mem_texts_of_isFilled document hfont hfilled, hname⟩
    refine List.forall_mem_singleton.2 (accountedIn_object ?_)
    simp only [List.forall_mem_cons]
    exact ⟨hfamily, accountedIn_string hslug, accountedIn_string hname, List.forall_mem_nil _⟩
  · exact List.forall_mem_nil _

/-- A member that is there on a condition has to be accounted for only if it is. -/
theorem accountedIn_memberIf {condition : Bool} {key : String} {v : Json}
    (h : condition = true → AccountedIn document v) :
    ∀ member ∈ memberIf condition key v, AccountedIn document member.2 := by
  unfold memberIf
  split
  · next hcondition => exact List.forall_mem_singleton.2 (h hcondition)
  · exact List.forall_mem_nil _

/-- The part of the settings in which presets are declared. Other parts refer to them, and here at
most the texts of the document do. -/
theorem accountedIn_settings : AccountedIn document (settings document.tokens) := by
  have hfamilies : AccountedIn document (.array (fontFamilies document.tokens.fonts)) := by
    refine accountedIn_array (List.forall_mem_append.2 ⟨?_, ?_⟩)
    · exact accountedIn_fontFamily document (by decide) (by decide) (by simp [Tokens.optional])
    · exact accountedIn_fontFamily document (by decide) (by decide) (by simp [Tokens.optional])
  -- what the theme has fixed holds no reference at all
  have hsizes : AccountedIn document (.array fontSizes) := accountedIn_of_plain (by decide)
  have hpalette : AccountedIn document (.object
      [("palette", .array (palette document.tokens.colors)), ("defaultPalette", .bool false)]) := by
    refine accountedIn_object ?_
    simp only [List.forall_mem_cons]
    exact ⟨accountedIn_palette document, accountedIn_of_plain (by decide), List.forall_mem_nil _⟩
  refine accountedIn_object ?_
  simp only [List.forall_mem_cons]
  refine ⟨hpalette, accountedIn_object (List.forall_mem_append.2 ⟨?_, ?_⟩),
    accountedIn_of_plain (by decide), accountedIn_of_plain (by decide),
    accountedIn_of_plain (by decide), List.forall_mem_nil _⟩
  · exact accountedIn_memberIf document fun _ => hfamilies
  · exact List.forall_mem_singleton.2 hsizes

/-- The primary color is always declared, so that its variable may stand anywhere. -/
theorem accountedIn_primaryColor :
    AccountedIn document (.string "var(--wp--preset--color--primary)") :=
  accountedIn_variable (.color List.mem_cons_self) (by decide)

theorem accountedIn_buttonStyle (radius : Option Radius) :
    AccountedIn document (buttonStyle radius) := by
  have hlength : ∀ r : Radius, '(' ∉ r.length.toList := by
    intro r
    cases r <;> decide
  refine accountedIn_object (List.forall_mem_append.2 ⟨?_, ?_⟩)
  · refine List.forall_mem_singleton.2 (accountedIn_object ?_)
    simp only [List.forall_mem_cons]
    exact ⟨accountedIn_primaryColor document, accountedIn_string (by decide), List.forall_mem_nil _⟩
  · cases radius with
    | none => exact List.forall_mem_nil _
    | some r =>
      refine List.forall_mem_singleton.2 (accountedIn_object (List.forall_mem_singleton.2 ?_))
      exact accountedIn_string (hlength r)

/-- The font for a role, which stands in the settings only if the document has it. -/
theorem accountedIn_typographyIn {role : String} (h : Preset.InUse document.tokens ⟨.fontFamily, role⟩)
    (hrole : Preset.namesIn ("var(--wp--preset--font-family--" ++ role ++ ")").toList
      = [("font-family--" ++ role).toList]) : AccountedIn document (typographyIn role) :=
  accountedIn_object (List.forall_mem_singleton.2 (accountedIn_variable h hrole))

/-- The part of the settings that refers to presets: colors, fonts of text and headings, buttons,
links. -/
theorem accountedIn_styles : AccountedIn document (styles document.tokens) := by
  have hcolor : AccountedIn document (.object
      [("background", .string document.tokens.colors.background),
        ("text", .string document.tokens.colors.foreground)]) := by
    refine accountedIn_object ?_
    simp only [List.forall_mem_cons]
    exact ⟨accountedIn_own (by simp [Tokens.texts]), accountedIn_own (by simp [Tokens.texts]),
      List.forall_mem_nil _⟩
  have hlink : AccountedIn document (.object
      [("color", .object [("text", .string "var(--wp--preset--color--primary)")])]) :=
    accountedIn_object (List.forall_mem_singleton.2 (accountedIn_object
      (List.forall_mem_singleton.2 (accountedIn_primaryColor document))))
  refine accountedIn_object (List.forall_mem_append.2 ⟨List.forall_mem_append.2 ⟨?_, ?_⟩, ?_⟩)
  · exact List.forall_mem_singleton.2 hcolor
  · exact accountedIn_memberIf document fun hfilled =>
      accountedIn_typographyIn document (.bodyFont hfilled) (by decide)
  · refine List.forall_mem_singleton.2 (accountedIn_object (List.forall_mem_append.2 ⟨?_, ?_⟩))
    -- the style of headings is left out along with their font
    · refine accountedIn_memberIf document fun hfilled => ?_
      exact accountedIn_object (List.forall_mem_singleton.2
        (accountedIn_typographyIn document (.headingFont hfilled) (by decide)))
    · simp only [List.forall_mem_cons]
      exact ⟨accountedIn_buttonStyle document _, hlink, List.forall_mem_nil _⟩

/-- **Every name in the settings of a theme is accounted for.** From its two halves, in which
presets are declared and referred to. -/
theorem accountedIn_settingsJson : AccountedIn document (settingsJson document) := by
  have hparts : AccountedIn document (.array (parts document)) := by
    refine accountedIn_of_plain ?_
    unfold parts
    cases document.header.isSome <;> cases document.footer.isSome <;> decide
  refine accountedIn_object ?_
  simp only [List.forall_mem_cons]
  exact ⟨accountedIn_string (by decide), accountedIn_of_plain (by decide),
    accountedIn_settings document, accountedIn_styles document, hparts, List.forall_mem_nil _⟩

/-- **No reference to a preset is left open.** What a block in the templates of a document refers to
is a preset that the settings of the theme declare; and so is what the texts of the settings refer to
as variables, as far as no color or font of the document brings it in. -/
theorem presets_declared :
    (∀ template ∈ document.templates.written, ∀ head ∈ Markup.headsAll template.1,
        ∀ kind v, head.RefersTo kind v →
          ∃ slug, v = .string slug ∧ Preset.DeclaredIn (settingsJson document) ⟨kind, slug⟩)
      ∧ ∀ text ∈ (settingsJson document).texts, ∀ name ∈ Preset.namesIn text.toList,
        (∃ preset : Preset, preset.DeclaredIn (settingsJson document) ∧ name = preset.name.toList)
          ∨ ∃ own ∈ document.tokens.texts, name ∈ Preset.namesIn own.toList := by
  refine ⟨?_, accountedIn_settingsJson document⟩
  intro template htemplate head hhead kind v hrefers
  obtain ⟨slug, rfl, hslug⟩ :=
    (document.refers_templates template htemplate head hhead).exists_slug hrefers
  exact ⟨slug, rfl, declaredIn_of_inUse document hslug⟩

/-- A document whose muted color is the variable of a preset of some other theme. -/
def brandDocument : Document where
  metadata := ⟨"T", none, none⟩
  tokens :=
    { colors :=
        { primary := "#0055ff", secondary := "#222222", background := "#ffffff"
          foreground := "#111111", muted := some "var(--wp--preset--color--brand)" } }
  header := none
  body := [⟨"generic", ⟨.constrained, none, none, none, none⟩, [], none, none, none, none⟩]
  footer := none
  stylesheet := none

/-- The colors of a document are taken over as they are, so that a variable in one of them may name a
preset that the theme does not declare. -/
theorem not_presets_declared_brand :
    ¬∀ text ∈ (settingsJson brandDocument).texts, ∀ name ∈ Preset.namesIn text.toList,
      ∃ preset : Preset, preset.DeclaredIn (settingsJson brandDocument)
        ∧ name = preset.name.toList := by
  have htext : "var(--wp--preset--color--brand)" ∈ (settingsJson brandDocument).texts := by decide
  have hname : "color--brand".toList
      ∈ Preset.namesIn "var(--wp--preset--color--brand)".toList := by decide
  have hother : ∀ kind, ∀ slug ∈ Preset.slugsIn (settingsJson brandDocument) kind,
      "color--brand".toList ≠ (Preset.name ⟨kind, slug⟩).toList := by
    intro kind
    cases kind <;> decide
  intro h
  obtain ⟨⟨kind, slug⟩, hdeclared, hsame⟩ := h _ htext _ hname
  exact hother kind slug hdeclared hsame

end Theme

end BlockTheme
