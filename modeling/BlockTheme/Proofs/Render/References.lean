import BlockTheme.Proofs.Render.Heads

/-!
# The presets that blocks refer to

Some attributes of blocks hold the slug of a preset: a color of the palette, a font family or a font
size. The templates of a document refer to few presets (`Preset.InUse`), which its design decides,
and to no others (`Document.refers_templates`).
-/

namespace BlockTheme

open Markup (Head heads headsAll)

/-- What a preset is for. -/
inductive PresetKind where
  | color | fontFamily | fontSize
  deriving DecidableEq, Repr

/-- A preset is what settings declare under a slug. -/
structure Preset where
  kind : PresetKind
  slug : String
  deriving DecidableEq, Repr

namespace Preset

/-- The attributes of blocks that refer to presets. -/
def attributeKeys : List (String × PresetKind) :=
  [("fontFamily", .fontFamily), ("fontSize", .fontSize), ("backgroundColor", .color),
    ("textColor", .color)]

/-- The presets that the blocks of a design refer to. A font family is there for a font that is
given. -/
inductive InUse (tokens : Tokens) : Preset → Prop
  | color {slug : String} (h : slug ∈ ["primary", "secondary", "background"]) :
      InUse tokens ⟨.color, slug⟩
  | headingFont (h : Text.isFilled tokens.fonts.heading = true) :
      InUse tokens ⟨.fontFamily, "heading"⟩
  | bodyFont (h : Text.isFilled tokens.fonts.body = true) : InUse tokens ⟨.fontFamily, "body"⟩
  | fontSize (size : Size) : InUse tokens ⟨.fontSize, size.fontPreset⟩

end Preset

/-! ## Attributes -/

namespace Fields

variable {P : Preset → Prop} {fields : Fields}

/-- Attributes of which those that refer to presets hold the slugs of presets that satisfy `P`. -/
def Refers (P : Preset → Prop) (fields : Fields) : Prop :=
  ∀ member ∈ fields, ∀ kind, (member.1, kind) ∈ Preset.attributeKeys →
    ∃ slug, member.2 = .string slug ∧ P ⟨kind, slug⟩

@[simp] theorem refers_nil : Refers P [] := List.forall_mem_nil _

@[simp] theorem refers_cons {key : String} {v : Json} {rest : Fields} :
    Refers P ((key, v) :: rest)
      ↔ (∀ kind, (key, kind) ∈ Preset.attributeKeys → ∃ slug, v = .string slug ∧ P ⟨kind, slug⟩)
        ∧ rest.Refers P := List.forall_mem_cons

/-- A new attribute has to satisfy the condition, if it is one that refers to presets. -/
theorem Refers.set (h : fields.Refers P) {key : String} {v : Json}
    (hv : ∀ kind, (key, kind) ∈ Preset.attributeKeys → ∃ slug, v = .string slug ∧ P ⟨kind, slug⟩) :
    (fields.set key v).Refers P := by
  intro member hmember
  rcases mem_of_set hmember with hold | rfl
  · exact h member hold
  · exact hv

/-- A key that is none of those that refer to presets. -/
def Neutral (key : String) : Prop := ∀ kind, (key, kind) ∉ Preset.attributeKeys

instance (key : String) : Decidable (Neutral key) :=
  decidable_of_iff (key ∉ Preset.attributeKeys.map Prod.fst) (by simp [Neutral])

theorem Refers.set_neutral (h : fields.Refers P) {key : String} (hkey : Neutral key) (v : Json) :
    (fields.set key v).Refers P :=
  h.set fun kind hkind => absurd hkind (hkey kind)

/-- Cleaning takes members away, and leaves texts as they are. So what a cleaned object refers to
was referred to before. -/
theorem Refers.clean (h : fields.Refers P) : fields.clean.Refers P := by
  induction fields with
  | nil => exact refers_nil
  | cons first rest ih =>
    obtain ⟨key, v⟩ := first
    obtain ⟨hfirst, hrest⟩ := refers_cons.1 h
    rw [Fields.clean, Json.cleanMembers]
    split_ifs
    · exact ih hrest
    · refine refers_cons.2 ⟨fun kind hkind => ?_, ih hrest⟩
      obtain ⟨slug, rfl, hslug⟩ := hfirst kind hkind
      exact ⟨slug, rfl, hslug⟩

end Fields

/-! ## Appearances -/

namespace Appearance

variable {P : Preset → Prop} {a : Appearance}

/-- A style refers to presets in its values, if at all, and not by an attribute. -/
theorem refers_setStyle (h : a.attributes.Refers P) (style : Style) :
    (a.setStyle style).attributes.Refers P := by
  unfold setStyle
  split
  · exact h
  · exact h.set_neutral (by decide) _

theorem refers_named (h : a.attributes.Refers P) (className : Option String) :
    (a.named className).attributes.Refers P := by
  unfold named
  split
  · exact h
  · split
    · exact h
    · exact h.set_neutral (by decide) _

theorem refers_styled (h : a.attributes.Refers P) (style : Style) (more : List String)
    (className : Option String) : (a.styled style more className).attributes.Refers P :=
  refers_named (a := (a.setStyle style).addClasses more) (refers_setStyle h style) className

/-- The font size of a node refers to a preset of the scale. The alignment is under a key that names
no preset. -/
theorem refers_setText (h : a.attributes.Refers P) (hsize : ∀ size : Size, P ⟨.fontSize, size.fontPreset⟩)
    {alignKey : String} (hkey : Fields.Neutral alignKey) (node : Node) :
    (Render.setText alignKey node a).attributes.Refers P := by
  -- the attribute for the size holds the slug that goes with it
  have hfont : ∀ {a : Appearance}, a.attributes.Refers P → ∀ (size : Size) (more : List String),
      ((a.set "fontSize" (.string size.fontPreset)).addClasses more).attributes.Refers P := by
    intro a h size more
    refine h.set fun kind hkind => ⟨_, rfl, ?_⟩
    obtain rfl : kind = .fontSize := by simpa [Preset.attributeKeys] using hkind
    exact hsize size
  unfold Render.setText
  cases node.attributes.textAlign with
  | none =>
    cases node.attributes.fontSize with
    | none => exact h
    | some size => exact hfont h size _
  | some align =>
    cases node.attributes.fontSize with
    | none => exact h.set_neutral hkey _
    | some size => exact hfont (a := (a.set alignKey _).addClasses _) (h.set_neutral hkey _) size _

/-- The font of a role is referred to only if it is given. -/
theorem refers_setFont (h : a.attributes.Refers P) {role : String} {font : Option String}
    (hfont : Text.isFilled font = true → P ⟨.fontFamily, role⟩) :
    (Render.setFont role font a).attributes.Refers P := by
  unfold Render.setFont
  split
  · next hfilled =>
    refine h.set fun kind hkind => ⟨role, rfl, ?_⟩
    obtain rfl : kind = .fontFamily := by simpa [Preset.attributeKeys] using hkind
    exact hfont hfilled
  · exact h

end Appearance

/-! ## Nodes -/

/-- A head whose attributes refer to presets that satisfy `P`, if it is that of a block. -/
def Markup.Head.Refers (P : Preset → Prop) : Head → Prop
  | .tag _ _ _ => True
  | .delimiter _ attributes => attributes.Refers P

/-- A block that refers to a preset of a kind: what the attribute for it holds where it is written. -/
def Markup.Head.RefersTo (kind : PresetKind) (v : Json) : Head → Prop
  | .tag _ _ _ => False
  | .delimiter _ attributes =>
    ∃ key, (key, kind) ∈ Preset.attributeKeys ∧ (key, v) ∈ attributes.clean

/-- What a block refers to holds the slug of a preset that satisfies the condition. Cleaning comes
in between, as attributes are written cleaned. -/
theorem Markup.Head.Refers.exists_slug {P : Preset → Prop} {head : Head} (h : head.Refers P)
    {kind : PresetKind} {v : Json} (hrefers : head.RefersTo kind v) :
    ∃ slug, v = .string slug ∧ P ⟨kind, slug⟩ := by
  cases head with
  | tag name attributes closed => exact hrefers.elim
  | delimiter name attributes =>
    obtain ⟨key, hkey, hmember⟩ := hrefers
    exact Fields.Refers.clean h (key, v) hmember kind hkey

namespace Render

variable {P : Preset → Prop} (tokens : Tokens) (n : Node)

/-- A block with one element between its delimiters. -/
theorem refers_block_element {name tag : String} {fields : Fields}
    {attributes : List (String × String)} {content : List Markup} :
    (∀ head ∈ heads (.block name fields [.element tag attributes content]), head.Refers P)
      ↔ fields.Refers P ∧ ∀ head ∈ headsAll content, head.Refers P := by
  rw [Markup.heads_block_element, List.forall_mem_cons, List.forall_mem_cons]
  exact and_congr_right fun _ => and_iff_right trivial

/-- A layout is no attribute that refers to presets. -/
theorem refers_layout (flow : Flow) (width : String) :
    Fields.Refers P [("layout", layoutOf flow width)] := by
  simp [Preset.attributeKeys]

theorem refers_nodeStyle {a : Appearance} (h : a.attributes.Refers P) (style : Style) :
    (setNodeStyle style n a).attributes.Refers P :=
  Appearance.refers_styled h style _ n.className

/-- An image has a source, sizes and a text, and refers to no preset. -/
theorem refers_image : ∀ head ∈ heads (image n), head.Refers P := by
  have hfields : Fields.Refers P ([("sizeSlug", .string "full"), ("linkDestination", .string "none")]
      ++ (sizesOf n).map fun size => (size.1, .number size.2)) := by
    unfold sizesOf
    cases lengthOf n.attributes.width <;> cases lengthOf n.attributes.height <;>
      simp [Preset.attributeKeys]
  rw [image, refers_block_element]
  refine ⟨Appearance.refers_named hfields n.className, ?_⟩
  show ∀ head ∈ headsAll [picture n], head.Refers P
  simp [headsAll_picture, Head.Refers]

theorem refers_list : ∀ head ∈ heads (list n), head.Refers P := by
  rw [list, refers_block_element]
  constructor
  · refine Appearance.refers_named ?_ n.className
    dsimp only
    split <;> simp [Preset.attributeKeys]
  · show ∀ head ∈ headsAll ([.newline]
      ++ Markup.lines ((n.attributes.items.getD []).map listItem) ++ [.newline]), head.Refers P
    rw [headsAll_listItems]
    simp [Head.Refers]

theorem refers_navigation : ∀ head ∈ heads (navigation n), head.Refers P := by
  rw [navigation, refers_block_element, headsAll_navigationLinks]
  refine ⟨Appearance.refers_named (refers_layout _ _) n.className, ?_⟩
  rw [List.forall_mem_flatMap]
  intro link _
  simp [Head.Refers]

variable (hcolor : ∀ slug ∈ ["primary", "secondary", "background"], P ⟨.color, slug⟩)

include hcolor in
/-- A button refers to colors: the primary one, the secondary one or the background, by its variant.
-/
theorem refers_button : ∀ head ∈ heads (button n), head.Refers P := by
  have hfields : ∀ variant, (buttonAppearance variant).attributes.Refers P := by
    simp only [List.forall_mem_cons] at hcolor
    intro variant
    cases variant <;> simp [buttonAppearance, Preset.attributeKeys, hcolor]
  have hbutton := Appearance.refers_named (hfields (n.attributes.variant.getD .primary)) n.className
  rw [heads_button]
  simpa [Head.Refers] using hbutton

/-- **The blocks of a node refer to presets in use only.** One case for each kind of node: texts
refer to a size and a font, buttons to colors, and the other kinds to nothing. -/
theorem refers_ownHeads : ∀ head ∈ n.ownHeads tokens, head.Refers (Preset.InUse tokens) := by
  have hcontent : ∀ head ∈ headsAll [contentOf n], head.Refers (Preset.InUse tokens) :=
    List.forall_mem_nil _
  have hsize : ∀ size : Size, Preset.InUse tokens ⟨.fontSize, size.fontPreset⟩ := .fontSize
  unfold Node.ownHeads node
  cases hkind : n.kind? with
  | none => simp [placeholder, heads]
  | some kind =>
    cases kind with
    | image => exact refers_image n
    -- the level of a heading is there before size and font
    | heading =>
      refine refers_block_element.2 ⟨refers_nodeStyle n ?_ _, hcontent⟩
      refine Appearance.refers_setFont (Appearance.refers_setText ?_ hsize (by decide) n) .headingFont
      simp [Preset.attributeKeys]
    | paragraph =>
      refine refers_block_element.2 ⟨refers_nodeStyle n ?_ _, hcontent⟩
      exact Appearance.refers_setFont
        (Appearance.refers_setText Fields.refers_nil hsize (by decide) n) .bodyFont
    | button => exact refers_button n fun _ => .color
    | list => exact refers_list n
    | spacer =>
      refine refers_block_element.2 ⟨by simp [Preset.attributeKeys], by simp [headsAll]⟩
    | group =>
      refine refers_block_element.2 ⟨refers_nodeStyle n (refers_layout _ _) _, ?_⟩
      rw [Markup.headsAll_framed, Markup.headsAll_spaced]
      simp [headsAll]
    | navigation => exact refers_navigation n

/-! ## Sections -/

/-- The blocks around the nodes of a section refer to no presets: their gaps and paddings are
lengths. -/
theorem refers_sectionHeads (s : Section) : ∀ head ∈ s.ownHeads, head.Refers P := by
  -- the attributes of a cover are its address, its overlay and its layout
  have hcover : ∀ url, ∀ head ∈ coverHeads s url, head.Refers P := by
    intro url
    have hfields : (coverAppearance s url).attributes.Refers P := by
      simp [coverAppearance, Preset.attributeKeys]
    have hnamed := Appearance.refers_named hfields s.className
    simpa [coverHeads, Head.Refers] using hnamed
  have hgroup : ∀ head ∈ sectionGroupHeads s, head.Refers P := by
    have hstyled := Appearance.refers_styled (P := P) (a := groupAppearance s) (refers_layout _ _)
      (Style.ofEntries (backgroundEntries s.background ++ paddingEntries s.layout.gap)) []
      s.className
    simpa [sectionGroupHeads, Head.Refers] using hstyled
  rw [Section.ownHeads, List.forall_mem_append]
  constructor
  · unfold wrapperHeads
    split
    · exact hcover _
    · exact hgroup
  · unfold layoutHeads
    cases s.layout.kind with
    | columns => cases s.layout.gap <;> simp [columnsStyle, Head.Refers, Preset.attributeKeys]
    | grid => simpa [Head.Refers] using refers_layout (P := P) .grid sectionGridColumnWidth
    | fullWidth | constrained => simp

end Render

/-! ## Templates -/

/-- **The blocks of the templates of a document refer to presets in use only.** From the statements
about nodes and sections, as these have all the heads. -/
theorem Document.refers_templates (document : Document) :
    ∀ template ∈ document.templates.written, ∀ head ∈ headsAll template.1,
      head.Refers (Preset.InUse document.tokens) := by
  have hcolumn : ∀ head ∈ Render.columnHeads, head.Refers (Preset.InUse document.tokens) := by
    simp [Render.columnHeads, Head.Refers]
  have hparts : ∀ head ∈ Render.partHeads, head.Refers (Preset.InUse document.tokens) := by
    simp [Render.partHeads, Render.templatePart, heads, Head.Refers, Preset.attributeKeys]
  rw [document.forall_heads_templates_iff hcolumn hparts]
  exact fun s _ => ⟨Render.refers_sectionHeads s, fun node _ =>
    Render.refers_ownHeads document.tokens node⟩

end BlockTheme
