import BlockTheme.Proofs.Render.Nodes
import BlockTheme.Render.Section

/-!
# Comments in the markup of sections

The markup of a section is inert exactly if its class name and its background are and all nodes that
it shows (`Section.inert_markup_iff`). The layout of the nodes adds nothing: its gaps come from the
program.
-/

namespace BlockTheme

open Comment (BeginsIn EndsIn Quiet)

/-! ## What a section puts into its markup -/

/-- The nodes that a section shows, with those below them. Columns show those that are spread over
them. -/
def Section.shown (s : Section) : List Node :=
  match s.layout.kind with
  | .columns => (Render.columnsOf s).flatMap Node.shownAll
  | _ => Node.shownAll s.children

/-- A background that ends no comment of its section and begins none in it. The address of an image
stands in a comment and is escaped elsewhere; a color or a gradient stands in a comment and in an
element if it can be used. -/
def Background.Inert (background : Background) : Prop :=
  match background.kind with
  | .image => ¬EndsIn background.value
  | .color | .gradient => ∀ value, usable? (some background.value) = some value → Quiet value

/-- A section that ends no comment of its markup and begins none in it. -/
structure Section.Inert (s : Section) : Prop where
  className : QuietName s.className
  background : ∀ background, s.background = some background → background.Inert
  shown : ∀ node ∈ s.shown, node.Inert

namespace Render

open Markup (Inert InertAll Tidy TidyAll escaped)

variable (tokens : Tokens) (s : Section)

/-! ## Layouts -/

/-- A column has no class name and no style, so that only its nodes count. -/
theorem inert_column_iff (nodes : List Node) :
    Inert (column tokens nodes) ↔ ∀ node ∈ Node.shownAll nodes, node.Inert := by
  have hclass : ¬BeginsIn "wp-block-column is-layout-flow" := by decide
  rw [← Node.inert_markupAll_iff tokens, ← Markup.inertAll_spaced, ← Markup.inertAll_framed]
  simp [column, Inert, InertAll, hclass]

theorem tidy_column (nodes : List Node) : Tidy (column tokens nodes) := by
  refine ⟨by decide, by simp, ⟨by decide, by simp, ?_⟩, trivial⟩
  rw [Markup.tidyAll_framed, Markup.tidyAll_spaced]
  exact Node.tidy_markupAll tokens nodes

/-- The style of columns with a gap between them. -/
def columnsStyle (gap : Option Gap) : Style :=
  match gap with
  | some gap =>
    [("spacing", .object
      [("blockGap", .object [("top", .string gap.width), ("left", .string gap.width)])])]
  | none => []

/-- The columns of a section with their style. -/
def columnsBlock (style : Style) : Markup :=
  .block "columns" (if style.isEmpty then [] else [("style", .object style)])
    [.element "div" ([("class", "wp-block-columns is-layout-flex")] ++ style.inlineAttribute)
      ([.newline] ++ Markup.spaced ((columnsOf s).map (column tokens)) ++ [.newline])]

/-- Columns as a block of their own, so that what is shown for it can be used for a section with any
gap. -/
theorem layout_columns (h : s.layout.kind = .columns) :
    layout tokens s = [columnsBlock tokens s (columnsStyle s.layout.gap)] := by
  unfold layout
  rw [h]
  rfl

/-- The gap of columns comes from the program. -/
theorem quiet_columnsStyle (gap : Option Gap) :
    (∀ text ∈ Fields.texts (columnsStyle gap), ¬EndsIn text)
      ∧ (∀ key ∈ Fields.names (columnsStyle gap), ¬EndsIn key)
      ∧ ∀ x ∈ (columnsStyle gap).inlineAttribute, ¬BeginsIn x.2 := by
  rcases gap with _ | _ | _ | _ <;> decide

/-- Columns are inert exactly if the nodes in them are. The gap is the only thing that a section
decides about the block itself. -/
theorem inert_columnsBlock_iff (gap : Option Gap) :
    Inert (columnsBlock tokens s (columnsStyle gap))
      ↔ ∀ node ∈ (columnsOf s).flatMap Node.shownAll, node.Inert := by
  obtain ⟨htexts, -, hvalues⟩ := quiet_columnsStyle gap
  have hclass : ¬BeginsIn "wp-block-columns is-layout-flex" := by decide
  have hattributes : ∀ text ∈ Fields.texts (if (columnsStyle gap).isEmpty then []
      else [("style", .object (columnsStyle gap))]), ¬EndsIn text := by
    split
    · simp
    · simpa using htexts
  -- blank lines between the columns change nothing
  have hcontent : InertAll
      ([.newline] ++ Markup.spaced ((columnsOf s).map (column tokens)) ++ [.newline])
      ↔ ∀ node ∈ (columnsOf s).flatMap Node.shownAll, node.Inert := by
    rw [Markup.inertAll_framed, Markup.inertAll_spaced, List.forall_mem_map,
      List.forall_mem_flatMap]
    exact forall₂_congr fun nodes _ => inert_column_iff tokens nodes
  rw [columnsBlock, Inert, InertAll, Inert, hcontent, List.forall_mem_append]
  simp only [InertAll, and_true]
  exact (and_iff_right hattributes).trans
    (and_iff_right ⟨by simpa using hclass, hvalues⟩)

/-- The keys and the names in columns, with a gap or without, are the program's. -/
theorem tidy_columnsBlock (gap : Option Gap) :
    Tidy (columnsBlock tokens s (columnsStyle gap)) := by
  obtain ⟨-, hnames, -⟩ := quiet_columnsStyle gap
  have hkey : ¬EndsIn "style" := by decide
  refine ⟨by decide, ?_, ⟨by decide, ?_, ?_⟩, trivial⟩
  · split
    · simp
    · simpa [hkey] using hnames
  · rw [List.forall_mem_append]
    refine ⟨by simp, fun x hx => ?_⟩
    rw [Style.fst_of_mem_inlineAttribute hx]
    decide
  · rw [Markup.tidyAll_framed, Markup.tidyAll_spaced, List.forall_mem_map]
    exact fun nodes _ => tidy_column tokens nodes

/-- The nodes of a section in a grid. -/
def gridBlock : Markup :=
  .block "group" [("layout", layoutOf .grid sectionGridColumnWidth)]
    [.element "div" [("class", "wp-block-group is-layout-grid")]
      ([.newline] ++ Markup.spaced (Node.markupAll tokens s.children) ++ [.newline])]

/-- The layout of a grid comes from the program. -/
theorem bare_grid : Appearance.Bare ⟨[("layout", layoutOf .grid sectionGridColumnWidth)], []⟩ :=
  Appearance.bare_layout .grid (by decide) (by simp)

/-- A grid has its layout and a class, both from the program. -/
theorem inert_gridBlock_iff :
    Inert (gridBlock tokens s) ↔ ∀ node ∈ Node.shownAll s.children, node.Inert := by
  have hclass : ¬BeginsIn "wp-block-group is-layout-grid" := by decide
  have hlayout : ∀ text ∈ Fields.texts [("layout", layoutOf .grid sectionGridColumnWidth)],
      ¬EndsIn text := bare_grid.not_endsIn_text
  have hcontent : InertAll ([.newline] ++ Markup.spaced (Node.markupAll tokens s.children)
      ++ [.newline]) ↔ ∀ node ∈ Node.shownAll s.children, node.Inert := by
    rw [Markup.inertAll_framed, Markup.inertAll_spaced, Node.inert_markupAll_iff]
  rw [gridBlock, Inert, InertAll, Inert, hcontent]
  simp only [InertAll, and_true]
  exact (and_iff_right hlayout).trans (and_iff_right (by simpa using hclass))

theorem tidy_gridBlock : Tidy (gridBlock tokens s) := by
  refine ⟨by decide, bare_grid.not_endsIn_name, ⟨by decide, by simp, ?_⟩, trivial⟩
  rw [Markup.tidyAll_framed, Markup.tidyAll_spaced]
  exact Node.tidy_markupAll tokens s.children

/-- **The children of a section in their layout are inert exactly if all shown nodes are.** Columns,
a grid and no layout at all are looked at one by one. -/
theorem inertAll_layout_iff :
    InertAll (layout tokens s) ↔ ∀ node ∈ s.shown, node.Inert := by
  cases hkind : s.layout.kind with
  | columns =>
    rw [layout_columns tokens s hkind, Section.shown, hkind, ← inert_columnsBlock_iff tokens]
    exact and_iff_left trivial
  | grid =>
    have hlayout : layout tokens s = [gridBlock tokens s] := by
      rw [layout, hkind]
      rfl
    rw [hlayout, Section.shown, hkind, ← inert_gridBlock_iff tokens]
    exact and_iff_left trivial
  -- here the nodes stand in the section itself, with blank lines between them
  | fullWidth | constrained =>
    rw [layout, Section.shown, hkind, ← Node.inert_markupAll_iff tokens]
    exact Markup.inertAll_spaced

/-- In every layout the names around the nodes are the program's. -/
theorem tidyAll_layout : TidyAll (layout tokens s) := by
  cases hkind : s.layout.kind with
  | columns =>
    rw [layout_columns tokens s hkind]
    exact ⟨tidy_columnsBlock tokens s _, trivial⟩
  | grid =>
    rw [layout, hkind]
    exact ⟨tidy_gridBlock tokens s, trivial⟩
  | fullWidth | constrained =>
    rw [layout, hkind]
    exact Markup.tidyAll_spaced.2 (Node.tidy_markupAll tokens s.children)

/-! ## Wrappers -/

/-- The entry of a background that can be used. -/
def backgroundEntries (background : Option Background) : List StyleEntry :=
  match background with
  | none => []
  | some b =>
    match usable? (some b.value), b.kind with
    | some value, .color => [⟨"color", "background", .string value, none⟩]
    | some value, .gradient => [⟨"color", "gradient", .string value, none⟩]
    | _, _ => []

/-- The entry of a gap above and below. -/
def paddingEntries (gap : Option Gap) : List StyleEntry :=
  (gap.map fun gap =>
    ⟨"spacing", "padding", .object [("top", .string gap.width), ("bottom", .string gap.width)],
      none⟩).toList

/-- The style of a section is the one of its entries. Styles of nodes are made of entries too, and
the lemmas about these are used for sections through this equation. -/
theorem wrapperStyle_eq (background : Option Background) (gap : Option Gap) :
    backgroundStyle background ++ sectionPadding gap
      = Style.ofEntries (backgroundEntries background ++ paddingEntries gap) := by
  rcases background with _ | ⟨kind, value⟩
  · cases gap <;> rfl
  · cases husable : usable? (some value) <;> cases kind <;> cases gap <;>
      simp only [backgroundStyle, backgroundEntries, husable] <;> rfl

/-- A background has one entry at most, in one of two places: a color and a gradient are entries if
they can be used, and an image is none. -/
theorem backgroundEntries_cases (background : Option Background) :
    backgroundEntries background = []
      ∨ ∃ property ∈ ["background", "gradient"], ∃ value ≠ "",
          backgroundEntries background = [⟨"color", property, .string value, none⟩] := by
  rcases background with _ | ⟨kind, value⟩
  · exact Or.inl rfl
  · cases husable : usable? (some value) with
    | none => exact Or.inl (by cases kind <;> simp [backgroundEntries, husable])
    | some v =>
      have hne := Style.usable?_ne_empty husable
      cases kind with
      | color => exact Or.inr ⟨"background", by simp, v, hne, by simp [backgroundEntries, husable]⟩
      | gradient => exact Or.inr ⟨"gradient", by simp, v, hne, by simp [backgroundEntries, husable]⟩
      | image => exact Or.inl (by simp [backgroundEntries, husable])

/-- Background and padding have places of their own in the style. -/
theorem nodup_places_wrapper (background : Option Background) (gap : Option Gap) :
    (Style.places (backgroundEntries background ++ paddingEntries gap)).Nodup := by
  have hpadding : (Style.places (paddingEntries gap)).Sublist [("spacing", "padding")] :=
    Style.places_toList gap _ _ fun _ => rfl
  rcases backgroundEntries_cases background with hnone | ⟨property, -, value, -, hone⟩
  · rw [hnone]
    exact hpadding.nodup (by simp)
  · rw [hone]
    refine (hpadding.cons_cons ("color", property)).nodup ?_
    simp

/-- Every entry of the style of a section is shown inline: those of the background by a row of the
table, the padding side by side. -/
theorem shown_wrapper (background : Option Background) (gap : Option Gap) :
    ∀ entry ∈ backgroundEntries background ++ paddingEntries gap, Style.Shown entry := by
  rw [List.forall_mem_append]
  constructor
  · rcases backgroundEntries_cases background with hnone | ⟨property, hproperty, value, hne, hone⟩
    · simp [hnone]
    · have hrow : ("color", property, if property = "background" then "background-color"
          else "background") ∈ Style.rows := by
        simp only [List.mem_cons, List.not_mem_nil, or_false] at hproperty
        rcases hproperty with rfl | rfl <;> decide
      rw [hone, List.forall_mem_singleton]
      exact .row hrow hne
  · intro entry hin
    obtain ⟨gap, -, rfl⟩ := Option.map_eq_some_iff.1 (Option.mem_toList.1 hin)
    have hsides : ∀ side ∈ ["top", "bottom"], ¬EndsIn side := by decide
    have hwidth : ¬BeginsIn gap.width := by cases gap <;> decide
    exact .box (by simp) (by simp [hsides, hwidth])

/-- The entries of the style of a section are quiet exactly if its background is inert. The paddings
are lengths of the program. -/
theorem quietEntries_wrapper_iff {background : Option Background} (gap : Option Gap)
    (h : ∀ url, background ≠ some ⟨.image, url⟩) :
    QuietEntries (backgroundEntries background ++ paddingEntries gap)
      ↔ ∀ b, background = some b → b.Inert := by
  -- the width of a gap comes from the program
  have hpadding : QuietEntries (paddingEntries gap) := by
    have hwidth : ∀ gap : Gap, Quiet gap.width := by
      intro gap
      cases gap <;> exact ⟨by decide, by decide⟩
    cases gap <;> simp [QuietEntries, paddingEntries, hwidth]
  rw [QuietEntries, List.forall_mem_append, ← QuietEntries, ← QuietEntries, and_iff_left hpadding]
  rcases background with _ | ⟨kind, value⟩
  · simp [QuietEntries, backgroundEntries]
  -- an image would be a cover, and is excluded here
  · cases kind with
    | image => exact absurd rfl (h value)
    | color | gradient =>
      cases husable : usable? (some value) <;>
        simp [QuietEntries, backgroundEntries, Background.Inert, husable]

/-- The appearance of a section before its style. -/
def groupAppearance : Appearance where
  attributes := [("layout", layoutOf (outerFlow s) sectionGridColumnWidth)]
  classes := ["wp-block-group", (outerFlow s).className]
    ++ (if (backgroundStyle s.background).isEmpty then [] else ["has-background"])

/-- Before its style and its class name, nothing in the look of a section is the document's. -/
theorem bare_groupAppearance : (groupAppearance s).Bare := by
  have hflow : ∀ flow : Flow, ¬BeginsIn flow.className := by
    intro flow
    cases flow <;> decide
  have hwords : ∀ word ∈ ["wp-block-group", "has-background"], ¬BeginsIn word := by decide
  refine Appearance.bare_layout (outerFlow s) (by decide) ?_
  rw [List.forall_mem_append]
  refine ⟨by simp [hwords, hflow], ?_⟩
  split <;> simp [hwords]

/-- A section in the form that blocks of nodes have: an appearance with a style, and content. With
this the lemmas about such blocks apply to sections too. -/
theorem sectionGroup_eq :
    sectionGroup tokens s
      = .block "group" ((groupAppearance s).styled (Style.ofEntries (backgroundEntries s.background
            ++ paddingEntries s.layout.gap)) [] s.className).attributes
          [.element "div" ((groupAppearance s).styled (Style.ofEntries
              (backgroundEntries s.background ++ paddingEntries s.layout.gap)) []
                s.className).elementAttributes
            ([.newline] ++ layout tokens s ++ [.newline])] := by
  have hclasses : ∀ a : Appearance, a.addClasses [] = a := by
    intro a
    simp [Appearance.addClasses]
  rw [Appearance.styled, hclasses, ← wrapperStyle_eq]
  rfl

/-- A section without an image behind it is inert exactly if its class name, its background and the
nodes that it shows are. -/
theorem inert_sectionGroup_iff (h : ∀ url, s.background ≠ some ⟨.image, url⟩) :
    Inert (sectionGroup tokens s) ↔ s.Inert := by
  have hblock := (bare_groupAppearance s).inert_block_iff
    (nodup_places_wrapper s.background s.layout.gap) (shown_wrapper s.background s.layout.gap)
    (List.forall_mem_nil _) s.className "group" "div" ([.newline] ++ layout tokens s ++ [.newline])
  rw [Markup.inertAll_framed, inertAll_layout_iff, quietEntries_wrapper_iff _ h] at hblock
  rw [sectionGroup_eq, hblock]
  exact ⟨fun ⟨⟨hname, hback⟩, hshown⟩ => ⟨hname, hback, hshown⟩,
    fun ⟨hname, hback, hshown⟩ => ⟨⟨hname, hback⟩, hshown⟩⟩

/-- The names in such a section come from the program, and from the keys of styles. -/
theorem tidy_sectionGroup : Tidy (sectionGroup tokens s) := by
  rw [sectionGroup_eq]
  exact (bare_groupAppearance s).tidy_block (shown_wrapper _ _) [] s.className (by decide)
    (by decide) (Markup.tidyAll_framed.2 (tidyAll_layout tokens s))

/-- The appearance of a cover before its class name. -/
def coverAppearance (url : String) : Appearance where
  attributes := [("url", .string url), ("dimRatio", .nat coverDim),
    ("layout", layoutOf (outerFlow s) sectionGridColumnWidth)]
  classes := ["wp-block-cover"]

/-- What stands in a cover. -/
def coverContent (url : String) : List Markup :=
  [.newline,
    .element "span"
      [("aria-hidden", "true"), ("class", "wp-block-cover__background has-background-dim")] [],
    .newline,
    .void "img"
      [("class", "wp-block-cover__image-background"), ("alt", ""), escaped "src" url,
        ("data-object-fit", "cover")],
    .newline,
    .element "div" [("class", "wp-block-cover__inner-container")]
      ([.newline] ++ layout tokens s ++ [.newline]),
    .newline]

/-- A cover in the same form. It has no style, as its background is the image. -/
theorem cover_eq (url : String) :
    cover tokens s url
      = .block "cover" ((coverAppearance s url).named s.className).attributes
          [.element "div"
            (Markup.classAttribute ((coverAppearance s url).named s.className).classes)
            (coverContent tokens s url)] := rfl

/-- The attributes of a cover other than its address come from the program. -/
theorem plain_coverAppearance {url : String} (hurl : ¬EndsIn url) :
    (coverAppearance s url).Plain := by
  have hlayout : Appearance.Constant ("layout", layoutOf (outerFlow s) sectionGridColumnWidth) :=
    Appearance.constant_layout (outerFlow s) (by decide)
  have hurlKey : ¬EndsIn "url" := by decide
  have hdimKey : ¬EndsIn "dimRatio" := by decide
  refine .of_constant ?_ (by simp) (by decide)
  simp only [List.forall_mem_cons, hlayout, true_and]
  exact ⟨⟨hurlKey, by simpa using hurl, by simp⟩, ⟨hdimKey, by simp [Json.nat], by simp [Json.nat]⟩,
    by simp⟩

/-- The keys of a cover end no comment, whatever its address is. -/
theorem names_coverAppearance (url : String) :
    ∀ key ∈ (coverAppearance s url).attributes.names, ¬EndsIn key := by
  have hplain := (plain_coverAppearance s Markup.not_endsIn_empty).not_endsIn_name
  simpa [coverAppearance] using hplain

/-- Inside a cover the address is escaped, so that only the nodes count. -/
theorem inertAll_coverContent_iff (url : String) :
    InertAll (coverContent tokens s url) ↔ ∀ node ∈ s.shown, node.Inert := by
  have hwords : ∀ word ∈ ["true", "wp-block-cover__background has-background-dim",
      "wp-block-cover__image-background", "", "cover", "wp-block-cover__inner-container"],
      ¬BeginsIn word := by decide
  rw [← inertAll_layout_iff tokens, ← Markup.inertAll_framed]
  simp [coverContent, Inert, InertAll, Markup.inertAll_append, Markup.newline, Markup.escaped,
    hwords, Markup.not_beginsIn_attributeValue]

/-- The names inside a cover come from the program. -/
theorem tidyAll_coverContent (url : String) : TidyAll (coverContent tokens s url) := by
  have hcontent : TidyAll ([.newline] ++ layout tokens s ++ [.newline]) :=
    Markup.tidyAll_framed.2 (tidyAll_layout tokens s)
  have hnewline := Markup.tidy_newline
  refine ⟨hnewline, ⟨by decide, by simp, trivial⟩, hnewline, ⟨by decide, ?_⟩, hnewline,
    ⟨by decide, by simp, hcontent⟩, hnewline, trivial⟩
  simp [Markup.escaped]

/-- The address of a cover stands in its delimiter, whatever its class name is. In the address of
the image below it is escaped, and so it can begin no comment. -/
theorem inert_cover_iff (url : String) :
    Inert (cover tokens s url)
      ↔ (QuietName s.className ∧ ¬EndsIn url) ∧ ∀ node ∈ s.shown, node.Inert := by
  rw [cover_eq]
  -- the address is a text of the attributes with any class name; if it ends no comment, the
  -- appearance is plain
  by_cases hurl : EndsIn url
  · have hends : ∃ text ∈ ((coverAppearance s url).named s.className).attributes.texts,
        EndsIn text := by
      refine (Appearance.endsIn_named (Fields.get?_eq_none_of_forall ?_) s.className).2
        (Or.inl ⟨url, by simp [coverAppearance], hurl⟩)
      simp [coverAppearance]
    constructor
    · rintro ⟨htexts, -⟩
      obtain ⟨text, hin, htext⟩ := hends
      exact absurd htext (htexts text hin)
    · rintro ⟨⟨-, hno⟩, -⟩
      exact absurd hurl hno
  · rw [(plain_coverAppearance s hurl).inert_block_iff, inertAll_coverContent_iff]
    simp [hurl]

theorem tidy_cover (url : String) : Tidy (cover tokens s url) := by
  rw [cover_eq]
  exact Appearance.tidy_namedBlock (names_coverAppearance s url) s.className (by decide) (by decide)
    (tidyAll_coverContent tokens s url)

end Render

/-! ## Sections -/

namespace Section

/-- **The markup of a section is inert exactly if the section is.** A section is a cover if it has
an image behind it, whose address counts then, and a group with a style otherwise. -/
theorem inert_markup_iff (tokens : Tokens) (s : Section) :
    (s.markup tokens).Inert ↔ s.Inert := by
  unfold markup
  split
  · next url himage =>
    rw [Render.inert_cover_iff]
    refine ⟨fun ⟨⟨hname, hurl⟩, hshown⟩ => ⟨hname, ?_, hshown⟩,
      fun ⟨hname, hback, hshown⟩ => ⟨⟨hname, hback _ himage⟩, hshown⟩⟩
    intro background hback
    obtain rfl := Option.some.inj (himage.symm.trans hback)
    exact hurl
  · next hother => exact Render.inert_sectionGroup_iff tokens s hother

/-- Every section has tidy markup, so that whether it is inert can be read off its texts. -/
theorem tidy_markup (tokens : Tokens) (s : Section) : (s.markup tokens).Tidy := by
  unfold markup
  split
  · exact Render.tidy_cover tokens s _
  · exact Render.tidy_sectionGroup tokens s

end Section

end BlockTheme
