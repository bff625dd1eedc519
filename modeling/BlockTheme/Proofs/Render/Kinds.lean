import BlockTheme.Proofs.Render.Appearance
import BlockTheme.Render.Node

/-!
# Comments and kinds of nodes

For every kind of node, when its markup is inert: what its appearance takes over from the node has
to be quiet. Content and addresses are escaped and play no part. The markup is tidy whatever the
node says.
-/

namespace BlockTheme

open Comment (BeginsIn EndsIn)

/-- The entries of the style of a group: those of any node, and its gap. -/
def Node.groupEntries (node : Node) : List StyleEntry :=
  StyleEntry.ofNode node.attributes node.style
    ++ (((node.style.getD []).usable? "gap").map fun gap =>
      ⟨"spacing", "blockGap", .string gap, none⟩).toList

namespace Appearance

/-! ## Appearances of nodes -/

/-- A layout comes from the program if its column width does. -/
theorem constant_layout (flow : Flow) {width : String} (hwidth : ¬EndsIn width) :
    Constant ("layout", Render.layoutOf flow width) := by
  have hkeys : ∀ key ∈ ["layout", "type", "minimumColumnWidth", "flexWrap"], ¬EndsIn key := by
    decide
  have hwords : ∀ word ∈ ["constrained", "grid", "flex", "default", "nowrap"], ¬EndsIn word := by
    decide
  cases flow <;>
    simp [Constant, Render.layoutOf, Schema.Named.name, hkeys, hwords, hwidth]

/-- The appearance of a block that says how its content flows. -/
theorem bare_layout (flow : Flow) {width : String} (hwidth : ¬EndsIn width)
    {classes : List String} (hclasses : ∀ c ∈ classes, ¬BeginsIn c) :
    Bare ⟨[("layout", Render.layoutOf flow width)], classes⟩ :=
  .of_constant (by simpa using constant_layout flow hwidth) (by simp) hclasses

/-- The appearance of a group before its style: how its content flows, and its two classes. -/
theorem bare_group (flow : Flow) :
    Bare ⟨[("layout", Render.layoutOf flow Render.gridColumnWidth)],
      ["wp-block-group", flow.className]⟩ :=
  bare_layout flow (by decide) (by cases flow <;> decide)

/-- **Alignment and size of a text keep an appearance bare.** Both are words of a vocabulary, which
are looked through one by one, and the classes that are made of them begin no comment. -/
theorem Bare.setText {a : Appearance} (h : a.Bare) {alignKey : String}
    (hkey : alignKey ∈ ["textAlign", "align"]) (node : Node) :
    (Render.setText alignKey node a).Bare := by
  have hkeys : ∀ key ∈ ["textAlign", "align"], key ∉ ["className", "style"] ∧ ¬EndsIn key := by
    decide
  have haligned : ∀ align : TextAlign,
      ((a.set alignKey (.string (Schema.Named.name align))).addClasses
        ["has-text-align-" ++ Schema.Named.name align]).Bare := fun align =>
    h.setPreset (hkeys _ hkey).1 (hkeys _ hkey).2 (by cases align <;> decide)
      (by cases align <;> decide)
  have hsized : ∀ {b : Appearance}, b.Bare → ∀ size : Size,
      ((b.set "fontSize" (.string size.fontPreset)).addClasses
        ["has-" ++ size.fontPreset ++ "-font-size"]).Bare := fun hb size =>
    hb.setPreset (by decide) (by decide) (by cases size <;> decide) (by cases size <;> decide)
  -- each of the two may be missing
  unfold Render.setText
  cases node.attributes.textAlign with
  | none =>
    cases node.attributes.fontSize with
    | none => exact h
    | some size => exact hsized h size
  | some align =>
    cases node.attributes.fontSize with
    | none => exact haligned align
    | some size => exact hsized (haligned align) size

/-- A font leaves an appearance bare, for only its role goes into the attributes. Its name, which a
document could choose freely, does not. -/
theorem Bare.setFont {a : Appearance} (h : a.Bare) {role : String}
    (hrole : role ∈ ["heading", "body"]) (font : Option String) :
    (Render.setFont role font a).Bare := by
  have hroles : ∀ role ∈ ["heading", "body"],
      ¬EndsIn role ∧ ¬BeginsIn ("has-" ++ role ++ "-font-family") := by decide
  unfold Render.setFont
  split
  · exact h.setPreset (by decide) (by decide) (hroles _ hrole).1 (hroles _ hrole).2
  · exact h

end Appearance

namespace Render

open Markup (Inert InertAll Tidy TidyAll escaped)

variable (tokens : Tokens) (n : Node)

/-- The content of a node is escaped where its markup is made, so it is inert whatever it is. -/
theorem inertAll_contentOf : InertAll [contentOf n] := ⟨trivial, trivial⟩

theorem tidyAll_contentOf : TidyAll [contentOf n] := ⟨Markup.tidy_data _, trivial⟩

/-- The classes of a style come from the program. -/
theorem not_beginsIn_classesOfNode :
    ∀ c ∈ Style.classesOfNode n.attributes n.style, ¬BeginsIn c := by
  have hall : ∀ c ∈ ["has-text-color", "has-background"], ¬BeginsIn c := by decide
  exact fun c hc => hall c (Style.mem_classesOfNode hc)

/-- Each entry that a node gives has a value that can be shown. This is what its style was filtered
for. -/
theorem shown_ofNode : ∀ entry ∈ StyleEntry.ofNode n.attributes n.style, Style.Shown entry :=
  fun _ hin => (Style.ofNode_of_mem hin).shown

/-- The appearance of a heading before its text is set: a level, which is a number, and a class. -/
theorem bare_heading (level : Level) :
    Appearance.Bare ⟨[("level", .nat level.number)], ["wp-block-heading"]⟩ := by
  refine .of_constant ?_ (by simp) (by decide)
  have hkey : ¬EndsIn "level" := by decide
  simpa [Appearance.Constant, Json.nat] using hkey

/-- A heading before its style. -/
theorem bare_headingText (level : Level) :
    (setFont "heading" tokens.fonts.heading (setText "textAlign" n
      ⟨[("level", .nat level.number)], ["wp-block-heading"]⟩)).Bare :=
  ((bare_heading level).setText (by decide) n).setFont (by decide) _

/-- **A heading is inert exactly if the class name and the style of the node are quiet.** Everything
else about it is a constant, a word of a vocabulary or escaped. -/
theorem inert_heading_iff :
    Inert (heading tokens n)
      ↔ QuietName n.className ∧ QuietEntries (StyleEntry.ofNode n.attributes n.style) := by
  have hblock := (bare_headingText tokens n (n.attributes.level.getD .two)).inert_block_iff
    (Style.nodup_places_ofNode n.attributes n.style) (shown_ofNode n)
    (not_beginsIn_classesOfNode n) n.className "heading"
    (headingTag (n.attributes.level.getD .two)) [contentOf n]
  exact hblock.trans (and_iff_left (inertAll_contentOf n))

theorem tidyTag_headingTag (level : Level) : Markup.TidyTag (headingTag level) := by
  cases level <;> decide

/-- A heading is tidy, whatever the node says: no text of it gets into a name. -/
theorem tidy_heading : Tidy (heading tokens n) :=
  (bare_headingText tokens n _).tidy_block (shown_ofNode n) _ n.className (by decide)
    (tidyTag_headingTag _) (tidyAll_contentOf n)

/-- A paragraph before its style. -/
theorem bare_paragraphText :
    (setFont "body" tokens.fonts.body (setText "align" n {})).Bare := by
  have hempty : Appearance.Bare {} := .of_constant (by simp) (by simp) (by simp)
  exact (hempty.setText (by decide) n).setFont (by decide) _

/-- **A paragraph is inert under the same condition.** It takes over the same things from its node,
and differs in its words and its tag. -/
theorem inert_paragraph_iff :
    Inert (paragraph tokens n)
      ↔ QuietName n.className ∧ QuietEntries (StyleEntry.ofNode n.attributes n.style) := by
  have hblock := (bare_paragraphText tokens n).inert_block_iff
    (Style.nodup_places_ofNode n.attributes n.style) (shown_ofNode n)
    (not_beginsIn_classesOfNode n) n.className "paragraph" "p" [contentOf n]
  exact hblock.trans (and_iff_left (inertAll_contentOf n))

theorem tidy_paragraph : Tidy (paragraph tokens n) :=
  (bare_paragraphText tokens n).tidy_block (shown_ofNode n) _ n.className (by decide) (by decide)
    (tidyAll_contentOf n)

/-- The sizes that an image gives. -/
def sizesOf : List (String × Number) :=
  ((lengthOf n.attributes.width).map fun n => ("width", n)).toList
    ++ ((lengthOf n.attributes.height).map fun n => ("height", n)).toList

/-- A size is a width or a height, and nothing else. -/
theorem fst_of_mem_sizesOf {size : String × Number} (h : size ∈ sizesOf n) :
    size.1 ∈ ["width", "height"] := by
  rcases List.mem_append.1 h with hwidth | hheight
  · obtain ⟨w, -, rfl⟩ := Option.map_eq_some_iff.1 (Option.mem_toList.1 hwidth)
    simp
  · obtain ⟨w, -, rfl⟩ := Option.map_eq_some_iff.1 (Option.mem_toList.1 hheight)
    simp

/-- An image before its class name. Its sizes are the only numbers that a document brings into a
delimiter. -/
theorem plain_image :
    Appearance.Plain ⟨[("sizeSlug", .string "full"), ("linkDestination", .string "none")]
        ++ (sizesOf n).map fun (key, n) => (key, .number n), ["wp-block-image", "size-full"]⟩ := by
  have hkeys : ∀ key ∈ ["width", "height"], ¬EndsIn key ∧ key ≠ "className" := by decide
  have hsizes : ∀ field ∈ (sizesOf n).map fun (key, n) => (key, Json.number n),
      Appearance.Constant field ∧ field.1 ≠ "className" := by
    intro field hin
    obtain ⟨size, hsize, rfl⟩ := List.mem_map.1 hin
    obtain ⟨hkey, hne⟩ := hkeys _ (fst_of_mem_sizesOf n hsize)
    exact ⟨⟨hkey, by simp, by simp⟩, hne⟩
  have hwords : ∀ word ∈ ["sizeSlug", "full", "linkDestination", "none"], ¬EndsIn word := by decide
  -- the fields are two words and up to two numbers, with keys of the program
  refine .of_constant ?_ ?_ (by decide)
  · rw [List.forall_mem_append]
    exact ⟨by simp [Appearance.Constant, hwords], fun field hin => (hsizes field hin).1⟩
  · rw [List.forall_mem_append]
    exact ⟨by simp, fun field hin => (hsizes field hin).2⟩

/-- The picture in the figure of an image. -/
def picture : Markup :=
  .void "img"
    ([escaped "src" (n.attributes.src.getD ""), escaped "alt" (n.attributes.alt.getD "")]
      ++ (sizesOf n).map fun (key, n) => (key, String.ofList (Json.displayNumber n)))

/-- The picture of an image is inert: source and description are escaped, and numbers begin no
comment. -/
theorem inertAll_picture : InertAll [picture n] := by
  refine ⟨?_, trivial⟩
  rw [picture, Inert, List.forall_mem_append]
  refine ⟨?_, fun a ha => ?_⟩
  · simp [Markup.escaped, Markup.not_beginsIn_attributeValue]
  · obtain ⟨size, -, rfl⟩ := List.mem_map.1 ha
    exact Markup.not_beginsIn_displayNumber size.2

/-- An image is tidy: the names of its attributes come from the program, and values do not count for
tidiness. -/
theorem tidyAll_picture : TidyAll [picture n] := by
  refine ⟨⟨by decide, ?_⟩, trivial⟩
  rw [List.forall_mem_append]
  have hwords : ∀ name ∈ ["src", "alt", "width", "height"], '<' ∉ String.toList name := by decide
  refine ⟨?_, fun a ha => ?_⟩
  · simp [Markup.escaped]
  · obtain ⟨size, hsize, rfl⟩ := List.mem_map.1 ha
    exact hwords _ (List.mem_append_right ["src", "alt"] (fst_of_mem_sizesOf n hsize))

/-- **An image is inert exactly if its class name is quiet.** It has no style entries, and its
source and its text are escaped. -/
theorem inert_image_iff : Inert (image n) ↔ QuietName n.className := by
  have hblock := (plain_image n).inert_block_iff n.className "image" "figure" [picture n]
  exact hblock.trans (and_iff_left (inertAll_picture n))

theorem tidy_image : Tidy (image n) :=
  Appearance.tidy_namedBlock (plain_image n).not_endsIn_name n.className (by decide) (by decide)
    (tidyAll_picture n)

/-- A button before its class name. -/
theorem plain_buttonAppearance (variant : Variant) : (buttonAppearance variant).Plain := by
  have hkeys : ∀ key ∈ ["backgroundColor", "textColor", "style", "border", "width"],
      ¬EndsIn key := by decide
  have hwords : ∀ word ∈ ["primary", "secondary", "background", "2px", "solid"], ¬EndsIn word := by
    decide
  cases variant <;>
    exact .of_constant (by simp [Appearance.Constant, hkeys, hwords]) (by simp) (by decide)

/-- The style of a button comes from the program. -/
theorem not_beginsIn_buttonStyle (variant : Variant) :
    ∀ x ∈ (Style.within (buttonAppearance variant).attributes).inlineAttribute, ¬BeginsIn x.2 := by
  cases variant <;> decide

/-- The link of a button. -/
def buttonLink (a : Appearance) : Markup :=
  .element "a"
    (Markup.classAttribute a.classes ++ [escaped "href" (orElse n.attributes.href "#")]
      ++ (Style.within a.attributes).inlineAttribute)
    [contentOf n]

/-- A row of buttons around the markup of one of them. -/
def buttonRow (block : Markup) : Markup :=
  .block "buttons" []
    [.element "div" [("class", "wp-block-buttons is-layout-flex")] [.newline, block, .newline]]

/-- A button with an appearance. -/
def buttonBlock (a : Appearance) : Markup :=
  .block "button" a.attributes
    [.element "div" [("class", "wp-block-button")] [buttonLink n a]]

/-- The markup of a button, taken apart into a row, a block and a link, which the lemmas below look
at one by one. -/
theorem button_eq :
    button n = buttonRow (buttonBlock n
      ((buttonAppearance (n.attributes.variant.getD .primary)).named n.className)) := rfl

/-- The row around a button adds nothing that could end or begin a comment. -/
theorem inert_buttonRow_iff {block : Markup} : Inert (buttonRow block) ↔ Inert block := by
  have hclass : ¬BeginsIn "wp-block-buttons is-layout-flex" := by decide
  simp [buttonRow, Inert, InertAll, Markup.newline, hclass]

theorem tidy_buttonRow {block : Markup} (h : Tidy block) : Tidy (buttonRow block) :=
   ⟨by decide, by simp,
    ⟨by decide, by decide, Markup.tidy_newline, h, Markup.tidy_newline, trivial⟩, trivial⟩

/-- The link of a button is inert exactly if its classes are: the address is escaped, and the style
comes from the program. -/
theorem inert_buttonLink_iff (variant : Variant) (className : Option String) :
    Inert (buttonLink n ((buttonAppearance variant).named className))
      ↔ ∀ x ∈ Markup.classAttribute ((buttonAppearance variant).named className).classes,
          ¬BeginsIn x.2 := by
  have hstyle := not_beginsIn_buttonStyle variant
  simp only [buttonLink, Inert, Appearance.within_named, List.forall_mem_append,
    List.forall_mem_singleton, inertAll_contentOf]
  simp only [Markup.escaped, Markup.not_beginsIn_attributeValue, not_false_eq_true, and_true]
  exact and_iff_left hstyle

/-- **A button is inert exactly if its class name is quiet.** The name stands in its delimiter and
in the class of its link. -/
theorem inert_button_iff : Inert (button n) ↔ QuietName n.className := by
  have hclass : ¬BeginsIn "wp-block-button" := by decide
  have hplain := plain_buttonAppearance (n.attributes.variant.getD .primary)
  -- all but the class name comes from the program or is escaped
  rw [button_eq, inert_buttonRow_iff, ← hplain.quietName_iff n.className, ← inert_buttonLink_iff n]
  simp [buttonBlock, Inert, InertAll, hclass]

/-- A button is tidy: the attributes of its link have three names, all of which come from the
program. -/
theorem tidy_button : Tidy (button n) := by
  have hplain := plain_buttonAppearance (n.attributes.variant.getD .primary)
  have hnames : ∀ name ∈ ["class", "href", "style"], '<' ∉ String.toList name := by decide
  rw [button_eq]
  refine tidy_buttonRow ⟨by decide, Appearance.names_named hplain.not_endsIn_name n.className,
    ⟨by decide, by decide, ⟨by decide, ?_, tidyAll_contentOf n⟩, trivial⟩, trivial⟩
  -- the attributes are class, address and style, of which the first and the last may be missing
  rw [List.forall_mem_append, List.forall_mem_append, List.forall_mem_singleton]
  refine ⟨⟨fun x hx => ?_, hnames "href" (by simp)⟩, fun x hx => ?_⟩
  · exact hnames _ (by simp [Appearance.fst_of_mem_classAttribute hx])
  · exact hnames _ (by simp [Style.fst_of_mem_inlineAttribute hx])

/-- A list before its class name. -/
theorem plain_list (ordered : Bool) :
    Appearance.Plain ⟨if ordered then [("ordered", .bool true)] else [], ["wp-block-list"]⟩ := by
  have hkey : ¬EndsIn "ordered" := by decide
  cases ordered <;>
    exact .of_constant (by simp [Appearance.Constant, hkey]) (by simp) (by decide)

/-- An item of a list. -/
def listItem (item : String) : Markup := .element "li" [] [.data item]

/-- The items of a list are inert, since what they hold is escaped. Line breaks between them change
nothing. -/
theorem inertAll_listItems (items : List String) :
    InertAll ([.newline] ++ Markup.lines (items.map listItem) ++ [.newline]) := by
  rw [Markup.inertAll_framed, Markup.inertAll_iff, Markup.lines,
    Markup.forall_mem_intersperse trivial, List.forall_mem_map]
  exact fun item _ => ⟨by simp, trivial, trivial⟩

theorem tidyAll_listItems (items : List String) :
    TidyAll ([.newline] ++ Markup.lines (items.map listItem) ++ [.newline]) := by
  rw [Markup.tidyAll_framed, Markup.tidyAll_iff, Markup.lines,
    Markup.forall_mem_intersperse Markup.tidy_newline, List.forall_mem_map]
  exact fun item _ => ⟨by decide, by simp, Markup.tidy_data item, trivial⟩

/-- **A list is inert exactly if its class name is quiet**, whether its items are numbered or not.
The items are data and as such escaped. -/
theorem inert_list_iff : Inert (list n) ↔ QuietName n.className := by
  have hblock := (plain_list (n.attributes.ordered.getD false)).inert_block_iff n.className "list"
    (if n.attributes.ordered.getD false then "ol" else "ul")
    ([.newline] ++ Markup.lines ((n.attributes.items.getD []).map listItem) ++ [.newline])
  exact hblock.trans (and_iff_left (inertAll_listItems _))

theorem tidy_list : Tidy (list n) := by
  have htag : Markup.TidyTag (if n.attributes.ordered.getD false then "ol" else "ul") := by
    split <;> decide
  exact Appearance.tidy_namedBlock (plain_list _).not_endsIn_name n.className (by decide) htag
    (tidyAll_listItems _)

/-- **A spacer is always inert.** It takes over nothing but a size, one of five words. -/
theorem inert_spacer : Inert (spacer n) := by
  have hheight : ∀ size : Size, ¬EndsIn size.padding ∧ ¬BeginsIn ("height:" ++ size.padding) := by
    intro size
    cases size <;> decide
  have hwords : ∀ word ∈ ["true", "wp-block-spacer"], ¬BeginsIn word := by decide
  obtain ⟨hends, hbegins⟩ := hheight (n.attributes.padding.getD .medium)
  refine ⟨by simpa using hends, ⟨?_, trivial⟩, trivial⟩
  simp [hbegins, hwords]

theorem tidy_spacer : Tidy (spacer n) := by
  have hkey : ¬EndsIn "height" := by decide
  exact ⟨by decide, by simpa using hkey, ⟨by decide, by simp, trivial⟩, trivial⟩

/-- The style of a group comes from its entries, like that of other nodes. The gap is put last. -/
theorem groupStyle_eq : groupStyle n = Style.ofEntries n.groupEntries := by
  unfold groupStyle Node.groupEntries
  rw [Style.ofNode_eq_ofEntries]
  cases (n.style.getD []).usable? "gap" with
  | none => simp
  | some gap => simp [Style.ofEntries, Style.putEntry, List.foldl_append]

/-- No two entries of a group are for the same place of its style: those of a node are not, and the
gap has a place of its own. -/
theorem nodup_places_groupEntries : (Style.places n.groupEntries).Nodup := by
  have hgap := Style.places_toList ((n.style.getD []).usable? "gap")
    (fun gap => ⟨"spacing", "blockGap", .string gap, none⟩) ("spacing", "blockGap") fun _ => rfl
  rw [Node.groupEntries, Style.places_append, List.nodup_append]
  refine ⟨Style.nodup_places_ofNode _ _, hgap.nodup (by simp), ?_⟩
  -- no entry of a node sets a gap
  rintro place hown _ hin rfl
  obtain rfl := List.mem_singleton.1 (hgap.subset hin)
  obtain ⟨entry, hin, hplace⟩ := List.mem_map.1 hown
  cases Style.ofNode_of_mem hin with
  | typography hrow _ => simp at hplace
  | _ => simp [StyleEntry.textColor, StyleEntry.backgroundColor, StyleEntry.padding] at hplace

/-- Each entry of a group has a value that can be shown, the gap included. -/
theorem shown_groupEntries : ∀ entry ∈ n.groupEntries, Style.Shown entry := by
  rw [Node.groupEntries, List.forall_mem_append]
  refine ⟨shown_ofNode n, fun entry hin => ?_⟩
  obtain ⟨gap, hgap, rfl⟩ := Option.map_eq_some_iff.1 (Option.mem_toList.1 hin)
  exact .gap (Style.usable?_ne_empty hgap)

/-- **A group is inert exactly if its class name and its style are quiet and its children are
inert.** This is the one kind of node that has children. -/
theorem inert_group_iff (children : List Markup) :
    Inert (group n children)
      ↔ (QuietName n.className ∧ QuietEntries n.groupEntries)
        ∧ ∀ child ∈ children, Inert child := by
  have hblock := (Appearance.bare_group (groupFlow (n.style.getD []))).inert_block_iff
    (nodup_places_groupEntries n) (shown_groupEntries n) (not_beginsIn_classesOfNode n) n.className
    "group" "div" ([.newline] ++ Markup.spaced children ++ [.newline])
  rw [Markup.inertAll_framed, Markup.inertAll_spaced, ← groupStyle_eq] at hblock
  exact hblock

theorem tidy_group {children : List Markup} (h : ∀ child ∈ children, Tidy child) :
    Tidy (group n children) := by
  have hcontent : TidyAll ([.newline] ++ Markup.spaced children ++ [.newline]) :=
    Markup.tidyAll_framed.2 (Markup.tidyAll_spaced.2 h)
  have hblock := (Appearance.bare_group (groupFlow (n.style.getD []))).tidy_block
    (shown_groupEntries n) (Style.classesOfNode n.attributes n.style) n.className
    (show Markup.TidyName "group" by decide) (show Markup.TidyTag "div" by decide) hcontent
  rw [← groupStyle_eq] at hblock
  exact hblock

/-- A link of a navigation is inert: its address and its text are escaped. -/
theorem inert_navigationLink (link : Link) : Inert (navigationLink link) := by
  refine ⟨by simp, ⟨by simp, ⟨?_, trivial, trivial⟩, trivial⟩, trivial⟩
  simp [Markup.escaped, Markup.not_beginsIn_attributeValue]

theorem tidy_navigationLink (link : Link) : Tidy (navigationLink link) := by
  refine ⟨by decide, by simp, ⟨by decide, by simp, ⟨by decide, ?_, ?_, trivial⟩, trivial⟩, trivial⟩
  · simp [Markup.escaped]
  · exact Markup.tidy_data link.text

/-- **A navigation is inert exactly if its class name is quiet**, whatever links it has: their
addresses and labels are escaped. -/
theorem inert_navigation_iff : Inert (navigation n) ↔ QuietName n.className := by
  have hblock := (Appearance.bare_group .flex).toPlain.inert_block_iff n.className "group" "div"
    ([.newline] ++ Markup.spaced ((n.attributes.links.getD []).map navigationLink) ++ [.newline])
  refine hblock.trans (and_iff_left ?_)
  rw [Markup.inertAll_framed, Markup.inertAll_spaced, List.forall_mem_map]
  exact fun link _ => inert_navigationLink link

theorem tidy_navigation : Tidy (navigation n) := by
  refine Appearance.tidy_namedBlock (Appearance.bare_group .flex).not_endsIn_name n.className
    (by decide) (by decide) ?_
  rw [Markup.tidyAll_framed, Markup.tidyAll_spaced, List.forall_mem_map]
  exact fun link _ => tidy_navigationLink link

/-- **The remark for a node ends early exactly if its type ends a comment.** The type of such a node
is any text, and it stands in the remark as it is. -/
theorem inert_placeholder_iff : Inert (placeholder n) ↔ ¬EndsIn n.type := by
  have hlist : ("Unsupported node type: " ++ n.type).toList
      = "Unsupported node type:".toList ++ ' ' :: n.type.toList := by
    simp
  -- the blank before the type is no part of an end
  have hintro : ¬Comment.closing <:+: "Unsupported node type:".toList := by decide
  rw [placeholder, Inert, EndsIn, hlist, Text.infix_append_cons (by decide) (by decide), EndsIn,
    or_iff_right hintro]

/-- The remark for a node is tidy: it begins with a word of the program, so that it does not look
like a delimiter. -/
theorem tidy_placeholder : Tidy (placeholder n) := by
  have hlist : ("Unsupported node type: " ++ n.type).toList
      = 'U' :: ("nsupported node type: ".toList ++ n.type.toList) := by
    simp
  rw [placeholder, Tidy, Markup.TidyWords, hlist]
  simp [List.cons_prefix_cons]

end Render

end BlockTheme
