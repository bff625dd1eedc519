import BlockTheme.Proofs.Markup.Blocks
import BlockTheme.Proofs.Render.Delimiters
import BlockTheme.Proofs.Style.Agreement

/-!
# Styles in templates

A block carries a style object in its delimiter, and an element of it has a style attribute. In
every block of the templates but the spacers, the attribute is the one of the object
(`Markup.Matched`), and the single values of the object are no objects. So it is also the attribute of
the object that is written, from which the parts that say nothing are gone
(`styles_match_delimiters`).
-/

namespace BlockTheme

/-! ## Pieces whose elements match their delimiters -/

namespace Markup

/-- The style of block attributes, if they have one. -/
def styleMember (attributes : Fields) : Json := (attributes.get? "style").getD .null

/-- A block whose elements have the style attributes of the style in its delimiter. The style
attribute of a spacer is no style in this sense. -/
def Block.Matched (b : Block) : Prop :=
  b.name = "spacer"
    ∨ Style.inline? (styleMember b.attributes) = .ok (stylesAll b.content)
      ∧ (Style.within b.attributes).SingleValued

/-- A piece with style attributes only in its blocks, which are matched. -/
def Matched (piece : Markup) : Prop := styles piece = [] ∧ ∀ b ∈ blocks piece, b.Matched

/-- A text has no blocks and no style, so there is nothing to match. -/
theorem matched_text (written : String) : Matched (.text written) :=
  ⟨rfl, by simp [blocks]⟩

theorem matched_newline : Matched newline := matched_text "\n"

/-- An element without content is matched if it has no style attribute. Only the elements right
inside a block may have one. -/
theorem matched_void {tag : String} {attributes : List (String × String)}
    (h : styleOf attributes = []) : Matched (.void tag attributes) :=
  ⟨h, by simp [blocks]⟩

section Content

variable {content : List Markup} (hcontent : ∀ piece ∈ content, Matched piece)
include hcontent

theorem forall_matched_blocksAll : ∀ b ∈ blocksAll content, b.Matched := by
  intro b hb
  obtain ⟨piece, hin, hb⟩ := mem_blocksAll.1 hb
  exact (hcontent piece hin).2 b hb

/-- An element around matched pieces is matched if it has no style attribute of its own. -/
theorem matched_element {tag : String} {attributes : List (String × String)}
    (h : styleOf attributes = []) : Matched (.element tag attributes content) := by
  refine ⟨?_, forall_matched_blocksAll hcontent⟩
  rw [styles, h, stylesAll_eq_nil fun piece hin => (hcontent piece hin).1, List.nil_append]

/-- **A block with one element between its delimiters** is matched if that element has the style
attribute of the style in the delimiter. What is inside the element is matched by itself. -/
theorem matched_block_element {name tag : String} {fields : Fields}
    {attributes : List (String × String)}
    (hstyle : Style.inline? (styleMember fields) = .ok (styleOf attributes))
    (hsingle : (Style.within fields).SingleValued) :
    Matched (.block name fields [.element tag attributes content]) := by
  -- no other style attribute is there before the first inner block
  have hstyles : stylesAll [.element tag attributes content] = styleOf attributes := by
    rw [stylesAll, styles, stylesAll_eq_nil fun piece hin => (hcontent piece hin).1, stylesAll,
      List.append_nil, List.append_nil]
  refine ⟨rfl, List.forall_mem_cons.2 ⟨Or.inr ⟨hstyles ▸ hstyle, hsingle⟩, ?_⟩⟩
  rw [blocksAll, blocks, blocksAll, List.append_nil]
  exact forall_matched_blocksAll hcontent

/-- Line breaks around matched pieces leave all of them matched. -/
theorem forall_matched_framed : ∀ piece ∈ [newline] ++ content ++ [newline], Matched piece := by
  rw [List.forall_mem_append, List.forall_mem_append]
  exact ⟨⟨by simpa using matched_newline, hcontent⟩, by simpa using matched_newline⟩

theorem forall_matched_spaced :
    ∀ piece ∈ [newline] ++ spaced content ++ [newline], Matched piece :=
  forall_matched_framed ((forall_mem_intersperse (matched_text "\n\n") content).2 hcontent)

end Content

theorem styleOf_classAttribute (classes : List String) : styleOf (classAttribute classes) = [] := by
  unfold classAttribute
  split <;> rfl

/-- The style attribute of a style is one, if there is any. -/
theorem styleOf_inlineAttribute (style : Style) :
    styleOf style.inlineAttribute = style.inlineAttribute := by
  unfold Style.inlineAttribute
  split <;> rfl

/-- The style attributes among attributes are found in order. -/
theorem styleOf_append (a b : List (String × String)) :
    styleOf (a ++ b) = styleOf a ++ styleOf b := List.filter_append ..

/-- **Of the attributes of an element the style attribute is that of its style.** The other one is
the class attribute. -/
theorem styleOf_elementAttributes (a : Appearance) :
    styleOf a.elementAttributes = (Style.within a.attributes).inlineAttribute := by
  rw [Appearance.elementAttributes, styleOf_append, styleOf_classAttribute, List.nil_append,
    styleOf_inlineAttribute]

end Markup

open Markup (Matched styleMember)

/-! ## Appearances -/

namespace Appearance

variable {a : Appearance}

/-- A class name does not change the style in the delimiter. -/
theorem styleMember_named (a : Appearance) (className : Option String) :
    styleMember (a.named className).attributes = styleMember a.attributes := by
  cases className with
  | none => rfl
  | some name =>
    rw [named]
    split
    · rfl
    · simp [styleMember, addClasses, set, Fields.get?_set]

theorem within_eq_nil (h : a.attributes.get? "style" = none) : Style.within a.attributes = [] := by
  rw [Style.within, h]
  rfl

/-- A block without a style, with a class name of the document. Neither its delimiter nor its
element has a style then. -/
theorem matched_namedBlock (h : a.attributes.get? "style" = none) (className : Option String)
    (name tag : String) {content : List Markup} (hcontent : ∀ piece ∈ content, Matched piece) :
    Matched (.block name (a.named className).attributes
      [.element tag (Markup.classAttribute (a.named className).classes) content]) := by
  refine Markup.matched_block_element hcontent ?_ ?_
  · rw [styleMember_named, Markup.styleOf_classAttribute, styleMember, h]
    rfl
  · rw [within_named, within_eq_nil h]
    decide

/-- **A block with entries and a class name of the document.** The style that is put into the
delimiter is the same one that the style attribute is made of, and grouping its entries changes
nothing in it. -/
theorem matched_styledBlock (h : a.attributes.get? "style" = none) {entries : List StyleEntry}
    (hplaces : (Style.places entries).Nodup) (hshown : ∀ entry ∈ entries, Style.Shown entry)
    (more : List String) (className : Option String) (name tag : String) {content : List Markup}
    (hcontent : ∀ piece ∈ content, Matched piece) :
    Matched (.block name (a.styled (Style.ofEntries entries) more className).attributes
      [.element tag (a.styled (Style.ofEntries entries) more className).elementAttributes
        content]) := by
  refine Markup.matched_block_element hcontent ?_ ?_
  · rw [Markup.styleOf_elementAttributes, within_styled h, styled, styleMember_named,
      ← (Style.grouped_ofEntries entries).inline?_eq]
    show Style.inline? (styleMember (a.setStyle (Style.ofEntries entries)).attributes) = _
    -- an empty style is not put into the delimiter at all
    unfold setStyle
    split
    · next hempty =>
      rw [List.isEmpty_iff.1 hempty, styleMember, h]
      rfl
    · simp [styleMember, set, Fields.get?_set]
  · rw [within_styled h]
    exact Style.singleValued_ofEntries hplaces hshown

end Appearance

/-! ## Nodes -/

namespace Render

variable (tokens : Tokens) (n : Node)

theorem forall_matched_contentOf : ∀ piece ∈ [contentOf n], Matched piece := by
  rw [List.forall_mem_singleton]
  exact Markup.matched_text _

/-- A heading is matched. It gets its style from entries, like a paragraph and a group. -/
theorem matched_heading : Matched (heading tokens n) :=
  Appearance.matched_styledBlock (bare_headingText tokens n _).style_eq_none
    (Style.nodup_places_ofNode _ _) (shown_ofNode n) _ n.className _ _ (forall_matched_contentOf n)

theorem matched_paragraph : Matched (paragraph tokens n) :=
  Appearance.matched_styledBlock (bare_paragraphText tokens n).style_eq_none
    (Style.nodup_places_ofNode _ _) (shown_ofNode n) _ n.className _ _ (forall_matched_contentOf n)

/-- A picture has no style attribute. Its attributes are a source, a description and up to two
sizes. -/
theorem styleOf_picture :
    Markup.styleOf ([Markup.escaped "src" (n.attributes.src.getD ""),
        Markup.escaped "alt" (n.attributes.alt.getD "")]
      ++ (sizesOf n).map fun size => (size.1, String.ofList (Json.displayNumber size.2))) = [] := by
  have hsizes : ∀ name ∈ ["width", "height"], name ≠ "style" := by decide
  rw [Markup.styleOf_append, List.append_eq_nil_iff]
  refine ⟨rfl, List.filter_eq_nil_iff.2 fun given hgiven => ?_⟩
  obtain ⟨size, hsize, rfl⟩ := List.mem_map.1 hgiven
  simpa using hsizes _ (fst_of_mem_sizesOf n hsize)

theorem matched_image : Matched (image n) := by
  refine Appearance.matched_namedBlock ?_ n.className _ _ ?_
  · refine Fields.get?_eq_none_of_forall ?_
    -- neither its own fields nor its sizes are called style
    rw [List.forall_mem_append]
    have hsizes : ∀ name ∈ ["width", "height"], name ≠ "style" := by decide
    refine ⟨by simp, fun field hfield => ?_⟩
    obtain ⟨size, hsize, rfl⟩ := List.mem_map.1 hfield
    exact hsizes _ (fst_of_mem_sizesOf n hsize)
  · rw [List.forall_mem_singleton]
    exact Markup.matched_void (styleOf_picture n)

/-- The style of a button comes from the program. -/
theorem inline?_buttonAppearance (variant : Variant) :
    Style.inline? (styleMember (buttonAppearance variant).attributes)
        = .ok (Style.within (buttonAppearance variant).attributes).inlineAttribute
      ∧ (Style.within (buttonAppearance variant).attributes).SingleValued := by
  cases variant <;> exact ⟨rfl, by decide⟩

/-- **A button is matched.** Its style is one of the few that come from the program, and it is on
the link inside the element, so that the lemma for blocks with one element does not apply. -/
theorem matched_button : Matched (button n) := by
  obtain ⟨hstyle, hsingle⟩ := inline?_buttonAppearance (n.attributes.variant.getD .primary)
  -- of all attributes of the link and its wrapper only the style is one
  have hlink : ∀ a : Appearance, Markup.stylesAll [.element "div" [("class", "wp-block-button")]
      [buttonLink n a]] = (Style.within a.attributes).inlineAttribute := by
    intro a
    have hhref : Markup.styleOf [Markup.escaped "href" (orElse n.attributes.href "#")] = [] := rfl
    have hclass : Markup.styleOf [("class", "wp-block-button")] = [] := rfl
    have hcontent : Markup.styles (contentOf n) = [] := rfl
    simp only [Markup.stylesAll, Markup.styles, buttonLink, Markup.styleOf_append,
      Markup.styleOf_classAttribute, Markup.styleOf_inlineAttribute, hhref, hclass, hcontent,
      List.nil_append, List.append_nil]
  -- the style in the comment is the one that the link has
  have hblock : Matched (buttonBlock n
      ((buttonAppearance (n.attributes.variant.getD .primary)).named n.className)) := by
    refine ⟨rfl, List.forall_mem_singleton.2 (Or.inr ⟨?_, ?_⟩)⟩
    · rw [hlink, Appearance.styleMember_named, Appearance.within_named, hstyle]
    · rwa [Appearance.within_named]
  have hnewline := Markup.matched_newline
  rw [button_eq]
  refine Markup.matched_block_element ?_ rfl (by decide)
  simp only [List.forall_mem_cons]
  exact ⟨hnewline, hblock, hnewline, List.forall_mem_nil _⟩

theorem matched_listItem (item : String) : Matched (listItem item) :=
  Markup.matched_element (List.forall_mem_singleton.2 (Markup.matched_text _)) rfl

/-- A list is matched: it has no style, and its items hold only texts. -/
theorem matched_list : Matched (list n) := by
  refine Appearance.matched_namedBlock ?_ n.className _ _ (Markup.forall_matched_framed ?_)
  · dsimp only
    split <;> rfl
  · refine (Markup.forall_mem_intersperse Markup.matched_newline _).2 (List.forall_mem_map.2 ?_)
    exact fun item _ => matched_listItem item

/-- A spacer is matched by being one. Its style attribute is its height and not taken from a style.
-/
theorem matched_spacer : Matched (spacer n) :=
  ⟨rfl, List.forall_mem_singleton.2 (Or.inl rfl)⟩

theorem matched_group {children : List Markup} (h : ∀ child ∈ children, Matched child) :
    Matched (group n children) := by
  have hblock := Appearance.matched_styledBlock
    (Appearance.bare_group (groupFlow (n.style.getD []))).style_eq_none
    (nodup_places_groupEntries n) (shown_groupEntries n)
    (Style.classesOfNode n.attributes n.style) n.className "group" "div"
    (Markup.forall_matched_spaced h)
  rw [← groupStyle_eq] at hblock
  exact hblock

theorem matched_navigationLink (link : Link) : Matched (navigationLink link) :=
  Markup.matched_block_element (List.forall_mem_singleton.2 (Markup.matched_element
    (List.forall_mem_singleton.2 (Markup.matched_text _)) rfl)) rfl (by decide)

theorem matched_navigation : Matched (navigation n) :=
  Appearance.matched_namedBlock (Appearance.bare_group .flex).style_eq_none n.className _ _
    (Markup.forall_matched_spaced (List.forall_mem_map.2 fun link _ => matched_navigationLink link))

/-- **The markup of a node is matched if that of its children is**, for every type a node can have.
An unknown type is written as a comment and has no style. -/
theorem matched_node {children : List Markup} (h : ∀ child ∈ children, Matched child) :
    Matched (node tokens n children) := by
  -- one case for each type, the last one for types that are not known
  unfold node
  split
  · exact matched_heading tokens n
  · exact matched_paragraph tokens n
  · exact matched_image n
  · exact matched_button n
  · exact matched_list n
  · exact matched_spacer n
  · exact matched_group n h
  · exact matched_navigation n
  · exact ⟨rfl, by simp [placeholder, Markup.blocks]⟩

end Render

namespace Node

mutual

/-- The markup of a node is matched. By induction on the node; only groups show their children. -/
theorem matched_markup (tokens : Tokens) : ∀ node : Node, Matched (node.markup tokens)
  | ⟨type, content, attributes, children, motion, style, className⟩ => by
    rw [markup]
    exact Render.matched_node tokens _ (matched_markupIn tokens children)

theorem matched_markupIn (tokens : Tokens) :
    ∀ children : Option (List Node), ∀ child ∈ markupIn tokens children, Matched child
  | none => by simp [markupIn]
  | some nodes => matched_markupAll tokens nodes

theorem matched_markupAll (tokens : Tokens) :
    ∀ nodes : List Node, ∀ piece ∈ markupAll tokens nodes, Matched piece
  | [] => by simp [markupAll]
  | node :: rest => by
    rw [markupAll, List.forall_mem_cons]
    exact ⟨matched_markup tokens node, matched_markupAll tokens rest⟩

end

end Node

/-! ## Sections -/

namespace Render

variable (tokens : Tokens) (s : Section)

/-- A column is matched: it has no style, and holds nodes. -/
theorem matched_column (nodes : List Node) : Matched (column tokens nodes) :=
  Markup.matched_block_element
    (Markup.forall_matched_spaced (Node.matched_markupAll tokens nodes)) rfl (by decide)

/-- The gap of columns comes from the program. -/
theorem matched_columnsBlock (gap : Option Gap) :
    Matched (columnsBlock tokens s (columnsStyle gap)) := by
  refine Markup.matched_block_element
    (Markup.forall_matched_spaced (List.forall_mem_map.2 fun nodes _ =>
      matched_column tokens nodes)) ?_ ?_
  · rw [Markup.styleOf_append, Markup.styleOf_inlineAttribute]
    rcases gap with _ | _ | _ | _ <;> rfl
  · rcases gap with _ | _ | _ | _ <;> decide

theorem matched_gridBlock : Matched (gridBlock tokens s) :=
  Markup.matched_block_element
    (Markup.forall_matched_spaced (Node.matched_markupAll tokens s.children)) rfl (by decide)

/-- What a section has between its delimiters is matched, whatever its layout is: columns and grids
are blocks of their own, with styles of the program or none. -/
theorem forall_matched_layout :
    ∀ piece ∈ [Markup.newline] ++ layout tokens s ++ [Markup.newline], Matched piece := by
  refine Markup.forall_matched_framed ?_
  cases hkind : s.layout.kind with
  | columns =>
    rw [layout_columns tokens s hkind, List.forall_mem_singleton]
    exact matched_columnsBlock tokens s _
  | grid =>
    rw [layout, hkind]
    exact List.forall_mem_singleton.2 (matched_gridBlock tokens s)
  | fullWidth | constrained =>
    rw [layout, hkind]
    exact (Markup.forall_mem_intersperse (Markup.matched_text _) _).2
      (Node.matched_markupAll tokens s.children)

/-- A cover is matched. Its image and what is laid over it have no style attributes. -/
theorem matched_cover (url : String) : Matched (cover tokens s url) := by
  have hcontent : ∀ piece ∈ coverContent tokens s url, Matched piece := by
    have hspan : Matched (.element "span"
        [("aria-hidden", "true"), ("class", "wp-block-cover__background has-background-dim")] []) :=
      Markup.matched_element (List.forall_mem_nil _) rfl
    have himage : Matched (.void "img" [("class", "wp-block-cover__image-background"), ("alt", ""),
        Markup.escaped "src" url, ("data-object-fit", "cover")]) := Markup.matched_void rfl
    have hinner : Matched (.element "div" [("class", "wp-block-cover__inner-container")]
        ([.newline] ++ layout tokens s ++ [.newline])) :=
      Markup.matched_element (forall_matched_layout tokens s) rfl
    have hnewline := Markup.matched_newline
    simp only [coverContent, List.forall_mem_cons]
    exact ⟨hnewline, hspan, hnewline, himage, hnewline, hinner, hnewline, List.forall_mem_nil _⟩
  rw [cover_eq]
  exact Appearance.matched_namedBlock rfl s.className _ _ hcontent

/-- A section without an image behind it is matched: it is a group with entries of the section. -/
theorem matched_sectionGroup : Matched (sectionGroup tokens s) := by
  rw [sectionGroup_eq]
  exact Appearance.matched_styledBlock (bare_groupAppearance s).style_eq_none
    (nodup_places_wrapper _ _) (shown_wrapper _ _) [] s.className _ _
    (forall_matched_layout tokens s)

end Render

/-- **The markup of a section is matched.** It is a cover if it has an image behind it, and a group
otherwise. -/
theorem Section.matched_markup (tokens : Tokens) (s : Section) : Matched (s.markup tokens) := by
  unfold markup
  split
  · exact Render.matched_cover tokens s _
  · exact Render.matched_sectionGroup tokens s

/-! ## Templates -/

namespace Document

variable (document : Document)

/-- **All templates of a document are matched**, the index with its parts as well as the header and
the footer. -/
theorem matched_templates :
    ∀ template ∈ document.templates.written, ∀ piece ∈ template.1, Matched piece := by
  have hpart : ∀ (has : Bool) (area : String),
      ∀ piece ∈ (if has then [Render.templatePart area] else []), Matched piece := by
    intro has area
    have harea : Matched (Render.templatePart area) := ⟨rfl, List.forall_mem_nil _⟩
    cases has <;> simp [harea]
  -- the index: the header, if there is one, the sections, and the footer
  have hindex : ∀ piece ∈ document.templates.index, Matched piece := by
    refine (Markup.forall_mem_intersperse (Markup.matched_text _) _).2 ?_
    rw [List.forall_mem_append, List.forall_mem_append, List.forall_mem_map]
    exact ⟨⟨hpart _ _, fun s _ => s.matched_markup _⟩, hpart _ _⟩
  rw [Templates.written, List.forall_mem_cons, List.forall_mem_map]
  refine ⟨hindex, fun part hin => List.forall_mem_singleton.2 ?_⟩
  simp only [templates, List.mem_append, Option.mem_toList, Option.map_eq_some_iff] at hin
  rcases hin with ⟨s, -, rfl⟩ | ⟨s, -, rfl⟩
  · exact s.matched_markup _
  · exact s.matched_markup _

/-- The blocks of templates have different keys in their attributes. -/
theorem keyed_of_mem_blocksAll {template : List Markup × String}
    (htemplate : template ∈ document.templates.written) {b : Markup.Block}
    (hb : b ∈ Markup.blocksAll template.1) : b.attributes.Keyed := by
  have hregular := (document.regular_templates_iff (P := fun _ => True) fun _ _ => trivial).2
    fun _ _ _ _ _ _ _ => trivial
  exact (hregular template htemplate _ (Markup.delimiter_mem_headsAll hb)).1

/-- **The style attributes of templates are those of the styles that are written.** A block and the
element in it come from one appearance, so that neither can have a style without the other. -/
theorem stylesAll_block {template : List Markup × String}
    (htemplate : template ∈ document.templates.written) {b : Markup.Block}
    (hb : b ∈ Markup.blocksAll template.1) (hname : b.name ≠ "spacer") :
    Style.inline? (styleMember b.attributes.clean) = .ok (Markup.stylesAll b.content) := by
  have hmatched := Markup.forall_matched_blocksAll
    (document.matched_templates template htemplate) b hb
  obtain ⟨hstyle, hsingle⟩ := hmatched.resolve_left hname
  rw [← hstyle]
  exact Style.inline?_get?_clean (document.keyed_of_mem_blocksAll htemplate hb) hsingle

end Document

/-- **The style attribute matches the style that is written.** If no single value of a style is an
object, the cleaned style has the same attribute, and so has every style with the members of its
objects in another order; a style of the wrong form has none after these changes either. Hence in
every block of the templates of a document but the spacers, the style attributes of the elements in
it, without those in inner blocks, are the attribute of the style in the cleaned attributes of its
delimiter. -/
theorem styles_match_delimiters :
    (∀ style : Style, Fields.Keyed style → style.SingleValued →
        Style.inline? (.object style.clean) = Style.inline? (.object style)
          ∧ ∀ other : Style, Json.Reordered (.object style) (.object other) →
              Style.inline? (.object other) = Style.inline? (.object style))
      ∧ ∀ document : Document, ∀ template ∈ document.templates.written,
          ∀ b ∈ Markup.blocksAll template.1,
            Markup.write b.piece <:+: template.2.toList
              ∧ (b.name ≠ "spacer" →
                  Style.inline? (styleMember b.attributes.clean)
                    = .ok (Markup.stylesAll b.content)) := by
  refine ⟨fun style hkeyed hsingle => ⟨(Style.agree_clean hkeyed hsingle).inline?_eq, ?_⟩, ?_⟩
  · exact fun other hother => (Style.agree_of_reordered hother hkeyed hsingle).inline?_eq.symm
  · refine fun document template htemplate b hb => ⟨?_, document.stylesAll_block htemplate hb⟩
    rw [Templates.toList_of_mem_written htemplate]
    exact Markup.infix_writeAll_of_mem_blocksAll hb

/-- A style with parts that say nothing. -/
def gappedStyle : Style :=
  [("color", .object [("gradient", .null), ("text", .string "red")]),
    ("spacing", .object [("padding", .object [("top", .string "")]),
      ("blockGap", .object [("left", .string "1em")])])]

/-- The same style in another order. -/
def turnedStyle : Style :=
  [("spacing", .object [("blockGap", .object [("left", .string "1em")]),
      ("padding", .object [("top", .string "")])]),
    ("color", .object [("gradient", .null), ("text", .string "red")])]

/-- A page with a red heading. -/
def redDocument : Document where
  metadata := ⟨"", none, none⟩
  tokens := { colors := { primary := "", secondary := "", background := "", foreground := "" } }
  header := none
  body := [⟨"generic", ⟨.constrained, none, none, none, none⟩,
    [⟨"heading", none, { textColor := some "red" }, none, none, none, none⟩], none, none, none,
    none⟩]
  footer := none
  stylesheet := none

/-- The heading of this page. -/
def redHeading : Markup.Block :=
  ⟨"heading",
    [("level", .nat 2), ("style", .object [("color", .object [("text", .string "red")])])],
    [.element "h2" [("class", "wp-block-heading has-text-color"), ("style", "color:red")]
      [.text ""]]⟩

/-- The index of this page holds the heading after the group around it. -/
theorem redHeading_mem :
    redHeading ∈ Markup.blocksAll redDocument.templates.index := by
  have hblocks : Markup.blocksAll redDocument.templates.index = [_, redHeading] := rfl
  rw [hblocks]
  exact List.mem_cons_of_mem _ List.mem_cons_self

/-- The two styles differ in the order of two members, once on the outside and once further in. -/
theorem reordered_gappedStyle : Json.Reordered (.object gappedStyle) (.object turnedStyle) := by
  have hspacing : Json.Reordered
      (.object [("padding", .object [("top", .string "")]),
        ("blockGap", .object [("left", .string "1em")])])
      (.object [("blockGap", .object [("left", .string "1em")]),
        ("padding", .object [("top", .string "")])]) :=
    .object (.cons (.same _) (.cons (.same _) .nil)) (.swap _ _ _)
  exact .object (.cons (.same _) (.cons hspacing .nil)) (.swap _ _ _)

/-- A style with gaps in either order, and a page with a red heading. -/
theorem styles_match_delimiters_redHeading :
    Style.inline? (.object gappedStyle.clean) = .ok [("style", "color:red;gap:1em")]
      ∧ Style.inline? (.object turnedStyle) = .ok [("style", "color:red;gap:1em")]
      ∧ Style.inline? (styleMember redHeading.attributes.clean) = .ok [("style", "color:red")] := by
  have hkeyed : Fields.Keyed gappedStyle := by
    simp [gappedStyle, Fields.Keyed, Json.Keyed, Json.KeyedMembers, Fields.keys]
  have hstyle : Style.inline? (.object gappedStyle) = .ok [("style", "color:red;gap:1em")] := rfl
  obtain ⟨hall, htemplates⟩ := styles_match_delimiters
  obtain ⟨hclean, hother⟩ := hall gappedStyle hkeyed (by decide)
  have hheading :=
    (htemplates redDocument _ List.mem_cons_self redHeading redHeading_mem).2 (by decide)
  exact ⟨hclean.trans hstyle, (hother turnedStyle reordered_gappedStyle).trans hstyle, hheading⟩

end BlockTheme
