import BlockTheme.Proofs.Markup.Heads
import BlockTheme.Proofs.Render.Templates

/-!
# The heads of templates

The heads of a template are the own heads of its sections and of the nodes that they show
(`Document.forall_heads_templates_iff`); every node has the heads of its kind, whatever stands around
it (`Node.heads_markup`). What holds of all heads can so be told from the sections and the nodes.
-/

namespace BlockTheme

open Markup (Head heads headsAll escaped)

/-! ## Kinds of nodes -/

namespace Render

variable (n : Node)

theorem headsAll_contentOf : headsAll [contentOf n] = [] := rfl

/-- An image is one element with its source, its text and its sizes. -/
theorem headsAll_picture :
    headsAll [picture n]
      = [.tag "img"
          ([escaped "src" (n.attributes.src.getD ""), escaped "alt" (n.attributes.alt.getD "")]
            ++ (sizesOf n).map fun size => (size.1, String.ofList (Json.displayNumber size.2)))
          true] := rfl

theorem heads_button :
    heads (button n)
      = let a := (buttonAppearance (n.attributes.variant.getD .primary)).named n.className
        [.delimiter "buttons" [], .tag "div" [("class", "wp-block-buttons is-layout-flex")] false,
          .delimiter "button" a.attributes, .tag "div" [("class", "wp-block-button")] false,
          .tag "a" (Markup.classAttribute a.classes
            ++ [escaped "href" (orElse n.attributes.href "#")]
            ++ (Style.within a.attributes).inlineAttribute) false] := rfl

theorem headsAll_listItems (items : List String) :
    headsAll ([.newline] ++ Markup.lines (items.map listItem) ++ [.newline])
      = items.map fun _ => .tag "li" [] false := by
  rw [Markup.headsAll_framed, Markup.lines, Markup.headsAll_intersperse rfl,
    Markup.headsAll_eq_flatMap, List.flatMap_map]
  exact List.map_eq_flatMap.symm

/-- A link of a navigation is a paragraph with an element for the address. -/
theorem headsAll_navigationLinks (links : List Link) :
    headsAll ([.newline] ++ Markup.spaced (links.map navigationLink) ++ [.newline])
      = links.flatMap fun link => [.delimiter "paragraph" [], .tag "p" [] false,
          .tag "a" [escaped "href" link.href] false] := by
  rw [Markup.headsAll_framed, Markup.headsAll_spaced, Markup.headsAll_eq_flatMap, List.flatMap_map]
  rfl

end Render

/-! ## Nodes -/

/-- The heads of a node without those of its children. -/
def Node.ownHeads (tokens : Tokens) (node : Node) : List Head := heads (Render.node tokens node [])

/-- The heads of a group are its own, then those of its children. -/
theorem Render.heads_group (n : Node) (children : List Markup) :
    heads (group n children) = heads (group n []) ++ headsAll children := by
  rw [group, group, Markup.heads_block_element, Markup.heads_block_element,
    Markup.headsAll_framed, Markup.headsAll_framed, Markup.headsAll_spaced, Markup.headsAll_spaced]
  rfl

/-- The heads of a node are its own, and those of its children if it is a group. -/
theorem Render.heads_node (tokens : Tokens) (n : Node) (children : List Markup) :
    heads (node tokens n children)
      = n.ownHeads tokens ++ if n.kind? = some .group then headsAll children else [] := by
  unfold Node.ownHeads node
  cases hkind : n.kind? with
  | none => simp
  | some kind =>
    cases kind with
    | group => exact heads_group n children
    | _ => simp

namespace Node

mutual

/-- **The heads of a node are the own heads of the nodes that it shows.** By induction on the tree.
With this a statement about all heads of a template is shown kind by kind, without going into the
tree again. -/
theorem heads_markup (tokens : Tokens) :
    ∀ node : Node, heads (node.markup tokens) = node.shown.flatMap (ownHeads tokens)
  | ⟨type, content, attributes, children, motion, style, className⟩ => by
    rw [markup, Render.heads_node, shown, List.flatMap_cons, headsAll_markupIn tokens children]
    split
    · rfl
    · rfl

theorem headsAll_markupIn (tokens : Tokens) :
    ∀ children : Option (List Node),
      headsAll (markupIn tokens children) = (shownIn children).flatMap (ownHeads tokens)
  | none => rfl
  | some nodes => headsAll_markupAll tokens nodes

/-- The heads of nodes are those of all that they show, one after the other. -/
theorem headsAll_markupAll (tokens : Tokens) :
    ∀ nodes : List Node,
      headsAll (markupAll tokens nodes) = (shownAll nodes).flatMap (ownHeads tokens)
  | [] => rfl
  | node :: rest => by
    rw [markupAll, headsAll, shownAll, List.flatMap_append, heads_markup tokens node,
      headsAll_markupAll tokens rest]

end

end Node

/-! ## Sections -/

namespace Render

/-- The heads of a cover before those of what stands in it. -/
def coverHeads (s : Section) (url : String) : List Head :=
  [.delimiter "cover" ((coverAppearance s url).named s.className).attributes,
    .tag "div" (Markup.classAttribute ((coverAppearance s url).named s.className).classes) false,
    .tag "span" [("aria-hidden", "true"),
      ("class", "wp-block-cover__background has-background-dim")] false,
    .tag "img" [("class", "wp-block-cover__image-background"), ("alt", ""),
      Markup.escaped "src" url, ("data-object-fit", "cover")] true,
    .tag "div" [("class", "wp-block-cover__inner-container")] false]

/-- The heads of the group around a section. -/
def sectionGroupHeads (s : Section) : List Head :=
  let a := (groupAppearance s).styled
    (Style.ofEntries (backgroundEntries s.background ++ paddingEntries s.layout.gap)) [] s.className
  [.delimiter "group" a.attributes, .tag "div" a.elementAttributes false]

/-- The heads of the wrapper of a section. -/
def wrapperHeads (s : Section) : List Head :=
  match s.background with
  | some ⟨.image, url⟩ => coverHeads s url
  | _ => sectionGroupHeads s

/-- The heads that the layout of a section puts around its children. -/
def layoutHeads (s : Section) : List Head :=
  match s.layout.kind with
  | .columns =>
    let style := columnsStyle s.layout.gap
    [.delimiter "columns" (if style.isEmpty then [] else [("style", .object style)]),
      .tag "div" ([("class", "wp-block-columns is-layout-flex")] ++ style.inlineAttribute) false]
  | .grid =>
    [.delimiter "group" [("layout", layoutOf .grid sectionGridColumnWidth)],
      .tag "div" [("class", "wp-block-group is-layout-grid")] false]
  | .fullWidth | .constrained => []

/-- The heads of a column. -/
def columnHeads : List Head :=
  [.delimiter "column" [], .tag "div" [("class", "wp-block-column is-layout-flow")] false]

/-- A column has heads of its own before those of its nodes. -/
theorem heads_column (tokens : Tokens) (nodes : List Node) :
    heads (column tokens nodes)
      = columnHeads ++ (Node.shownAll nodes).flatMap (Node.ownHeads tokens) := by
  rw [column, Markup.heads_block_element, Markup.headsAll_framed, Markup.headsAll_spaced,
    Node.headsAll_markupAll]
  rfl

variable (tokens : Tokens) (s : Section)

/-- The heads of the children of a section in their layout. Only columns put a head around each run
of children; the other layouts have one around all of them, or none. -/
theorem headsAll_layout :
    headsAll (layout tokens s)
      = layoutHeads s ++ match s.layout.kind with
        | .columns => (columnsOf s).flatMap fun nodes =>
            columnHeads ++ (Node.shownAll nodes).flatMap (Node.ownHeads tokens)
        | _ => (Node.shownAll s.children).flatMap (Node.ownHeads tokens) := by
  cases hkind : s.layout.kind with
  -- the columns are blocks of their own, with the nodes below them
  | columns =>
    rw [layout_columns tokens s hkind, layoutHeads, hkind]
    have hcolumns : headsAll ((columnsOf s).map (column tokens))
        = (columnsOf s).flatMap fun nodes =>
          columnHeads ++ (Node.shownAll nodes).flatMap (Node.ownHeads tokens) := by
      rw [Markup.headsAll_eq_flatMap, List.flatMap_map]
      exact List.flatMap_congr fun nodes _ => heads_column tokens nodes
    rw [headsAll, headsAll, columnsBlock, Markup.heads_block_element, Markup.headsAll_framed,
      Markup.headsAll_spaced, hcolumns, List.append_nil]
    rfl
  -- the grid is one block around all nodes
  | grid =>
    rw [layout, layoutHeads, hkind]
    show headsAll [gridBlock tokens s] = _
    rw [headsAll, headsAll, gridBlock, Markup.heads_block_element, Markup.headsAll_framed,
      Markup.headsAll_spaced, Node.headsAll_markupAll, List.append_nil]
    rfl
  -- and here there is no block
  | fullWidth | constrained =>
    rw [layout, layoutHeads, hkind]
    rw [Markup.headsAll_spaced, Node.headsAll_markupAll]
    rfl

theorem heads_cover (url : String) :
    heads (cover tokens s url) = coverHeads s url ++ headsAll (layout tokens s) := by
  have hcontent : headsAll (coverContent tokens s url)
      = (coverHeads s url).drop 2 ++ headsAll ([.newline] ++ layout tokens s ++ [.newline]) := by
    rw [coverContent]
    generalize [Markup.newline] ++ layout tokens s ++ [Markup.newline] = inner
    simp [headsAll, heads, Markup.newline, coverHeads]
  rw [cover_eq, Markup.heads_block_element, hcontent, Markup.headsAll_framed]
  rfl

theorem heads_sectionGroup :
    heads (sectionGroup tokens s) = sectionGroupHeads s ++ headsAll (layout tokens s) := by
  rw [sectionGroup_eq, Markup.heads_block_element, Markup.headsAll_framed]
  rfl

/-- The heads of a section are those of its wrapper, and those in it. -/
theorem heads_section :
    heads (s.markup tokens) = wrapperHeads s ++ headsAll (layout tokens s) := by
  unfold Section.markup wrapperHeads
  cases s.background with
  | none => exact heads_sectionGroup tokens s
  | some background =>
    obtain ⟨kind, url⟩ := background
    cases kind with
    | image => exact heads_cover tokens s url
    | color | gradient => exact heads_sectionGroup tokens s

end Render

/-- The heads of a section without those of the nodes in it and of the columns around them. -/
def Section.ownHeads (s : Section) : List Head := Render.wrapperHeads s ++ Render.layoutHeads s

/-- **All heads of a section**: its own, and those of the nodes that it shows. Columns add some that
are the same for all of them. -/
theorem Section.forall_heads_markup_iff {P : Head → Prop}
    (hcolumn : ∀ head ∈ Render.columnHeads, P head) (tokens : Tokens) (s : Section) :
    (∀ head ∈ heads (s.markup tokens), P head)
      ↔ (∀ head ∈ s.ownHeads, P head) ∧ ∀ node ∈ s.shown, ∀ head ∈ node.ownHeads tokens, P head := by
  rw [Render.heads_section, Render.headsAll_layout, ownHeads, ← List.append_assoc,
    List.forall_mem_append]
  refine and_congr_right fun _ => ?_
  unfold shown
  cases s.layout.kind with
  | columns =>
    simp only [List.forall_mem_flatMap, List.forall_mem_append]
    exact forall₂_congr fun nodes _ => and_iff_right hcolumn
  | grid | fullWidth | constrained => simp only [List.forall_mem_flatMap]

/-! ## Templates -/

/-- The heads of the references to the parts of a template. -/
def Render.partHeads : List Head := heads (templatePart "header") ++ heads (templatePart "footer")

/-- **All heads of the templates of a document.** What holds of the program's columns and of its
references to parts holds of all heads exactly if it holds of those of sections and of the nodes
that they show. -/
theorem Document.forall_heads_templates_iff {P : Head → Prop}
    (hcolumn : ∀ head ∈ Render.columnHeads, P head) (hpart : ∀ head ∈ Render.partHeads, P head)
    (document : Document) :
    (∀ template ∈ document.templates.written, ∀ head ∈ headsAll template.1, P head)
      ↔ ∀ s ∈ document.regions, (∀ head ∈ s.ownHeads, P head)
          ∧ ∀ node ∈ s.shown, ∀ head ∈ node.ownHeads document.tokens, P head := by
  obtain ⟨hheader, hfooter⟩ := List.forall_mem_append.1 hpart
  have hsections : ∀ sections : List Section,
      (∀ head ∈ headsAll (sections.map (Section.markup document.tokens)), P head)
        ↔ ∀ s ∈ sections, (∀ head ∈ s.ownHeads, P head)
          ∧ ∀ node ∈ s.shown, ∀ head ∈ node.ownHeads document.tokens, P head := by
    intro sections
    rw [Markup.headsAll_eq_flatMap, List.forall_mem_flatMap, List.forall_mem_map]
    exact forall₂_congr fun s _ => s.forall_heads_markup_iff hcolumn document.tokens
  -- besides its sections the index has references to header and footer
  have hindex : (∀ head ∈ headsAll document.templates.index, P head)
      ↔ ∀ head ∈ headsAll (document.body.map (Section.markup document.tokens)), P head := by
    show (∀ head ∈ headsAll (Render.index ..), P head) ↔ _
    rw [Render.index, Markup.headsAll_spaced, Markup.headsAll_append, Markup.headsAll_append,
      List.forall_mem_append, List.forall_mem_append]
    have hparts : ∀ (has : Bool) (area : String), (∀ head ∈ heads (Render.templatePart area), P head) →
        ∀ head ∈ headsAll (if has then [Render.templatePart area] else []), P head := by
      intro has area harea
      cases has
      · simp [headsAll]
      · simpa [headsAll] using harea
    exact ⟨fun h => h.1.2, fun h => ⟨⟨hparts _ _ hheader, h⟩, hparts _ _ hfooter⟩⟩
  -- header and footer are templates of their own, if they are there
  have hregion : ∀ region : Option Section,
      (∀ part ∈ (region.map (Section.markup document.tokens)).toList, ∀ head ∈ headsAll [part], P head)
        ↔ ∀ head ∈ headsAll (region.toList.map (Section.markup document.tokens)), P head := by
    intro region
    cases region <;> simp [headsAll]
  rw [Templates.written, List.forall_mem_cons, List.forall_mem_map, List.forall_mem_append, hindex]
  show (_ ∧ (∀ part ∈ (document.header.map _).toList, _) ∧ ∀ part ∈ (document.footer.map _).toList, _) ↔ _
  rw [hregion, hregion, hsections, hsections, hsections, regions, List.forall_mem_append,
    List.forall_mem_append]
  constructor
  · rintro ⟨hbody, hhead, hfoot⟩
    exact ⟨⟨hhead, hbody⟩, hfoot⟩
  · rintro ⟨⟨hhead, hbody⟩, hfoot⟩
    exact ⟨hbody, hhead, hfoot⟩

end BlockTheme
