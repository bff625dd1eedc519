import BlockTheme.Proofs.Chunks
import BlockTheme.Proofs.Document.Loaded
import BlockTheme.Proofs.Json.RoundTrip
import BlockTheme.Proofs.Render.Heads

/-!
# The attributes in the delimiters of templates

The attributes of a block are written as JSON, and of the numbers in them only the sizes of images
come from a document (`Document.regular_templates_iff`). A loaded document may give sizes that are not
finite, and the words for these are no strict JSON. So what stands in the delimiters is always read
back as the attributes that were given, cleaned, and it is strict JSON exactly if the sizes of the
images that are shown are finite (`Document.delimiters_strict_iff`).
-/

namespace BlockTheme

open Markup (Head heads headsAll)

variable {P : Number → Prop}

/-! ## Appearances -/

namespace Appearance

variable {a : Appearance}

/-- A style adds the numbers that are in the style. The conditions on numbers in this module are all
of one form, `Regular P`, so that what is shown for finite numbers and for short ones is shown once.
-/
theorem regular_setStyle (h : a.attributes.Regular P) {style : Style}
    (hstyle : Fields.Regular P style) : (a.setStyle style).attributes.Regular P := by
  unfold setStyle
  split
  · exact h
  · exact h.set "style" (Json.regular_object.2 hstyle)

theorem regular_named (h : a.attributes.Regular P) (className : Option String) :
    (a.named className).attributes.Regular P := by
  unfold named
  split
  · exact h
  · split
    · exact h
    · exact h.set "className" (Json.regular_string _)

/-- A style and a class name at once, as most kinds of nodes have them. -/
theorem regular_styled (h : a.attributes.Regular P) {entries : List StyleEntry}
    (hentries : ∀ entry ∈ entries, entry.value.Regular P) (more : List String)
    (className : Option String) :
    (a.styled (Style.ofEntries entries) more className).attributes.Regular P :=
  regular_named (a := (a.setStyle (Style.ofEntries entries)).addClasses more)
    (regular_setStyle h (Style.regular_ofEntries hentries)) className

/-- A class name adds no number. -/
theorem numbers_named (h : a.attributes.get? "className" = none) (className : Option String) :
    (a.named className).attributes.numbers = a.attributes.numbers := by
  unfold named
  split
  · rfl
  · split
    · rfl
    · show (a.attributes.set "className" _).numbers = _
      rw [Fields.set_eq_append h, Fields.numbers_append]
      simp

/-- The alignment and the size of a text are names of presets, and no numbers, so they add nothing
that would not be strict JSON. -/
theorem regular_setText (h : a.attributes.Regular P) (alignKey : String) (node : Node) :
    (Render.setText alignKey node a).attributes.Regular P := by
  -- either of the two is a text under a key, with a class beside it
  have hset : ∀ {a : Appearance}, a.attributes.Regular P → ∀ key value more,
      ((a.set key (.string value)).addClasses more).attributes.Regular P :=
    fun h key value _ => h.set key (Json.regular_string value)
  unfold Render.setText
  cases node.attributes.textAlign with
  | none =>
    cases node.attributes.fontSize with
    | none => exact h
    | some size => exact hset h _ _ _
  | some align =>
    cases node.attributes.fontSize with
    | none => exact hset h _ _ _
    | some size => exact hset (hset h _ _ _) _ _ _

theorem regular_setFont (h : a.attributes.Regular P) (role : String) (font : Option String) :
    (Render.setFont role font a).attributes.Regular P := by
  unfold Render.setFont
  split
  · exact h.set "fontFamily" (Json.regular_string role)
  · exact h

end Appearance

/-! ## Nodes -/

/-- A head whose attributes are regular, if it is that of a block. -/
def Markup.Head.Regular (P : Number → Prop) : Head → Prop
  | .tag _ _ _ => True
  | .delimiter _ attributes => attributes.Regular P

namespace Render

variable (tokens : Tokens) (n : Node)

/-- A block with one element between its delimiters. -/
theorem regular_block_element {name tag : String} {fields : Fields}
    {attributes : List (String × String)} {content : List Markup} :
    (∀ head ∈ heads (.block name fields [.element tag attributes content]), head.Regular P)
      ↔ fields.Regular P ∧ ∀ head ∈ headsAll content, head.Regular P := by
  rw [Markup.heads_block_element, List.forall_mem_cons, List.forall_mem_cons]
  exact and_congr_right fun _ => and_iff_right trivial

/-- The layout of a group is made of texts: the width of grid columns is written with its unit. -/
theorem regular_layout (flow : Flow) (width : String) :
    Fields.Regular P [("layout", layoutOf flow width)] := by
  cases flow <;> simp [layoutOf]

/-- Values of a free style are texts, and those for attributes are names of presets. -/
theorem regular_nodeStyle {a : Appearance} (h : a.attributes.Regular P) :
    (setNodeStyle (Style.ofNode n.attributes n.style) n a).attributes.Regular P :=
  Appearance.regular_styled h (fun _ hin => (Style.ofNode_of_mem hin).regular) _ n.className

/-- Of a group, gap and flow are added, which are texts as well. -/
theorem regular_groupEntries : ∀ entry ∈ n.groupEntries, entry.value.Regular P := by
  rw [Node.groupEntries, List.forall_mem_append]
  refine ⟨fun _ hin => (Style.ofNode_of_mem hin).regular, fun entry hin => ?_⟩
  obtain ⟨gap, -, rfl⟩ := Option.map_eq_some_iff.1 (Option.mem_toList.1 hin)
  exact Json.regular_string gap

/-- An image before its class name has the sizes of the node as its numbers. -/
theorem regular_imageFields_iff :
    Fields.Regular P ([("sizeSlug", .string "full"), ("linkDestination", .string "none")]
        ++ (sizesOf n).map fun (key, n) => (key, .number n))
      ↔ ∀ size ∈ sizesOf n, P size.2 := by
  unfold sizesOf
  cases lengthOf n.attributes.width <;> cases lengthOf n.attributes.height <;> simp

/-- The element of an image has its sizes in its style and not in a delimiter. -/
theorem regular_picture : ∀ head ∈ headsAll [picture n], head.Regular P := by
  simp [headsAll_picture, Head.Regular]

/-- The delimiter of an image has a key for width and height each, if there is one, and nothing is
said about any other number. -/
theorem regular_image_iff :
    (∀ head ∈ heads (image n), head.Regular P) ↔ ∀ size ∈ sizesOf n, P size.2 := by
  have hnumbers := Appearance.numbers_named (plain_image n).className_eq_none n.className
  rw [image, regular_block_element]
  refine (and_iff_left (regular_picture n)).trans ⟨fun h => ?_, fun h => ?_⟩
  · have hkeyed := ((regular_imageFields_iff (P := fun _ => True) n).2 fun _ _ => trivial).1
    exact (regular_imageFields_iff n).1 ⟨hkeyed, fun k hk => h.2 k (hnumbers ▸ hk)⟩
  · exact Appearance.regular_named ((regular_imageFields_iff n).2 h) n.className

/-- The look of a button is chosen from a few, and its attributes are texts and flags. -/
theorem regular_buttonAppearance (variant : Variant) :
    (buttonAppearance variant).attributes.Regular P := by
  cases variant <;> simp [buttonAppearance]

/-- The two blocks of a button: the row of buttons and the button in it. -/
theorem regular_button : ∀ head ∈ heads (button n), head.Regular P := by
  have hbutton := Appearance.regular_named (P := P)
    (regular_buttonAppearance (n.attributes.variant.getD .primary)) n.className
  rw [heads_button]
  simpa [Head.Regular] using hbutton

/-- The block of a list, and the blocks of its items, which have no attributes. -/
theorem regular_list : ∀ head ∈ heads (list n), head.Regular P := by
  rw [list, regular_block_element]
  constructor
  · refine Appearance.regular_named ?_ n.className
    dsimp only
    split <;> simp
  · show ∀ head ∈ headsAll ([.newline]
      ++ Markup.lines ((n.attributes.items.getD []).map listItem) ++ [.newline]), head.Regular P
    rw [headsAll_listItems]
    simp [Head.Regular]

/-- A navigation with its links: labels and addresses are texts, and where a link opens is a flag.
-/
theorem regular_navigation : ∀ head ∈ heads (navigation n), head.Regular P := by
  rw [navigation, regular_block_element, headsAll_navigationLinks]
  refine ⟨Appearance.regular_named (regular_layout _ _) n.className, ?_⟩
  rw [List.forall_mem_flatMap]
  intro link _
  simp [Head.Regular]

variable (hsmall : ∀ k ≤ coverDim, P (.int k))
include hsmall

/-- **Of the numbers in the delimiters of a node, only the sizes of an image come from the node.**
One case for each kind of node. The other numbers are levels of headings, and the hypothesis admits
all small numbers because of them. -/
theorem regular_ownHeads_iff :
    (∀ head ∈ n.ownHeads tokens, head.Regular P)
      ↔ (n.kind? = some .image → ∀ size ∈ sizesOf n, P size.2) := by
  have hcontent : ∀ head ∈ headsAll [contentOf n], head.Regular P := List.forall_mem_nil _
  have hlevel : ∀ level : Level, P (.int level.number) := by
    intro level
    cases level <;> exact hsmall _ (by decide)
  unfold Node.ownHeads node
  cases hkind : n.kind? with
  | none => simp [placeholder, heads]
  | some kind =>
    cases kind with
    | image => simpa using regular_image_iff n
    -- the level of a heading is a number of its own, from one to six
    | heading =>
      have hfields : Fields.Regular P [("level", .nat (n.attributes.level.getD .two).number)] := by
        simpa [Json.nat] using hlevel _
      refine iff_of_true (regular_block_element.2 ⟨?_, hcontent⟩) (by simp)
      exact regular_nodeStyle n
        (Appearance.regular_setFont (Appearance.regular_setText hfields _ _) _ _)
    | paragraph =>
      refine iff_of_true (regular_block_element.2 ⟨?_, hcontent⟩) (by simp)
      exact regular_nodeStyle n
        (Appearance.regular_setFont (Appearance.regular_setText Fields.regular_nil _ _) _ _)
    | button => exact iff_of_true (regular_button n) (by simp)
    | list => exact iff_of_true (regular_list n) (by simp)
    | spacer =>
      refine iff_of_true (regular_block_element.2 ⟨by simp, by simp [headsAll]⟩) (by simp)
    | group =>
      refine iff_of_true (regular_block_element.2 ⟨?_, ?_⟩) (by simp)
      · rw [groupStyle_eq]
        exact Appearance.regular_styled (regular_layout _ _) (regular_groupEntries n) _ n.className
      · rw [Markup.headsAll_framed, Markup.headsAll_spaced]
        simp [headsAll]
    | navigation => exact iff_of_true (regular_navigation n) (by simp)

/-! ## Sections -/

/-- The numbers in the delimiters of a section come from the program, whatever the document has for
its columns. -/
theorem regular_sectionHeads (s : Section) : ∀ head ∈ s.ownHeads, head.Regular P := by
  -- a cover has the strength of its overlay as a number, and this is the program's
  have hcover : ∀ url, ∀ head ∈ coverHeads s url, head.Regular P := by
    intro url
    have hfields : (coverAppearance s url).attributes.Regular P := by
      have hlayout : (layoutOf (outerFlow s) sectionGridColumnWidth).Regular P :=
        (Fields.regular_cons.1 (regular_layout _ _)).2.1
      have hdim : P (.int coverDim) := hsmall coverDim (Nat.le_refl _)
      simpa [coverAppearance, Json.nat, hlayout] using hdim
    have hnamed := Appearance.regular_named hfields s.className
    simpa [coverHeads, Head.Regular] using hnamed
  have hgroup : ∀ head ∈ sectionGroupHeads s, head.Regular P := by
    have hentries : ∀ entry ∈ backgroundEntries s.background ++ paddingEntries s.layout.gap,
        entry.value.Regular P := by
      rw [List.forall_mem_append]
      constructor
      · rcases backgroundEntries_cases s.background with hnone | ⟨property, -, value, -, hone⟩
        · simp [hnone]
        · simp [hone]
      · intro entry hin
        obtain ⟨gap, -, rfl⟩ := Option.map_eq_some_iff.1 (Option.mem_toList.1 hin)
        simp
    have hstyled := Appearance.regular_styled (a := groupAppearance s) (regular_layout _ _)
      hentries [] s.className
    simpa [sectionGroupHeads, Head.Regular] using hstyled
  rw [Section.ownHeads, List.forall_mem_append]
  constructor
  · unfold wrapperHeads
    split
    · exact hcover _
    · exact hgroup
  -- between the section and its nodes there may be columns or a grid
  · unfold layoutHeads
    cases s.layout.kind with
    | columns => cases s.layout.gap <;> simp [columnsStyle, Head.Regular]
    | grid => simpa [Head.Regular] using regular_layout (P := P) .grid sectionGridColumnWidth
    | fullWidth | constrained => simp

end Render

/-! ## Templates -/

/-- **Of the numbers in the delimiters of the templates, only the sizes of the images that are shown
come from the document.** -/
theorem Document.regular_templates_iff (hsmall : ∀ k ≤ Render.coverDim, P (.int k))
    (document : Document) :
    (∀ template ∈ document.templates.written, ∀ head ∈ headsAll template.1, head.Regular P)
      ↔ ∀ s ∈ document.regions, ∀ node ∈ s.shown, node.kind? = some .image →
          ∀ size ∈ Render.sizesOf node, P size.2 := by
  have hcolumn : ∀ head ∈ Render.columnHeads, head.Regular P := by
    simp [Render.columnHeads, Head.Regular]
  have hparts : ∀ head ∈ Render.partHeads, head.Regular P := by
    simp [Render.partHeads, Render.templatePart, heads, Head.Regular]
  rw [document.forall_heads_templates_iff hcolumn hparts]
  simp only [Render.regular_ownHeads_iff _ _ hsmall]
  exact forall₂_congr fun s _ => and_iff_right (Render.regular_sectionHeads hsmall s)

/-! ## What is shown -/

namespace Node

mutual

/-- The nodes that a node shows stand at it or below it. -/
theorem shown_subset_preorder : ∀ node : Node, node.shown ⊆ node.preorder
  | ⟨type, content, attributes, children, motion, style, className⟩ => by
    rw [shown, preorder]
    refine List.cons_subset_cons _ ?_
    split
    · exact shownIn_subset_preorderIn children
    · exact List.nil_subset _

theorem shownIn_subset_preorderIn :
    ∀ children : Option (List Node), shownIn children ⊆ preorderIn children
  | none => List.nil_subset _
  | some nodes => shownAll_subset_preorderAll nodes

/-- The nodes of a list. By induction on the tree, along with the two statements above. -/
theorem shownAll_subset_preorderAll : ∀ nodes : List Node, shownAll nodes ⊆ preorderAll nodes
  | [] => List.nil_subset _
  | node :: rest => by
    rw [shownAll, preorderAll]
    exact List.append_subset.2 ⟨List.subset_append_of_subset_left _ (shown_subset_preorder node),
      List.subset_append_of_subset_right _ (shownAll_subset_preorderAll rest)⟩

end

/-- A node that a list shows is shown by one of the nodes in it. -/
theorem mem_shownAll {nodes : List Node} {m : Node} :
    m ∈ shownAll nodes ↔ ∃ node ∈ nodes, m ∈ node.shown := by
  induction nodes with
  | nil => simp [shownAll]
  | cons node rest ih => simp [shownAll, ih]

end Node

/-- What a section shows is shown by one of its children, whether they are in columns or not:
spreading nodes over columns loses none. -/
theorem Section.exists_child_of_mem_shown {s : Section} {m : Node} (h : m ∈ s.shown) :
    ∃ node ∈ s.children, m ∈ node.shown := by
  unfold shown at h
  split at h
  · obtain ⟨nodes, hnodes, hm⟩ := List.mem_flatMap.1 h
    obtain ⟨node, hnode, hm⟩ := Node.mem_shownAll.1 hm
    exact ⟨node, subset_of_mem_chunks hnodes hnode, hm⟩
  · exact Node.mem_shownAll.1 h

/-- The sizes of an image are among the numbers of its attributes. -/
theorem Attributes.Fitting.sizesOf {node : Node} (h : node.attributes.Fitting) :
    ∀ size ∈ Render.sizesOf node, size.2.Fits := by
  have hlength : ∀ {n : Option Number} {key : String}, (∀ k ∈ n, k.Fits) →
      ∀ size ∈ ((Render.lengthOf n).map fun k => (key, k)).toList, size.2.Fits := by
    intro n key hn size hsize
    obtain ⟨k, hk, rfl⟩ := Option.map_eq_some_iff.1 (Option.mem_toList.1 hsize)
    exact hn k (Option.filter_eq_some_iff.1 hk).1
  rw [Render.sizesOf, List.forall_mem_append]
  exact ⟨hlength h.1, hlength h.2⟩

/-! ## What stands in a delimiter -/

namespace Markup

/-- A delimiter without attributes, or with attributes that are read from what is written for them. -/
def Head.IsDecoded : Head → Prop
  | .tag _ _ _ => True
  | .delimiter _ attributes =>
    writeBlockAttributes attributes = [] ∧ attributes.clean = []
      ∨ ∃ json : String, writeBlockAttributes attributes = ' ' :: json.toList
          ∧ Json.parse? none json = some (.object attributes.clean)

/-- A delimiter without attributes, or with attributes that are written as strict JSON. -/
def Head.IsStrict : Head → Prop
  | .tag _ _ _ => True
  | .delimiter _ attributes =>
    ∀ json, writeBlockAttributes attributes = ' ' :: json → Json.IsStrict json

/-- Attributes of which nothing is left are not written at all. All others are written behind a
blank. -/
theorem writeBlockAttributes_cases (attributes : Fields) :
    writeBlockAttributes attributes = [] ∧ attributes.clean = []
      ∨ writeBlockAttributes attributes = ' ' :: (Json.compact (.object attributes.clean)).toList := by
  unfold writeBlockAttributes
  split
  · next hnone => exact Or.inl ⟨rfl, hnone⟩
  · exact Or.inr rfl

/-- What is written for different keys and for numbers that are not too long is read back. -/
theorem Head.Regular.isDecoded {head : Head} (h : head.Regular Number.Fits) : head.IsDecoded := by
  cases head with
  | tag => trivial
  | delimiter name attributes =>
    refine (writeBlockAttributes_cases attributes).imp_right fun htext => ⟨_, htext, ?_⟩
    have hkeyed : (Json.object attributes.clean).Keyed := h.1.clean
    refine Json.read?_compact hkeyed (fun n hn => ?_) (by simp)
    exact h.2 n (Fields.numbers_clean attributes ▸ hn)

/-- A delimiter holds strict JSON exactly if the numbers in its attributes are finite. -/
theorem isStrict_iff {name : String} {attributes : Fields} :
    (Head.delimiter name attributes).IsStrict ↔ ∀ n ∈ attributes.numbers, n.IsFinite := by
  rw [← Fields.numbers_clean, Head.IsStrict]
  rcases writeBlockAttributes_cases attributes with ⟨htext, hclean⟩ | htext
  · simp [htext, hclean]
  · have hcompact := Json.isStrict_compact_iff (.object attributes.clean)
    simpa [htext] using hcompact

/-- A head with different keys is strict exactly if its numbers are finite. -/
theorem Head.Regular.isStrict_iff {head : Head} (h : head.Regular fun _ => True) :
    head.IsStrict ↔ head.Regular Number.IsFinite := by
  cases head with
  | tag => exact Iff.rfl
  | delimiter name attributes => exact Markup.isStrict_iff.trans (and_iff_right h.1).symm

end Markup

namespace Document

variable {document : Document}

/-- A document in which the sizes of all images that are shown are finite. -/
def FiniteSizes (document : Document) : Prop :=
  ∀ s ∈ document.regions, ∀ node ∈ s.shown, node.kind? = some .image →
    ∀ size ∈ Render.sizesOf node, size.2.IsFinite

/-- Strict JSON in all delimiters of the templates, in terms of the document alone. -/
theorem strict_templates_iff :
    (∀ template ∈ document.templates.written, ∀ head ∈ headsAll template.1, head.IsStrict)
      ↔ document.FiniteSizes := by
  have hkeyed := (document.regular_templates_iff (P := fun _ => True) fun _ _ => trivial).2
    fun _ _ _ _ _ _ _ => trivial
  rw [FiniteSizes, ← document.regular_templates_iff fun _ _ => trivial]
  exact forall₂_congr fun template htemplate => forall₂_congr fun head hhead =>
    (hkeyed template htemplate head hhead).isStrict_iff

/-- **The attributes in the delimiters of the templates.** The delimiters that a loaded document is
written with stand in the templates with their attributes, which are read back as they were given,
cleaned; and these texts are strict JSON exactly if the sizes of all images that are shown are
finite. -/
theorem delimiters_strict_iff {text : String} (h : load text = .valid document) :
    (∀ template ∈ document.templates.written, ∀ head ∈ headsAll template.1,
        head.write <:+: template.2.toList ∧ head.IsDecoded)
      ∧ ((∀ template ∈ document.templates.written, ∀ head ∈ headsAll template.1, head.IsStrict)
        ↔ document.FiniteSizes) := by
  have hsmall : ∀ k ≤ Render.coverDim, (Number.int k).Fits := by decide
  have hfits := (document.regular_templates_iff hsmall).2 fun s hs node hnode _ => by
    obtain ⟨child, hchild, hshown⟩ := Section.exists_child_of_mem_shown hnode
    exact (fitting_of_load h s hs child hchild node (child.shown_subset_preorder hshown)).sizesOf
  refine ⟨fun template htemplate head hhead => ⟨?_, ?_⟩, strict_templates_iff⟩
  · rw [Templates.toList_of_mem_written htemplate]
    exact Markup.infix_writeAll_of_mem_headsAll hhead
  · exact (hfits template htemplate head hhead).isDecoded

/-! ### A width that is no number -/

/-- A page with an image of a width in its only section. -/
def imagePage (width : Number) : Json :=
  let words (keys : List String) : Json := .object (keys.map fun key => (key, .string ""))
  .object [("metadata", words ["title"]),
    ("designTokens",
      .object [("colors", words ["primary", "secondary", "background", "foreground"])]),
    ("sections", .array [.object [("layout", .object [("type", .string "grid")]),
      ("children", .array [.object [("type", .string "image"),
        ("attributes", .object [("width", .number width)])]])]])]

/-- The document of this page. -/
def imageDocument (width : Number) : Document where
  metadata := ⟨"", none, none⟩
  tokens := { colors := { primary := "", secondary := "", background := "", foreground := "" } }
  header := none
  body := [⟨"generic", ⟨.grid, none, none, none, none⟩,
    [⟨"image", none, { width := some width }, none, none, none, none⟩], none, none, none, none⟩]
  footer := none
  stylesheet := none

/-- Writing the page and loading it gives the document with the width that was put in. -/
theorem load_imagePage {width : Number} (h : width.Fits) :
    load (Json.compact (imagePage width)) = .valid (imageDocument width) := by
  have hkeyed : (imagePage width).Keyed := by
    simp [imagePage, Json.Keyed, Json.KeyedItems, Json.KeyedMembers, Fields.keys]
  have hnumbers : ∀ n ∈ (imagePage width).numbers, n.Fits := by
    simpa [imagePage, Json.numbers, Json.numbersOfItems, Json.numbersOfMembers] using h
  have hdepth : ∀ room ∈ some depthLimit, (imagePage width).depth ≤ room := by
    rintro _ ⟨⟩
    exact Nat.le_of_ble_eq_true rfl
  rw [load, readText, Json.read?_compact hkeyed hnumbers hdepth]
  rfl

theorem not_finiteSizes_imageDocument : ¬(imageDocument (.float .nan)).FiniteSizes := by
  unfold FiniteSizes
  decide +kernel

/-- A page with such a width is loaded, and its templates are not strict JSON. -/
theorem delimiters_strict_nanWidth :
    load (Json.compact (imagePage (.float .nan))) = .valid (imageDocument (.float .nan))
      ∧ (∀ template ∈ (imageDocument (.float .nan)).templates.written,
          ∀ head ∈ headsAll template.1, head.write <:+: template.2.toList ∧ head.IsDecoded)
      ∧ ¬∀ template ∈ (imageDocument (.float .nan)).templates.written,
          ∀ head ∈ headsAll template.1, head.IsStrict := by
  have hload := load_imagePage (show (Number.float .nan).Fits from trivial)
  obtain ⟨hdecoded, hstrict⟩ := delimiters_strict_iff hload
  exact ⟨hload, hdecoded, mt hstrict.1 not_finiteSizes_imageDocument⟩

end Document

end BlockTheme
