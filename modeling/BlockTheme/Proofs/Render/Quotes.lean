import BlockTheme.Proofs.Html.StartTags
import BlockTheme.Proofs.Render.Heads
import BlockTheme.Proofs.Style.Mapping

/-!
# Double quotes in the attributes of templates

The value of an attribute stands between double quotes, so a double quote in it ends it early, and
what comes after it is read as more attributes. Addresses are escaped, style values with a double
quote are not used, and numbers have none; but class names are taken over as they are. So the
attributes of the templates are read back as they were written exactly if no class name that is used
holds a double quote (`Document.attributes_read_back_iff`).
-/

namespace BlockTheme

open Markup (Head heads headsAll escaped)
open Text (Unquoted)

/-- A class name that may be missing is without a double quote. -/
def UnquotedName (className : Option String) : Prop := ∀ s, className = some s → Unquoted s

/-- A text without a double quote is one in which the double quote does not occur as a part. In this
form the lemmas about parts of texts apply, which were made for the ends of comments. -/
theorem unquoted_iff_not_infix {s : String} : Unquoted s ↔ ¬[quote] <:+: s.toList := by
  rw [Unquoted, List.singleton_infix_iff]

/-! ## Values that hold none -/

/-- **An escaped value holds no double quote.** Each character is either replaced by a reference, or
it is none of those that are replaced. -/
theorem unquoted_attributeValue (s : String) : Unquoted (Text.Escape.attributeValue s) := by
  rw [Unquoted, Text.Escape.attributeValue, String.toList_ofList]
  intro h
  obtain ⟨c, -, hc⟩ := List.mem_flatMap.1 h
  unfold Text.Escape.attributeChar at hc
  split at hc
  · exact absurd hc (by decide)
  · next hne =>
    unfold Text.Escape.dataChar at hc
    split at hc
    · exact absurd hc (by decide)
    · exact absurd hc (by decide)
    · exact absurd hc (by decide)
    · obtain rfl := List.mem_singleton.1 hc
      exact hne (by decide)

theorem unquoted_displayNumber (n : Number) : Unquoted (String.ofList (Json.displayNumber n)) := by
  rw [Unquoted, String.toList_ofList]
  intro hmem
  cases n with
  | int n =>
    have hchar := Number.mem_digits hmem
    exact absurd hchar (by decide)
  | float x =>
    have hchar := Binary64.isNumberChar_of_mem_text hmem
    simp [Binary64.IsNumberChar, Json.displayLayout, quote] at hchar

/-- A style value that is used holds no double quote: this is what makes it usable. -/
theorem unquoted_of_usable? {value : Option String} {s : String} (h : usable? value = some s) :
    Unquoted s := (usable?_eq_some_iff.1 h).2.2

/-- The values of the entries of a node can be used, or are a padding. To be used a value must not
have a double quote, and paddings come from the program. -/
theorem Style.unquoted_ofNode {attributes : Attributes} {style : Option FreeStyle} {entry : StyleEntry}
    (h : entry ∈ StyleEntry.ofNode attributes style) : ∀ s ∈ entry.value.texts, Unquoted s := by
  -- five of the six groups of entries take a value from the document if it can be used
  have hvalue : ∀ {value : Option String} {make : String → StyleEntry},
      (∀ s, (make s).value = .string s) → entry ∈ ((usable? value).map make).toList →
        ∀ s ∈ entry.value.texts, Unquoted s := by
    intro value make hmake hin s hs
    obtain ⟨t, ht, rfl⟩ := Option.map_eq_some_iff.1 (Option.mem_toList.1 hin)
    rw [hmake, Json.texts_string, List.mem_singleton] at hs
    exact hs ▸ unquoted_of_usable? ht
  simp only [StyleEntry.ofNode, List.mem_append] at h
  -- background, color, padding, typography, and the two colors of the free style
  rcases h with ((((hin | hin) | hin) | hin) | hin) | hin
  · exact hvalue (fun _ => rfl) hin
  · exact hvalue (fun _ => rfl) hin
  · obtain ⟨size, -, rfl⟩ := Option.map_eq_some_iff.1 (Option.mem_toList.1 hin)
    cases size <;> decide
  · obtain ⟨row, -, hrow⟩ := List.mem_filterMap.1 hin
    exact hvalue (fun _ => rfl) (Option.mem_toList.2 hrow)
  · split at hin
    · simp at hin
    · exact hvalue (fun _ => rfl) hin
  · split at hin
    · simp at hin
    · exact hvalue (fun _ => rfl) hin

/-- The entries of a group hold no quote: those of its style cannot, as a value with a quote is not
usable, and the gap comes from the program. -/
theorem Node.unquoted_groupEntries {node : Node} {entry : StyleEntry} (h : entry ∈ node.groupEntries) :
    ∀ s ∈ entry.value.texts, Unquoted s := by
  rcases List.mem_append.1 h with hown | hgap
  · exact Style.unquoted_ofNode hown
  · obtain ⟨gap, husable, rfl⟩ := Option.map_eq_some_iff.1 (Option.mem_toList.1 hgap)
    simpa using unquoted_of_usable? husable

/-! ## Appearances -/

namespace Appearance

/-- A class attribute holds a double quote exactly if one of the classes does. -/
theorem unquoted_classAttribute (classes : List String) :
    (∀ x ∈ Markup.classAttribute classes, Unquoted x.2) ↔ ∀ c ∈ classes, Unquoted c := by
  have h := not_congr (infix_classAttribute (show ' ' ∉ [quote] by decide) (by decide) classes)
  simpa only [not_exists, not_and, ← unquoted_iff_not_infix] using h

/-- A class name of the document adds its classes to those that are there. -/
theorem unquoted_named (a : Appearance) (className : Option String) :
    (∀ c ∈ (a.named className).classes, Unquoted c)
      ↔ (∀ c ∈ a.classes, Unquoted c) ∧ UnquotedName className := by
  have h := not_congr (infix_named (show ' ' ∉ [quote] by decide) (by decide) a className)
  rw [UnquotedName]
  simpa only [not_or, not_exists, not_and, ← unquoted_iff_not_infix] using h

/-- A style attribute holds a double quote exactly if one of the declarations in it does. -/
theorem unquoted_inlineAttribute (style : Style) :
    (∀ x ∈ style.inlineAttribute, Unquoted x.2) ↔ ∀ d ∈ style.declarations, Unquoted d.2 := by
  have hseparators : ';' ∉ [quote] ∧ ':' ∉ [quote] := by decide
  have h := not_congr (@Style.infix_inlineAttribute _ style hseparators (by decide) (by decide))
  simpa only [not_exists, not_and, ← unquoted_iff_not_infix] using h

/-- The classes of an appearance that has no double quote yet, with a class name. -/
theorem unquoted_classAttribute_named {a : Appearance} (h : ∀ c ∈ a.classes, Unquoted c)
    (className : Option String) :
    (∀ x ∈ Markup.classAttribute (a.named className).classes, Unquoted x.2)
      ↔ UnquotedName className := by
  rw [unquoted_classAttribute, unquoted_named, and_iff_right h]

/-- **Of an appearance with entries that can be used and with a class name, only the name can bring a
double quote.** -/
theorem Bare.unquoted_styled {a : Appearance} (hbare : a.Bare) (hclasses : ∀ c ∈ a.classes, Unquoted c)
    {entries : List StyleEntry} (hplaces : (Style.places entries).Nodup)
    (hshown : ∀ entry ∈ entries, Style.Shown entry)
    (hvalues : ∀ entry ∈ entries, ∀ s ∈ entry.value.texts, Unquoted s) {more : List String}
    (hmore : ∀ c ∈ more, Unquoted c) (className : Option String) :
    (∀ x ∈ (a.styled (Style.ofEntries entries) more className).elementAttributes, Unquoted x.2)
      ↔ UnquotedName className := by
  -- every declaration is made of the value of an entry
  have hstyle : ∀ x ∈ (Style.ofEntries entries).inlineAttribute, Unquoted x.2 := by
    rw [unquoted_inlineAttribute]
    intro d hd
    obtain ⟨entry, hin, hs⟩ := Style.exists_of_mem_declarations hplaces hshown hd
    exact hvalues entry hin _ hs
  have hbefore : ∀ c ∈ ((a.setStyle (Style.ofEntries entries)).addClasses more).classes,
      Unquoted c := by
    show ∀ c ∈ (a.setStyle (Style.ofEntries entries)).classes ++ more, Unquoted c
    rw [classes_setStyle, List.forall_mem_append]
    exact ⟨hclasses, hmore⟩
  rw [elementAttributes, List.forall_mem_append, within_styled hbare.style_eq_none, styled,
    unquoted_classAttribute_named hbefore, and_iff_left hstyle]

/-- Alignment and size of a text bring no double quote: the classes are made of words of a
vocabulary. -/
theorem unquoted_setText {a : Appearance} (h : ∀ c ∈ a.classes, Unquoted c) (alignKey : String)
    (node : Node) : ∀ c ∈ (Render.setText alignKey node a).classes, Unquoted c := by
  have haligned : ∀ align : TextAlign, Unquoted ("has-text-align-" ++ Schema.Named.name align) := by
    intro align
    cases align <;> decide
  have hsized : ∀ size : Size, Unquoted ("has-" ++ size.fontPreset ++ "-font-size") := by
    intro size
    cases size <;> decide
  unfold Render.setText
  cases node.attributes.textAlign <;> cases node.attributes.fontSize <;>
    simpa [addClasses, set, haligned, hsized, or_imp, forall_and] using h

/-- A font puts no quote into the classes, since its name does not get into them. -/
theorem unquoted_setFont {a : Appearance} (h : ∀ c ∈ a.classes, Unquoted c) {role : String}
    (hrole : role ∈ ["heading", "body"]) (font : Option String) :
    ∀ c ∈ (Render.setFont role font a).classes, Unquoted c := by
  have hroles : ∀ role ∈ ["heading", "body"], Unquoted ("has-" ++ role ++ "-font-family") := by decide
  unfold Render.setFont
  split
  · show ∀ c ∈ a.classes ++ _, Unquoted c
    rw [List.forall_mem_append, List.forall_mem_singleton]
    exact ⟨h, hroles role hrole⟩
  · exact h

end Appearance

/-! ## Nodes -/

/-- A node whose class name, if it is used, holds no double quote. -/
def Node.Unquoted (node : Node) : Prop :=
  match node.kind? with
  | none | some .spacer => True
  | some _ => UnquotedName node.className

namespace Render

variable (tokens : Tokens) (n : Node)

/-- The classes of a style are two words of the program. -/
theorem unquoted_classesOfNode : ∀ c ∈ Style.classesOfNode n.attributes n.style, Unquoted c := by
  have hall : ∀ c ∈ ["has-text-color", "has-background"], Unquoted c := by decide
  exact fun c hc => hall c (Style.mem_classesOfNode hc)

/-- A block with one element between its delimiters is without double quotes if the element is. -/
theorem unquoted_block_element {name tag : String} {fields : Fields}
    {attributes : List (String × String)} {content : List Markup} :
    (∀ head ∈ heads (.block name fields [.element tag attributes content]), head.Unquoted)
      ↔ (∀ x ∈ attributes, Unquoted x.2) ∧ ∀ head ∈ headsAll content, head.Unquoted := by
  rw [Markup.heads_block_element, List.forall_mem_cons, List.forall_mem_cons]
  exact and_iff_right trivial

/-- A text with its alignment, its font and the style of its node. -/
theorem unquoted_text_iff {a : Appearance} (hclasses : ∀ c ∈ a.classes, Unquoted c) {alignKey : String}
    {role : String} (hrole : role ∈ ["heading", "body"]) (font : Option String)
    (hbare : (setFont role font (setText alignKey n a)).Bare) :
    (∀ x ∈ (setNodeStyle (Style.ofNode n.attributes n.style) n
        (setFont role font (setText alignKey n a))).elementAttributes, Unquoted x.2)
      ↔ UnquotedName n.className :=
  hbare.unquoted_styled
    (Appearance.unquoted_setFont (Appearance.unquoted_setText hclasses alignKey n) hrole font)
    (Style.nodup_places_ofNode n.attributes n.style) (shown_ofNode n)
    (fun _ => Style.unquoted_ofNode) (unquoted_classesOfNode n) n.className

/-- **A heading holds no double quote exactly if its class name holds none.** Its level comes from
the program, its text is no attribute, and the values of a style with a quote in them are not used.
-/
theorem unquoted_heading_iff :
    (∀ head ∈ heads (heading tokens n), head.Unquoted) ↔ UnquotedName n.className := by
  have hclasses : ∀ c ∈ ["wp-block-heading"], Unquoted c := by decide
  rw [heading, unquoted_block_element, headsAll_contentOf, and_iff_left (List.forall_mem_nil _)]
  exact unquoted_text_iff n hclasses (by simp) _ (bare_headingText tokens n _)

theorem unquoted_paragraph_iff :
    (∀ head ∈ heads (paragraph tokens n), head.Unquoted) ↔ UnquotedName n.className := by
  have hclasses : ∀ c ∈ ([] : List String), Unquoted c := by simp
  rw [paragraph, unquoted_block_element, headsAll_contentOf, and_iff_left (List.forall_mem_nil _)]
  exact unquoted_text_iff n hclasses (by simp) _ (bare_paragraphText tokens n)

/-- A picture holds none: its source and its description are escaped, and its sizes are numbers. -/
theorem unquoted_picture : ∀ head ∈ headsAll [picture n], head.Unquoted := by
  rw [headsAll_picture, List.forall_mem_singleton, Head.Unquoted, List.forall_mem_append,
    List.forall_mem_map]
  have hsrc := unquoted_attributeValue (n.attributes.src.getD "")
  have halt := unquoted_attributeValue (n.attributes.alt.getD "")
  exact ⟨List.forall_mem_cons.2 ⟨hsrc, List.forall_mem_singleton.2 halt⟩,
    fun size _ => unquoted_displayNumber size.2⟩

/-- An image holds no double quote exactly if its class name holds none. -/
theorem unquoted_image_iff :
    (∀ head ∈ heads (image n), head.Unquoted) ↔ UnquotedName n.className := by
  have hclasses : ∀ c ∈ ["wp-block-image", "size-full"], Unquoted c := by decide
  rw [image, unquoted_block_element]
  exact (and_iff_left (unquoted_picture n)).trans
    (Appearance.unquoted_classAttribute_named hclasses n.className)

/-- The classes and the style of a button come from the program. -/
theorem unquoted_buttonAppearance (variant : Variant) :
    (∀ c ∈ (buttonAppearance variant).classes, Unquoted c)
      ∧ ∀ x ∈ (Style.within (buttonAppearance variant).attributes).inlineAttribute, Unquoted x.2 := by
  cases variant <;> decide

/-- Whether a button has quotes where they should not be depends on its class name alone. Its
address is escaped, and its style comes from the program. -/
theorem unquoted_button_iff :
    (∀ head ∈ heads (button n), head.Unquoted) ↔ UnquotedName n.className := by
  obtain ⟨hclasses, hstyle⟩ := unquoted_buttonAppearance (n.attributes.variant.getD .primary)
  have hname := Appearance.unquoted_classAttribute_named hclasses n.className
  have hwords : ∀ word ∈ ["wp-block-buttons is-layout-flex", "wp-block-button"], Unquoted word := by
    decide
  have hhref := unquoted_attributeValue (orElse n.attributes.href "#")
  rw [heads_button, ← hname]
  simp only [List.forall_mem_cons, Head.Unquoted, List.forall_mem_append, Appearance.within_named,
    escaped]
  simpa [hwords, hhref, -Prod.forall] using fun _ => hstyle

/-- For a list too it is the class name that decides, as its items have no attributes at all. -/
theorem unquoted_list_iff :
    (∀ head ∈ heads (list n), head.Unquoted) ↔ UnquotedName n.className := by
  have hclasses : ∀ c ∈ ["wp-block-list"], Unquoted c := by decide
  rw [list, unquoted_block_element]
  refine (and_iff_left ?_).trans (Appearance.unquoted_classAttribute_named hclasses n.className)
  show ∀ head ∈ headsAll ([.newline]
    ++ Markup.lines ((n.attributes.items.getD []).map listItem) ++ [.newline]), head.Unquoted
  rw [headsAll_listItems]
  simp [Head.Unquoted]

/-- A spacer holds none. Its class name is not used. -/
theorem unquoted_spacer : ∀ head ∈ heads (spacer n), head.Unquoted := by
  have hheight : ∀ size : Size, Unquoted ("height:" ++ size.padding) := by
    intro size
    cases size <;> decide
  have hwords : ∀ word ∈ ["true", "wp-block-spacer"], Unquoted word := by decide
  rw [spacer, unquoted_block_element]
  simp [hheight, hwords, headsAll]

/-- A group holds no double quote exactly if its class name holds none. It is looked at without its
children here, which are nodes of their own. -/
theorem unquoted_group_iff :
    (∀ head ∈ heads (group n []), head.Unquoted) ↔ UnquotedName n.className := by
  have hclasses : ∀ flow : Flow, ∀ c ∈ ["wp-block-group", flow.className], Unquoted c := by
    intro flow
    cases flow <;> decide
  have hstyled := (Appearance.bare_group (groupFlow (n.style.getD []))).unquoted_styled
    (hclasses _) (nodup_places_groupEntries n) (shown_groupEntries n)
    (fun _ => Node.unquoted_groupEntries) (unquoted_classesOfNode n) n.className
  rw [← groupStyle_eq] at hstyled
  rw [group, unquoted_block_element, Markup.headsAll_framed, Markup.headsAll_spaced]
  exact (and_iff_left (by simp [headsAll])).trans hstyled

/-- For a navigation it is the class name as well: the addresses of its links are escaped. -/
theorem unquoted_navigation_iff :
    (∀ head ∈ heads (navigation n), head.Unquoted) ↔ UnquotedName n.className := by
  have hclasses : ∀ c ∈ ["wp-block-group", Flow.flex.className], Unquoted c := by decide
  have hhref : ∀ link : Link, Unquoted (escaped "href" link.href).2 :=
    fun link => unquoted_attributeValue link.href
  rw [navigation, unquoted_block_element, headsAll_navigationLinks]
  refine (and_iff_left ?_).trans (Appearance.unquoted_classAttribute_named hclasses n.className)
  rw [List.forall_mem_flatMap]
  intro link _
  simpa [Head.Unquoted, -Prod.forall] using hhref link

/-- **The own heads of a node hold no double quote exactly if the node holds none.** Of a node
without a known type no head is written, and of a spacer none with its class name. -/
theorem unquoted_ownHeads_iff : (∀ head ∈ n.ownHeads tokens, head.Unquoted) ↔ n.Unquoted := by
  unfold Node.ownHeads node Node.Unquoted
  cases hkind : n.kind? with
  | none => simp [placeholder, heads]
  | some kind =>
    cases kind with
    | heading => exact unquoted_heading_iff tokens n
    | paragraph => exact unquoted_paragraph_iff tokens n
    | image => exact unquoted_image_iff n
    | button => exact unquoted_button_iff n
    | list => exact unquoted_list_iff n
    | spacer => exact iff_true_intro (unquoted_spacer n)
    | group => exact unquoted_group_iff n
    | navigation => exact unquoted_navigation_iff n

/-! ## Names

The names of tags and of attributes come from the program. -/

/-- All names of tags in the templates are names for a reader of markup, too. -/
theorem isTagName_of_mem : ∀ name ∈ ["h1", "h2", "h3", "h4", "h5", "h6", "p", "figure", "img", "div",
    "a", "ol", "ul", "li", "span"], Html.IsTagName name := by
  decide +kernel

theorem isAttributeName_of_mem : ∀ name ∈ ["class", "style", "src", "alt", "width", "height", "href",
    "aria-hidden", "data-object-fit"], Html.IsAttributeName name := by
  decide +kernel

/-- A block with one element between its delimiters has plain heads if the element and its content
have. -/
theorem plain_block_element {name tag : String} {fields : Fields}
    {attributes : List (String × String)} {content : List Markup} (htag : Html.IsTagName tag)
    (hnames : ∀ x ∈ attributes, Html.IsAttributeName x.1)
    (hcontent : ∀ head ∈ headsAll content, head.Plain) :
    ∀ head ∈ heads (.block name fields [.element tag attributes content]), head.Plain := by
  rw [Markup.heads_block_element, List.forall_mem_cons, List.forall_mem_cons]
  exact ⟨trivial, ⟨htag, hnames⟩, hcontent⟩

/-- The attributes of an element are a class and a style. -/
theorem plain_elementAttributes (a : Appearance) :
    ∀ x ∈ a.elementAttributes, Html.IsAttributeName x.1 := by
  intro x hx
  refine isAttributeName_of_mem _ ?_
  exact List.mem_append_left (["src", "alt", "width", "height", "href", "aria-hidden",
    "data-object-fit"]) (Appearance.fst_of_mem_elementAttributes hx)

theorem plain_classAttribute (classes : List String) :
    ∀ x ∈ Markup.classAttribute classes, Html.IsAttributeName x.1 := by
  intro x hx
  rw [Appearance.fst_of_mem_classAttribute hx]
  exact isAttributeName_of_mem _ (by simp)

/-- A picture has plain names. Those of its sizes are words of the program. -/
theorem plain_picture : ∀ head ∈ headsAll [picture n], head.Plain := by
  rw [headsAll_picture, List.forall_mem_singleton]
  refine ⟨isTagName_of_mem _ (by simp), ?_⟩
  rw [List.forall_mem_append, List.forall_mem_map]
  refine ⟨?_, fun size hsize => ?_⟩
  · simp [escaped, isAttributeName_of_mem]
  · refine isAttributeName_of_mem _ ?_
    have hkey := fst_of_mem_sizesOf n hsize
    simp only [List.mem_cons, List.not_mem_nil, or_false] at hkey ⊢
    tauto

/-- A button has plain names, from the row down to the link. -/
theorem plain_button : ∀ head ∈ heads (button n), head.Plain := by
  have hdiv : Html.IsTagName "div" := isTagName_of_mem _ (by simp)
  have hlink : Html.IsTagName "a" := isTagName_of_mem _ (by simp)
  have hclass : Html.IsAttributeName "class" := isAttributeName_of_mem _ (by simp)
  have hhref : Html.IsAttributeName "href" := isAttributeName_of_mem _ (by simp)
  have hstyle : ∀ style : Style, ∀ x ∈ style.inlineAttribute, Html.IsAttributeName x.1 := by
    intro style x hx
    rw [Style.fst_of_mem_inlineAttribute hx]
    exact isAttributeName_of_mem _ (by simp)
  rw [heads_button]
  simp only [List.forall_mem_cons, Head.Plain, List.forall_mem_append, escaped]
  exact ⟨trivial, ⟨hdiv, hclass, List.forall_mem_nil _⟩, trivial, ⟨hdiv, hclass, List.forall_mem_nil _⟩,
    ⟨hlink, ⟨plain_classAttribute _, hhref, List.forall_mem_nil _⟩, hstyle _⟩, List.forall_mem_nil _⟩

/-- **The own heads of a node have plain names**, whatever the node says: no name of a tag or of an
attribute is taken from a document. -/
theorem plain_ownHeads : ∀ head ∈ n.ownHeads tokens, head.Plain := by
  have hdiv : Html.IsTagName "div" := isTagName_of_mem _ (by simp)
  unfold Node.ownHeads node
  cases hkind : n.kind? with
  | none => simp [placeholder, heads]
  | some kind =>
    -- one case for each kind, with the tag that its block has inside
    cases kind with
    | heading =>
      have htag : Html.IsTagName (headingTag (n.attributes.level.getD .two)) := by
        refine isTagName_of_mem _ ?_
        cases n.attributes.level.getD .two <;> decide
      exact plain_block_element htag (plain_elementAttributes _) (List.forall_mem_nil _)
    | paragraph =>
      exact plain_block_element (isTagName_of_mem _ (by simp)) (plain_elementAttributes _)
        (List.forall_mem_nil _)
    | image =>
      exact plain_block_element (isTagName_of_mem _ (by simp)) (plain_classAttribute _)
        (plain_picture n)
    | button => exact plain_button n
    | list =>
      have htag : Html.IsTagName (if n.attributes.ordered.getD false then "ol" else "ul") := by
        split <;> exact isTagName_of_mem _ (by simp)
      have hitem : Html.IsTagName "li" := isTagName_of_mem _ (by simp)
      refine plain_block_element htag (plain_classAttribute _) ?_
      show ∀ head ∈ headsAll ([.newline]
        ++ Markup.lines ((n.attributes.items.getD []).map listItem) ++ [.newline]), head.Plain
      rw [headsAll_listItems]
      simp [Head.Plain, hitem]
    | spacer =>
      refine plain_block_element hdiv ?_ (by simp [headsAll])
      simp [isAttributeName_of_mem]
    | group =>
      refine plain_block_element hdiv (plain_elementAttributes _) ?_
      rw [Markup.headsAll_framed, Markup.headsAll_spaced]
      simp [headsAll]
    | navigation =>
      refine plain_block_element hdiv (plain_classAttribute _) ?_
      rw [headsAll_navigationLinks, List.forall_mem_flatMap]
      intro link _
      have hwords : Html.IsTagName "p" ∧ Html.IsTagName "a" ∧ Html.IsAttributeName "href" :=
        ⟨isTagName_of_mem _ (by simp), isTagName_of_mem _ (by simp), isAttributeName_of_mem _ (by simp)⟩
      simpa [escaped, Head.Plain] using hwords

end Render

/-! ## Sections -/

/-- A section in which no class name that is used holds a double quote. -/
structure Section.Unquoted (s : Section) : Prop where
  className : UnquotedName s.className
  shown : ∀ node ∈ s.shown, node.Unquoted

namespace Render

variable (s : Section)

/-- The values of the entries of a section can be used, or are a padding. A color or a gradient with
a double quote is not used, and the address of an image is no entry. -/
theorem unquoted_wrapperEntries {background : Option Background} {gap : Option Gap} {entry : StyleEntry}
    (h : entry ∈ backgroundEntries background ++ paddingEntries gap) :
    ∀ t ∈ entry.value.texts, Unquoted t := by
  rcases List.mem_append.1 h with hback | hpadding
  · unfold backgroundEntries at hback
    split at hback
    · simp at hback
    · split at hback
      · next husable _ =>
        obtain rfl := List.mem_singleton.1 hback
        simpa using unquoted_of_usable? husable
      · next husable _ =>
        obtain rfl := List.mem_singleton.1 hback
        simpa using unquoted_of_usable? husable
      · simp at hback
  · obtain ⟨gap, -, rfl⟩ := Option.map_eq_some_iff.1 (Option.mem_toList.1 hpadding)
    cases gap <;> decide

/-- A cover holds no double quote exactly if the class name of its section holds none. The address
of its image is escaped. -/
theorem unquoted_coverHeads_iff (url : String) :
    (∀ head ∈ coverHeads s url, head.Unquoted) ↔ UnquotedName s.className := by
  have hclasses : ∀ c ∈ ["wp-block-cover"], Unquoted c := by decide
  have hname := Appearance.unquoted_classAttribute_named (a := coverAppearance s url) hclasses
    s.className
  have hsrc := unquoted_attributeValue url
  have hinside : ∀ head ∈ (coverHeads s url).drop 2, head.Unquoted := by
    simp only [coverHeads, List.drop_succ_cons, List.drop_zero, List.forall_mem_cons,
      List.not_mem_nil, false_implies, implies_true, Head.Unquoted, escaped, hsrc, true_and,
      and_true]
    decide
  rw [coverHeads, List.forall_mem_cons, List.forall_mem_cons]
  exact (and_iff_right trivial).trans ((and_iff_left hinside).trans hname)

theorem unquoted_sectionGroupHeads_iff :
    (∀ head ∈ sectionGroupHeads s, head.Unquoted) ↔ UnquotedName s.className := by
  have hclasses : ∀ c ∈ (groupAppearance s).classes, Unquoted c := by
    have hflow : ∀ flow : Flow, Unquoted flow.className := by
      intro flow
      cases flow <;> decide
    have hwords : ∀ word ∈ ["wp-block-group", "has-background"], Unquoted word := by decide
    rw [groupAppearance, List.forall_mem_append]
    refine ⟨by simp [hwords, hflow], ?_⟩
    split <;> simp [hwords]
  have hstyled := (bare_groupAppearance s).unquoted_styled hclasses
    (nodup_places_wrapper s.background s.layout.gap) (shown_wrapper s.background s.layout.gap)
    (fun _ => unquoted_wrapperEntries) (List.forall_mem_nil _) s.className
  rw [← hstyled, sectionGroupHeads, List.forall_mem_cons, List.forall_mem_singleton]
  exact and_iff_right trivial

/-- What a layout puts between a section and its nodes comes from the program, and has no double
quote. -/
theorem unquoted_layoutHeads : ∀ head ∈ layoutHeads s, head.Unquoted := by
  -- all values are fixed words, or the gap of the columns
  have hwords : ∀ word ∈ ["wp-block-columns is-layout-flex", "wp-block-group is-layout-grid"],
      Unquoted word := by decide
  have hgap : ∀ gap : Option Gap, ∀ x ∈ (columnsStyle gap).inlineAttribute, Unquoted x.2 := by
    intro gap
    rcases gap with _ | _ | _ | _ <;> decide
  unfold layoutHeads
  cases s.layout.kind with
  | columns =>
    rw [List.forall_mem_cons, List.forall_mem_singleton]
    refine ⟨trivial, ?_⟩
    rw [Head.Unquoted, List.forall_mem_append, List.forall_mem_singleton]
    exact ⟨hwords _ (by simp), hgap _⟩
  | grid =>
    rw [List.forall_mem_cons, List.forall_mem_singleton]
    refine ⟨trivial, ?_⟩
    rw [Head.Unquoted, List.forall_mem_singleton]
    exact hwords _ (by simp)
  | fullWidth | constrained => simp

theorem plain_coverHeads (url : String) : ∀ head ∈ coverHeads s url, head.Plain := by
  have hnames : ∀ name ∈ ["class", "src", "alt", "aria-hidden", "data-object-fit"],
      Html.IsAttributeName name := by decide +kernel
  have htags : ∀ name ∈ ["div", "span", "img"], Html.IsTagName name := by decide +kernel
  have hclass := plain_classAttribute ((coverAppearance s url).named s.className).classes
  simp only [coverHeads, List.forall_mem_cons, Head.Plain, escaped]
  simpa [hnames, htags, -Prod.forall] using hclass

/-- **So has whatever a section is made of**: a cover or a group, and columns or a grid in it. That
names are plain is what makes start tags readable at all; values are another matter. -/
theorem plain_sectionHeads : ∀ head ∈ s.ownHeads, head.Plain := by
  have hdiv : Html.IsTagName "div" := isTagName_of_mem _ (by simp)
  have hclass : Html.IsAttributeName "class" := isAttributeName_of_mem _ (by simp)
  have hgroup : ∀ head ∈ sectionGroupHeads s, head.Plain := by
    rw [sectionGroupHeads, List.forall_mem_cons, List.forall_mem_singleton]
    exact ⟨trivial, hdiv, plain_elementAttributes _⟩
  -- the heads of the wrapper and those of the layout
  rw [Section.ownHeads, List.forall_mem_append]
  constructor
  · unfold wrapperHeads
    split
    · exact plain_coverHeads s _
    · exact hgroup
  · unfold layoutHeads
    cases s.layout.kind with
    | columns =>
      rw [List.forall_mem_cons, List.forall_mem_singleton]
      refine ⟨trivial, hdiv, ?_⟩
      rw [List.forall_mem_append, List.forall_mem_singleton]
      refine ⟨hclass, fun x hx => ?_⟩
      -- besides its class a block has the attribute of its style
      exact isAttributeName_of_mem _ (by simp [Style.fst_of_mem_inlineAttribute hx])
    | grid =>
      rw [List.forall_mem_cons, List.forall_mem_singleton]
      exact ⟨trivial, hdiv, by simpa using hclass⟩
    | fullWidth | constrained => simp

end Render

/-- The own heads of a section hold no double quote exactly if its class name holds none. -/
theorem Section.unquoted_ownHeads_iff (s : Section) :
    (∀ head ∈ s.ownHeads, head.Unquoted) ↔ UnquotedName s.className := by
  rw [ownHeads, List.forall_mem_append, and_iff_left (Render.unquoted_layoutHeads s)]
  unfold Render.wrapperHeads
  -- with an image behind it a section is a cover
  split
  · exact Render.unquoted_coverHeads_iff s _
  · exact Render.unquoted_sectionGroupHeads_iff s

/-! ## Templates -/

/-- A document in which no class name that is used holds a double quote. -/
def Document.Unquoted (document : Document) : Prop := ∀ s ∈ document.regions, s.Unquoted

namespace Document

variable (document : Document)

/-- **The templates have plain names throughout.** Their heads are those of the sections, of the
nodes that are shown, of columns, and of the parts that the index names. -/
theorem plain_templates :
    ∀ template ∈ document.templates.written, ∀ head ∈ headsAll template.1, head.Plain := by
  have hcolumn : ∀ head ∈ Render.columnHeads, head.Plain := by
    have hdiv : Html.IsTagName "div" := Render.isTagName_of_mem _ (by simp)
    have hclass : Html.IsAttributeName "class" := Render.isAttributeName_of_mem _ (by simp)
    simpa [Render.columnHeads, Head.Plain] using ⟨hdiv, hclass⟩
  have hparts : ∀ head ∈ Render.partHeads, head.Plain := by
    simp [Render.partHeads, Render.templatePart, heads, Head.Plain]
  rw [document.forall_heads_templates_iff hcolumn hparts]
  exact fun s _ => ⟨Render.plain_sectionHeads s, fun node _ => Render.plain_ownHeads _ node⟩

/-- The heads of the templates hold no double quote exactly if the document holds none where it
matters, which is in its class names. -/
theorem unquoted_templates_iff :
    (∀ template ∈ document.templates.written, ∀ head ∈ headsAll template.1, head.Unquoted)
      ↔ document.Unquoted := by
  have hcolumn : ∀ head ∈ Render.columnHeads, head.Unquoted := by
    rw [Render.columnHeads, List.forall_mem_cons, List.forall_mem_singleton, Head.Unquoted,
      Head.Unquoted]
    decide
  have hparts : ∀ head ∈ Render.partHeads, head.Unquoted := by
    simp [Render.partHeads, Render.templatePart, heads, Head.Unquoted]
  rw [document.forall_heads_templates_iff hcolumn hparts]
  refine forall₂_congr fun s _ => ?_
  rw [s.unquoted_ownHeads_iff]
  simp only [Render.unquoted_ownHeads_iff]
  exact ⟨fun h => ⟨h.1, h.2⟩, fun h => ⟨h.className, h.shown⟩⟩

/-- **The attributes of the templates, read back.** Every attribute of every start tag in the templates
ends at the double quote that was written for it, and a reader takes every start tag with the attributes
that were written and no others, exactly if no class name that is used holds a double quote. -/
theorem attributes_read_back_iff :
    (∀ template ∈ document.templates.written, ∀ head ∈ headsAll template.1,
        head.write <:+: template.2.toList ∧ head.IsClosed ∧ head.IsReadBack)
      ↔ document.Unquoted := by
  rw [← unquoted_templates_iff]
  -- the statement is about one head after the other, each of which is written somewhere in the
  -- template
  refine forall₂_congr fun template htemplate => forall₂_congr fun head hhead => ?_
  have hplain := document.plain_templates template htemplate head hhead
  have hin : head.write <:+: template.2.toList := by
    rw [Templates.toList_of_mem_written htemplate]
    exact Markup.infix_writeAll_of_mem_headsAll hhead
  rw [and_iff_right hin, Markup.isClosed_iff]
  exact and_iff_left_of_imp fun hunquoted => Markup.isReadBack_of_unquoted hplain hunquoted

end Document

end BlockTheme
