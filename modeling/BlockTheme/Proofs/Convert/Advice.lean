import BlockTheme.Proofs.Recovery.Outcome
import BlockTheme.Proofs.Recovery.SingleUse
import BlockTheme.Proofs.Render.Pruned

/-!
# Advice

Much of what a document says is advice: the intents and motions, how wide a layout would like to be,
where the page came from, and every style property that no markup shows. `Document.unadvised` is a
document without its advice. Recovery asks for the same without it (`Recovery.targets_unadvised`), the
markup is the same (`Node.markup_unadvised`), and so the theme is: two documents that differ in their
advice alone become the same files (`convert_depends_on_content`).
-/

namespace BlockTheme

/-! ## Documents without their advice -/

/-- The properties of a free style that headings, paragraphs and groups show. -/
def textProperties : List String :=
  ["font-size", "line-height", "letter-spacing", "text-transform", "color", "background-color"]

/-- The properties of a free style that a kind of node shows. Every other kind shows none, and
neither does a node of a type that is not known. -/
def NodeKind.properties : Option NodeKind → List String
  | some .heading | some .paragraph => textProperties
  | some .group => textProperties ++ ["display", "gap"]
  | _ => []

/-- The values of some properties of a free style, in a fixed order. -/
def FreeStyle.keep (style : FreeStyle) (properties : List String) : FreeStyle :=
  properties.filterMap fun property => (style.lookup property).map fun value => (property, value)

mutual

/-- A node without the advice on it and below it. -/
def Node.unadvised : Node → Node
  | ⟨type, content, attributes, children, _, style, className⟩ =>
    ⟨type, content, attributes, Node.unadvisedIn children, none,
      some ((style.getD []).keep (NodeKind.properties (Schema.Named.ofName? type))), className⟩

def Node.unadvisedIn : Option (List Node) → Option (List Node)
  | none => none
  | some nodes => some (Node.unadvisedAll nodes)

def Node.unadvisedAll : List Node → List Node
  | [] => []
  | node :: rest => node.unadvised :: Node.unadvisedAll rest

end

/-- A section without the advice on it and in it. -/
def Section.unadvised (s : Section) : Section :=
  { s with
    intent := ""
    layout := { s.layout with contentWidth := none, verticalAlign := none }
    children := Node.unadvisedAll s.children
    motion := none
    style := none }

/-- A document without its advice. -/
def Document.unadvised (document : Document) : Document :=
  { document with
    metadata := { document.metadata with sourceUrl := none }
    header := document.header.map Section.unadvised
    body := document.body.map Section.unadvised
    footer := document.footer.map Section.unadvised }

/-- A property that is kept has the value that it had. The kept ones are in an order of their own,
so that two styles that agree on them become the same. -/
theorem FreeStyle.lookup_keep (style : FreeStyle) {properties : List String} {property : String}
    (h : property ∈ properties) : (style.keep properties).lookup property = style.lookup property := by
  induction properties with
  | nil => simp at h
  | cons first rest ih =>
    unfold FreeStyle.keep at ih ⊢
    -- either this is the property that is looked for, or it is found further on
    by_cases hfirst : property = first
    · subst hfirst
      cases hvalue : style.lookup property with
      | some value => simp [hvalue]
      | none =>
        -- a property without a value is left out wherever it is named
        rw [List.filterMap_cons, hvalue]
        apply List.lookup_eq_none_iff.2
        intro entry hentry
        obtain ⟨other, -, hother⟩ := List.mem_filterMap.1 hentry
        obtain ⟨value, hlookup, rfl⟩ := Option.map_eq_some_iff.1 hother
        show (property != other) = true
        rw [bne_iff_ne]
        rintro rfl
        exact absurd (hvalue.symm.trans hlookup) (by simp)
    · have hrest := ih ((List.mem_cons.1 h).resolve_left hfirst)
      have hne : (property == first) = false := by simpa using hfirst
      cases hvalue : style.lookup first with
      | none => simpa [List.filterMap_cons, hvalue] using hrest
      | some value => simpa [List.filterMap_cons, hvalue, List.lookup_cons, hne] using hrest

namespace Node

variable (node : Node)

/-- A node without its advice still has its type, and so on: of what a node says about itself only
the motion is dropped and the style shortened. -/
theorem type_unadvised : node.unadvised.type = node.type := by
  cases node
  rfl

theorem content_unadvised : node.unadvised.content = node.content := by
  cases node
  rfl

theorem attributes_unadvised : node.unadvised.attributes = node.attributes := by
  cases node
  rfl

theorem children_unadvised : node.unadvised.children = unadvisedIn node.children := by
  cases node
  rfl

/-- A node has its class name without its advice, and recovery may add to it all the same. -/
theorem className_unadvised : node.unadvised.className = node.className := by
  cases node
  rfl

theorem kind?_unadvised : node.unadvised.kind? = node.kind? := by
  cases node
  rfl

/-- Of its style the properties are left that its kind shows. -/
theorem style_unadvised :
    node.unadvised.style = some ((node.style.getD []).keep (NodeKind.properties node.kind?)) := by
  cases node
  rfl

end Node

/-! ## Markup -/

/-- The style of a node is made of the text properties of its free style. Two free styles that agree
on these give the same entries, whatever else they hold. -/
theorem StyleEntry.ofNode_congr (attributes : Attributes) {style style' : Option FreeStyle}
    (h : ∀ property ∈ textProperties,
      (style.getD []).lookup property = (style'.getD []).lookup property) :
    StyleEntry.ofNode attributes style = StyleEntry.ofNode attributes style' := by
  -- every entry is made of one of these properties, and of attributes
  have husable : ∀ property ∈ textProperties,
      (style.getD []).usable? property = (style'.getD []).usable? property := by
    intro property hproperty
    rw [FreeStyle.usable?, FreeStyle.usable?, h property hproperty]
  have htype : StyleEntry.typography (style.getD []) = StyleEntry.typography (style'.getD []) := by
    have hrows : ∀ row ∈ StyleEntry.typographyProperties, row.1 ∈ textProperties := by decide
    refine List.filterMap_congr fun row hrow => ?_
    show Option.map _ ((style.getD []).usable? row.1) = Option.map _ ((style'.getD []).usable? row.1)
    rw [husable row.1 (hrows row hrow)]
  unfold StyleEntry.ofNode
  dsimp only
  rw [htype, husable "background-color" (by decide), husable "color" (by decide)]

namespace Render

variable (tokens : Tokens) (n : Node)

/-- A property that the kind of a node shows has the same value without the advice. -/
theorem lookup_unadvised {property : String} (h : property ∈ NodeKind.properties n.kind?) :
    (n.unadvised.style.getD []).lookup property = (n.style.getD []).lookup property := by
  rw [Node.style_unadvised, Option.getD_some, FreeStyle.lookup_keep _ h]

/-- A node of a kind that shows the text properties has the same style entries without its advice.
-/
theorem entries_unadvised (h : textProperties ⊆ NodeKind.properties n.kind?) :
    StyleEntry.ofNode n.unadvised.attributes n.unadvised.style
      = StyleEntry.ofNode n.attributes n.style := by
  rw [Node.attributes_unadvised]
  exact StyleEntry.ofNode_congr _ fun property hproperty => lookup_unadvised n (h hproperty)

/-- A heading looks the same without its advice. Its markup looks at the style through the entries
alone. -/
theorem heading_unadvised (h : n.kind? = some .heading) :
    heading tokens n.unadvised = heading tokens n := by
  have hentries := entries_unadvised n (by rw [h]; exact List.Subset.refl _)
  unfold heading setNodeStyle setText contentOf Style.ofNode Style.classesOfNode
  rw [hentries]
  simp only [Node.attributes_unadvised, Node.className_unadvised, Node.content_unadvised]

theorem paragraph_unadvised (h : n.kind? = some .paragraph) :
    paragraph tokens n.unadvised = paragraph tokens n := by
  have hentries := entries_unadvised n (by rw [h]; exact List.Subset.refl _)
  unfold paragraph setNodeStyle setText contentOf Style.ofNode Style.classesOfNode
  rw [hentries]
  simp only [Node.attributes_unadvised, Node.className_unadvised, Node.content_unadvised]

/-- A group looks the same without its advice. It shows two properties more than texts do, how its
content flows and its gap, and these are kept for it. -/
theorem group_unadvised (h : n.kind? = some .group) (children : List Markup) :
    group n.unadvised children = group n children := by
  have hentries := entries_unadvised n (by rw [h]; exact List.subset_append_left _ _)
  have hproperties : ∀ property ∈ ["display", "gap"], property ∈ NodeKind.properties n.kind? := by
    rw [h]
    decide
  have hdisplay := lookup_unadvised n (hproperties "display" (by simp))
  have hgap := lookup_unadvised n (hproperties "gap" (by simp))
  unfold group setNodeStyle groupStyle groupFlow Style.ofNode Style.classesOfNode FreeStyle.usable?
  rw [hentries, hdisplay, hgap]
  simp only [Node.className_unadvised]

/-- **A node looks the same without its advice.** Kinds that show no style look at attributes,
content and class name only, and these are left. -/
theorem node_unadvised (children : List Markup) :
    node tokens n.unadvised children = node tokens n children := by
  unfold node
  rw [Node.kind?_unadvised]
  cases hkind : n.kind? with
  | none =>
    show placeholder n.unadvised = placeholder n
    rw [placeholder, Node.type_unadvised, placeholder]
  | some kind =>
    cases kind with
    | heading => exact heading_unadvised tokens n hkind
    | paragraph => exact paragraph_unadvised tokens n hkind
    | group => exact group_unadvised n hkind children
    | image | button | list | spacer | navigation =>
      simp only [image, button, list, spacer, navigation, contentOf, Node.attributes_unadvised,
        Node.className_unadvised, Node.content_unadvised]

end Render

namespace Node

mutual

/-- **So does a node with all that is below it.** By induction on the node, from what was said about
one node with the same children. -/
theorem markup_unadvised (tokens : Tokens) :
    ∀ node : Node, node.unadvised.markup tokens = node.markup tokens
  | ⟨type, content, attributes, children, motion, style, className⟩ => by
    have hnode := Render.node_unadvised tokens
      ⟨type, content, attributes, children, motion, style, className⟩ (markupIn tokens children)
    rw [unadvised] at hnode ⊢
    rw [markup, markup, markupIn_unadvised tokens children, hnode]

theorem markupIn_unadvised (tokens : Tokens) :
    ∀ children : Option (List Node), markupIn tokens (unadvisedIn children) = markupIn tokens children
  | none => rfl
  | some nodes => by rw [unadvisedIn, markupIn, markupIn, markupAll_unadvised tokens nodes]

theorem markupAll_unadvised (tokens : Tokens) :
    ∀ nodes : List Node, markupAll tokens (unadvisedAll nodes) = markupAll tokens nodes
  | [] => rfl
  | node :: rest => by
    rw [unadvisedAll, markupAll, markupAll, markup_unadvised tokens node,
      markupAll_unadvised tokens rest]

end

theorem unadvisedAll_eq_map (nodes : List Node) : unadvisedAll nodes = nodes.map unadvised := by
  induction nodes with
  | nil => rfl
  | cons node rest ih => rw [unadvisedAll, ih, List.map_cons]

end Node

/-- A section looks the same without its advice, and without that of the nodes in it. -/
theorem Section.markup_unadvised (tokens : Tokens) (s : Section) :
    s.unadvised.markup tokens = s.markup tokens := by
  rw [← markup_map (Node.markup_unadvised tokens) s, ← Node.unadvisedAll_eq_map]
  -- the intent, the motion, the style and the width of a section stand nowhere in its markup
  rfl

/-- **A document has the same templates without its advice.** It is asked whether there is a header
or a footer, which does not change either. -/
theorem Document.templates_unadvised (document : Document) :
    document.unadvised.templates = document.templates := by
  unfold templates Render.index
  simp only [unadvised, List.map_map, Option.map_map, Function.comp_def, Section.markup_unadvised,
    Option.isSome_map]

/-! ## Recovery -/

mutual

/-- The nodes below a node without its advice are those below it, each without its advice, in the
same order. So recovery, which goes through them in this order, comes by the same nodes. -/
theorem Node.preorder_unadvised :
    ∀ node : Node, node.unadvised.preorder = node.preorder.map Node.unadvised
  | ⟨type, content, attributes, children, motion, style, className⟩ => by
    rw [Node.unadvised, Node.preorder, Node.preorder, Node.preorderIn_unadvised children,
      List.map_cons, Node.unadvised]

theorem Node.preorderIn_unadvised :
    ∀ children : Option (List Node),
      Node.preorderIn (Node.unadvisedIn children) = (Node.preorderIn children).map Node.unadvised
  | none => rfl
  | some nodes => by
    rw [Node.unadvisedIn, Node.preorderIn, Node.preorderIn, Node.preorderAll_unadvised nodes]

theorem Node.preorderAll_unadvised :
    ∀ nodes : List Node,
      Node.preorderAll (Node.unadvisedAll nodes) = (Node.preorderAll nodes).map Node.unadvised
  | [] => rfl
  | node :: rest => by
    rw [Node.unadvisedAll, Node.preorderAll, Node.preorderAll, Node.preorder_unadvised node,
      Node.preorderAll_unadvised rest, List.map_append]

end

namespace Recovery

/-- A node has the same leaf without its advice, since that is made of its kind, content and
attributes. -/
theorem nodeLeaf?_unadvised (node : Node) : nodeLeaf? node.unadvised = nodeLeaf? node := by
  unfold nodeLeaf?
  rw [Node.kind?_unadvised, Node.content_unadvised, Node.attributes_unadvised]

theorem nodeKeys_unadvisedAll (nodes : List Node) :
    nodeKeys (Node.unadvisedAll nodes) = nodeKeys nodes := by
  unfold nodeKeys
  rw [Node.preorderAll_unadvised, List.filterMap_map]
  refine congrArg Text.distinct (List.filterMap_congr fun node _ => ?_)
  show (nodeLeaf? node.unadvised).map (·.2) = (nodeLeaf? node).map (·.2)
  rw [nodeLeaf?_unadvised]

/-- **A node asks for the same without its advice**: for the leaf with its key, or for the container
with the keys below it. -/
theorem ofNode_unadvised (node : Node) : Request.ofNode node.unadvised = Request.ofNode node := by
  have hkeys : nodeKeys (node.unadvised.children.getD []) = nodeKeys (node.children.getD []) := by
    rw [Node.children_unadvised]
    cases node.children with
    | none => rfl
    | some nodes => exact nodeKeys_unadvisedAll nodes
  unfold Request.ofNode
  rw [Node.kind?_unadvised, nodeLeaf?_unadvised, hkeys]

/-- A section asks for the same without the advice in it, for itself and for its nodes. -/
theorem ofSection_unadvised (s : Section) : Request.ofSection s.unadvised = Request.ofSection s := by
  show Request.ofKeys (nodeKeys (Node.unadvisedAll s.children))
    :: (Node.preorderAll (Node.unadvisedAll s.children)).map Request.ofNode = _
  rw [nodeKeys_unadvisedAll, Node.preorderAll_unadvised, List.map_map]
  refine congrArg _ (List.map_congr_left fun node _ => ?_)
  exact ofNode_unadvised node

/-- **A document asks for the same without its advice.** Motion and free styles play no part in
keys. -/
theorem targets_unadvised (document : Document) : targets document.unadvised = targets document := by
  -- header, body and footer, of which the first and the last may be missing
  have hregions : document.unadvised.regions = document.regions.map Section.unadvised := by
    cases hheader : document.header <;> cases hfooter : document.footer <;>
      simp [Document.regions, Document.unadvised, hheader, hfooter]
  unfold targets
  rw [hregions, List.flatMap_map]
  exact List.flatMap_congr fun s _ => ofSection_unadvised s

mutual

/-- Dressing a node does not look at its advice. It takes the same grants off the list and leaves
the same ones, and adds the same classes. -/
theorem dressNode_unadvised :
    ∀ (node : Node) (grants : List Grant),
      dressNode node.unadvised grants
        = ((dressNode node grants).1.unadvised, (dressNode node grants).2)
  | ⟨type, content, attributes, children, motion, style, className⟩, grants => by
    simp only [Node.unadvised, dressNode, dressNodesIn_unadvised children]

theorem dressNodesIn_unadvised :
    ∀ (children : Option (List Node)) (grants : List Grant),
      dressNodesIn (Node.unadvisedIn children) grants
        = (Node.unadvisedIn (dressNodesIn children grants).1, (dressNodesIn children grants).2)
  | none, _ => rfl
  | some nodes, grants => by
    simp only [Node.unadvisedIn, dressNodesIn, dressNodes_unadvised nodes]

theorem dressNodes_unadvised :
    ∀ (nodes : List Node) (grants : List Grant),
      dressNodes (Node.unadvisedAll nodes) grants
        = (Node.unadvisedAll (dressNodes nodes grants).1, (dressNodes nodes grants).2)
  | [], _ => rfl
  | node :: more, grants => by
    simp only [Node.unadvisedAll, dressNodes, dressNode_unadvised node, dressNodes_unadvised more]

end

theorem dressSection_unadvised (s : Section) (grants : List Grant) :
    dressSection s.unadvised grants
      = ((dressSection s grants).1.unadvised, (dressSection s grants).2) := by
  simp only [dressSection, Section.unadvised, dressNodes_unadvised]

/-- Dressing sections and taking their advice away can be done in either order. Each of them begins
with the grants that the one before it left. -/
theorem dressSections_unadvised (sections : List Section) (grants : List Grant) :
    dressSections (sections.map Section.unadvised) grants
      = ((dressSections sections grants).1.map Section.unadvised,
        (dressSections sections grants).2) := by
  induction sections generalizing grants with
  | nil => rfl
  | cons s rest ih => simp only [List.map_cons, dressSections, dressSection_unadvised, ih]

/-- The same for a header or a footer, if there is one. -/
theorem dressRegion_unadvised (region : Option Section) (grants : List Grant) :
    dressRegion (region.map Section.unadvised) grants
      = ((dressRegion region grants).1.map Section.unadvised, (dressRegion region grants).2) := by
  cases region with
  | none => rfl
  | some s => simp only [Option.map_some, dressRegion, dressSection_unadvised]

/-- **Dressing a document does not look at its advice.** It is the same whether advice is taken away
before or afterwards. -/
theorem dress_unadvised (document : Document) (grants : List Grant) :
    dress document.unadvised grants = (dress document grants).unadvised := by
  simp only [dress, Document.unadvised, dressRegion_unadvised, dressSections_unadvised]

/-- **Recovery does not look at advice.** It grants the same to the same requests, and then dresses
the document with what was granted; it also breaks off for the same reason. -/
theorem recover_unadvised (stock : Stock) (thresholds : Thresholds) (document : Document) :
    recover stock thresholds document.unadvised
      = (recover stock thresholds document).map Document.unadvised := by
  unfold recover
  rw [targets_unadvised]
  cases assign stock thresholds {} (targets document) with
  | error why => rfl
  | ok grants => exact congrArg Except.ok (dress_unadvised document grants)

end Recovery

/-! ## Conversion -/

namespace Convert

/-- The stylesheet that counts is the same: it is that of the document or the one beside it. -/
theorem stylesheet_unadvised (document : Document) (css : Option String) :
    stylesheet document.unadvised css = stylesheet document css := rfl

/-- The recovery of a conversion does not look at advice, whether it is skipped, fails or is done.
-/
theorem recovered?_unadvised (thresholds : Except Settings.BadThresholds Recovery.Thresholds)
    (document : Document) (html css : Option String) :
    recovered? thresholds document.unadvised html css
      = (recovered? thresholds document html css).map fun found =>
        found.map Document.unadvised := by
  unfold recovered?
  simp only [stylesheet_unadvised, Recovery.recover_unadvised]
  split
  · rfl
  -- the markup is rejected, the thresholds are bad, or recovery is carried out
  · split
    · rfl
    · rfl
    · next stock limits _ =>
      cases Recovery.recover stock limits document <;> rfl

/-- Advice makes no difference to what a conversion does before it writes markup, with or without
recovery. -/
theorem prepared_unadvised (settings : Settings) (document : Document) (html css : Option String) :
    prepared settings document.unadvised html css
      = (prepared settings document html css).map Document.unadvised := by
  unfold prepared
  split
  · rw [recovered?_unadvised]
    cases recovered? settings.thresholds document html css with
    | error why => rfl
    | ok found => cases found <;> rfl
  · rfl

end Convert

/-- What is written for a theme: the name of its directory and its files. -/
def Bundle.theme (bundle : Bundle) : String × List (String × String) := (bundle.slug, bundle.files)

/-- **A document becomes the same theme without its advice.** The files hold its templates, its
tokens and its stylesheet; of the metadata only title and description get into them. -/
theorem Bundle.theme_unadvised (document : Document) (css : Option String) :
    (Bundle.ofDocument document.unadvised css).theme = (Bundle.ofDocument document css).theme := by
  have hsettings : Theme.settingsFile document.unadvised = Theme.settingsFile document := by
    unfold Theme.settingsFile Theme.settingsJson Theme.parts
    simp only [Document.unadvised, Option.isSome_map]
  unfold Bundle.theme Bundle.ofDocument Bundle.filesOf
  simp only [Document.templates_unadvised, hsettings]
  rfl

/-- The conversion of a document gives the same theme without its advice, or fails in the same way.
-/
theorem convert_unadvised (settings : Settings) (document : Document) (html css : Option String) :
    (convert settings document.unadvised html css).map Bundle.theme
      = (convert settings document html css).map Bundle.theme := by
  unfold convert
  rw [Convert.prepared_unadvised]
  cases Convert.prepared settings document html css with
  | error why => rfl
  | ok result => exact congrArg Except.ok (Bundle.theme_unadvised result css)

/-- **Advice never reaches the theme.** Two documents that are the same without their advice are
converted with the same outcome from any markup and stylesheet under any settings: both become a theme
with one name and the same files, or both fail in the same way. -/
theorem convert_depends_on_content {document document' : Document}
    (h : document.unadvised = document'.unadvised) (settings : Settings) (html css : Option String) :
    (convert settings document html css).map Bundle.theme
      = (convert settings document' html css).map Bundle.theme := by
  -- both conversions are those of the one document without advice
  rw [← convert_unadvised settings document, h, convert_unadvised]

/-- The two headings of a page with a good deal of advice around them. -/
def advisedHeadings : Document :=
  { Recovery.twoHeadings with
    metadata := ⟨"Page", none, some "https://example.org"⟩
    body := [
      { intent := "hero"
        layout := ⟨.constrained, none, none, some "80ch", some .center⟩
        children := [
          ⟨"heading", some "Hi", { level := some .one }, none, some .fadeIn,
            some [("gap", "1em"), ("margin", "0")], some "lead"⟩,
          ⟨"group", none, {},
            some [⟨"heading", some "Hi", { level := some .one }, none, none, some [], none⟩],
            some .parallax, none, none⟩]
        motion := some .slideUp
        background := none
        style := some [("color", "red")]
        className := none }] }

/-- The page with the advice gets back the same class names, and the theme is the same. -/
theorem convert_advisedHeadings :
    advisedHeadings.unadvised = Recovery.twoHeadings.unadvised
      ∧ (advisedHeadings.body.map (·.intent), advisedHeadings.summary.motionDowngrades)
        ≠ (Recovery.twoHeadings.body.map (·.intent), Recovery.twoHeadings.summary.motionDowngrades)
      ∧ (convert (.record []) advisedHeadings (some Recovery.twoWrappers) none).map Bundle.theme
        = (convert (.record []) Recovery.twoHeadings (some Recovery.twoWrappers) none).map
          Bundle.theme :=
  have hadvice : advisedHeadings.unadvised = Recovery.twoHeadings.unadvised := by rfl
  ⟨hadvice, by decide +kernel,
    convert_depends_on_content hadvice (.record []) (some Recovery.twoWrappers) none⟩

end BlockTheme
