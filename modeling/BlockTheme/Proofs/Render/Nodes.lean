import BlockTheme.Proofs.Render.Kinds

/-!
# Comments in the markup of nodes

The markup of a node is tidy whatever the node says (`Node.tidy_markup`), and it is inert exactly if
the texts that the node puts into comments and into the classes and the style of elements are quiet,
at the node itself and at all nodes that are shown below it (`Node.inert_markup_iff`).
-/

namespace BlockTheme

/-! ## What a node puts into its markup -/

/-- A node that ends no comment of its markup and begins none in it. Its type stands in a comment if
it has no markup of its own; otherwise its class name stands in a comment and in an element, and so
does the style of a heading, a paragraph or a group. -/
def Node.Inert (node : Node) : Prop :=
  match node.kind? with
  | none => ¬Comment.EndsIn node.type
  | some .spacer => True
  | some .heading | some .paragraph =>
    QuietName node.className ∧ QuietEntries (StyleEntry.ofNode node.attributes node.style)
  | some .group => QuietName node.className ∧ QuietEntries node.groupEntries
  | some .image | some .button | some .list | some .navigation => QuietName node.className

mutual

/-- A node and the nodes below it that are shown: those in groups. -/
def Node.shown : Node → List Node
  | ⟨type, content, attributes, children, motion, style, className⟩ =>
    ⟨type, content, attributes, children, motion, style, className⟩
      :: if (⟨type, content, attributes, children, motion, style, className⟩ : Node).kind?
            = some .group then Node.shownIn children else []

/-- The shown nodes of children that may be missing. -/
def Node.shownIn : Option (List Node) → List Node
  | none => []
  | some nodes => Node.shownAll nodes

/-- The shown nodes of a list. -/
def Node.shownAll : List Node → List Node
  | [] => []
  | node :: rest => node.shown ++ Node.shownAll rest

end

/-! ## Trees of nodes -/

namespace Render

open Markup (Inert Tidy)

variable (tokens : Tokens) (n : Node)

/-- A node with its children. Of the children only those of groups matter, since no other kind of
node shows any. -/
theorem inert_node_iff (children : List Markup) :
    Inert (node tokens n children)
      ↔ n.Inert ∧ (n.kind? = some .group → ∀ child ∈ children, Inert child) := by
  unfold node Node.Inert
  cases hkind : n.kind? with
  | none => simp [inert_placeholder_iff]
  | some kind =>
    cases kind with
    | heading => simp [inert_heading_iff]
    | paragraph => simp [inert_paragraph_iff]
    | image => simp [inert_image_iff]
    | button => simp [inert_button_iff]
    | list => simp [inert_list_iff]
    | spacer => simp [inert_spacer]
    | group => simp [inert_group_iff]
    | navigation => simp [inert_navigation_iff]

theorem tidy_node {children : List Markup} (h : ∀ child ∈ children, Tidy child) :
    Tidy (node tokens n children) := by
  unfold node
  split
  · exact tidy_heading tokens n
  · exact tidy_paragraph tokens n
  · exact tidy_image n
  · exact tidy_button n
  · exact tidy_list n
  · exact tidy_spacer n
  · exact tidy_group n h
  · exact tidy_navigation n
  · exact tidy_placeholder n

end Render

namespace Node

mutual

/-- The markup of a node is tidy. -/
theorem tidy_markup (tokens : Tokens) : ∀ node : Node, (node.markup tokens).Tidy
  | ⟨type, content, attributes, children, motion, style, className⟩ => by
    rw [markup]
    exact Render.tidy_node tokens _ (tidy_markupIn tokens children)

theorem tidy_markupIn (tokens : Tokens) :
    ∀ children : Option (List Node), ∀ child ∈ markupIn tokens children, child.Tidy
  | none => by simp [markupIn]
  | some nodes => tidy_markupAll tokens nodes

theorem tidy_markupAll (tokens : Tokens) :
    ∀ nodes : List Node, ∀ piece ∈ markupAll tokens nodes, piece.Tidy
  | [] => by simp [markupAll]
  | node :: rest => by
    rw [markupAll, List.forall_mem_cons]
    exact ⟨tidy_markup tokens node, tidy_markupAll tokens rest⟩

end

mutual

/-- **The markup of a node is inert exactly if the node is and all nodes shown below it are.** By
induction on the tree, with the lemmas about kinds for each node. -/
theorem inert_markup_iff (tokens : Tokens) :
    ∀ node : Node, (node.markup tokens).Inert ↔ ∀ m ∈ node.shown, m.Inert
  | ⟨type, content, attributes, children, motion, style, className⟩ => by
    have hchildren := inert_markupIn_iff tokens children
    rw [markup, Render.inert_node_iff, shown, List.forall_mem_cons, hchildren]
    split
    · next hgroup => simp [hgroup]
    · next hother => simp [hother]

theorem inert_markupIn_iff (tokens : Tokens) :
    ∀ children : Option (List Node),
      (∀ child ∈ markupIn tokens children, child.Inert) ↔ ∀ m ∈ shownIn children, m.Inert
  | none => by simp [markupIn, shownIn]
  | some nodes => inert_markupAll_iff tokens nodes

theorem inert_markupAll_iff (tokens : Tokens) :
    ∀ nodes : List Node,
      (∀ piece ∈ markupAll tokens nodes, piece.Inert) ↔ ∀ m ∈ shownAll nodes, m.Inert
  | [] => by simp [markupAll, shownAll]
  | node :: rest => by
    rw [markupAll, List.forall_mem_cons, inert_markup_iff tokens node,
      inert_markupAll_iff tokens rest, shownAll, List.forall_mem_append]

end

end Node

end BlockTheme
