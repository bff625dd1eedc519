import BlockTheme.Proofs.Chunks
import BlockTheme.Proofs.Render.Nodes
import BlockTheme.Render.Template

/-!
# What markup leaves out

A node can have children whatever its kind is, but only groups show theirs. `Document.pruned` is a
document without the nodes that no group shows; its templates are the same
(`Document.templates_pruned`).
-/

namespace BlockTheme

mutual

/-- A node without the nodes below it that no group shows. -/
def Node.pruned : Node → Node
  | ⟨type, content, attributes, children, motion, style, className⟩ =>
    ⟨type, content, attributes,
      if (⟨type, content, attributes, children, motion, style, className⟩ : Node).kind?
          = some .group then Node.prunedIn children else none,
      motion, style, className⟩

/-- The children that are left, if there are any. -/
def Node.prunedIn : Option (List Node) → Option (List Node)
  | none => none
  | some nodes => some (Node.prunedAll nodes)

/-- What is left of each of some nodes. -/
def Node.prunedAll : List Node → List Node
  | [] => []
  | node :: rest => node.pruned :: Node.prunedAll rest

end

/-- A section without the nodes that no group shows. -/
def Section.pruned (s : Section) : Section := { s with children := Node.prunedAll s.children }

/-- A document without the nodes that no group shows. -/
def Document.pruned (document : Document) : Document :=
  { document with
    header := document.header.map Section.pruned
    body := document.body.map Section.pruned
    footer := document.footer.map Section.pruned }

theorem Node.prunedAll_eq_map (nodes : List Node) : prunedAll nodes = nodes.map pruned := by
  induction nodes with
  | nil => rfl
  | cons node rest ih => rw [prunedAll, ih, List.map_cons]

theorem Document.regions_pruned (document : Document) :
    document.pruned.regions = document.regions.map Section.pruned := by
  cases hheader : document.header <;> cases hfooter : document.footer <;>
    simp [regions, pruned, hheader, hfooter]

/-! ## The shown nodes are what is left -/

namespace Node

mutual

/-- A pruned node shows what it showed, pruned. By induction on the tree, with the two statements
that follow. -/
theorem shown_pruned : ∀ node : Node, node.pruned.shown = node.shown.map pruned
  | ⟨type, content, attributes, children, motion, style, className⟩ => by
    have hchildren := shownIn_prunedIn children
    rw [pruned, shown, shown]
    by_cases hgroup : (Schema.Named.ofName? type : Option NodeKind) = some .group
    · simp only [kind?, hgroup, if_true, hchildren, List.map_cons, pruned]
    · simp only [kind?, hgroup, if_false, List.map_cons, List.map_nil, pruned]

theorem shownIn_prunedIn :
    ∀ children : Option (List Node), shownIn (prunedIn children) = (shownIn children).map pruned
  | none => rfl
  | some nodes => by rw [prunedIn, shownIn, shownIn, shownAll_prunedAll nodes]

theorem shownAll_prunedAll :
    ∀ nodes : List Node, shownAll (prunedAll nodes) = (shownAll nodes).map pruned
  | [] => rfl
  | node :: rest => by
    rw [prunedAll, shownAll, shownAll, shown_pruned node, shownAll_prunedAll rest, List.map_append]

end

end Node

/-! ## Markup -/

/-- Only groups look at their children; any other node looks the same with whatever is below it. -/
theorem Render.node_of_ne_group (tokens : Tokens) {n : Node} (h : n.kind? ≠ some .group)
    (children : Option (List Node)) (below below' : List Markup) :
    node tokens { n with children } below = node tokens n below' := by
  have hkind : ({ n with children } : Node).kind? = n.kind? := rfl
  unfold node
  rw [hkind]
  cases hcase : n.kind? with
  | none => rfl
  | some kind =>
    cases kind with
    | group => exact absurd hcase h
    | _ => rfl

namespace Node

mutual

/-- A node looks the same when it is pruned: only groups look at their children. By recursion on the
node, along with lists of nodes, as pruning itself recurses. -/
theorem markup_pruned (tokens : Tokens) :
    ∀ node : Node, node.pruned.markup tokens = node.markup tokens
  | ⟨type, content, attributes, children, motion, style, className⟩ => by
    rw [pruned, markup, markup]
    by_cases hgroup : (⟨type, content, attributes, children, motion, style, className⟩ : Node).kind?
        = some .group
    · rw [if_pos hgroup, markupIn_prunedIn tokens children]
      unfold Render.node
      have hkind : ∀ other, (⟨type, content, attributes, other, motion, style, className⟩ : Node).kind?
          = some .group := fun _ => hgroup
      rw [hkind, hkind]
      rfl
    · rw [if_neg hgroup]
      exact Render.node_of_ne_group tokens hgroup none _ _

theorem markupIn_prunedIn (tokens : Tokens) :
    ∀ children : Option (List Node), markupIn tokens (prunedIn children) = markupIn tokens children
  | none => rfl
  | some nodes => by rw [prunedIn, markupIn, markupIn, markupAll_prunedAll tokens nodes]

theorem markupAll_prunedAll (tokens : Tokens) :
    ∀ nodes : List Node, markupAll tokens (prunedAll nodes) = markupAll tokens nodes
  | [] => rfl
  | node :: rest => by
    rw [prunedAll, markupAll, markupAll, markup_pruned tokens node, markupAll_prunedAll tokens rest]

end

/-- What keeps the look of every node keeps the look of nodes in a row. -/
theorem markupAll_map {tokens : Tokens} {f : Node → Node}
    (hf : ∀ node : Node, (f node).markup tokens = node.markup tokens) (nodes : List Node) :
    markupAll tokens (nodes.map f) = markupAll tokens nodes := by
  induction nodes with
  | nil => rfl
  | cons node rest ih => rw [List.map_cons, markupAll, markupAll, hf, ih]

end Node

/-- **A section looks the same with children that look the same.** In columns too, as children are
spread over these by their number alone. -/
theorem Section.markup_map {tokens : Tokens} {f : Node → Node}
    (hf : ∀ node : Node, (f node).markup tokens = node.markup tokens) (s : Section) :
    markup tokens { s with children := s.children.map f } = s.markup tokens := by
  have hcolumns : Render.columnsOf { s with children := s.children.map f }
      = (Render.columnsOf s).map (List.map f) := chunks_map f _ s.children
  have hcolumn : ∀ nodes : List Node,
      Render.column tokens (nodes.map f) = Render.column tokens nodes := by
    intro nodes
    rw [Render.column, Render.column, Node.markupAll_map hf]
  have hlayout : Render.layout tokens { s with children := s.children.map f }
      = Render.layout tokens s := by
    unfold Render.layout
    rw [hcolumns, Node.markupAll_map hf, List.map_map]
    simp only [Function.comp_def, hcolumn]
  unfold markup Render.cover Render.sectionGroup
  simp only [hlayout]
  rfl

theorem Section.markup_pruned (tokens : Tokens) (s : Section) :
    s.pruned.markup tokens = s.markup tokens := by
  rw [pruned, Node.prunedAll_eq_map]
  exact markup_map (Node.markup_pruned tokens) s

/-- **Templates hold nothing of the nodes that no group shows.** So two documents with the same
pruned one have the same templates. -/
theorem Document.templates_pruned (document : Document) :
    document.pruned.templates = document.templates := by
  unfold templates Render.index
  simp only [pruned, List.map_map, Option.map_map, Function.comp_def, Section.markup_pruned,
    Option.isSome_map]

end BlockTheme
