import BlockTheme.Recovery.Assignment
import Mathlib.Data.List.Basic

/-!
# The walk over a page

Recovery meets the regions of a document in order, and in every region first the section and then
its nodes, each node before its children. `Document.walk` is that list of targets, and
`targets_eq_map_walk` says that the requests are the ones of its targets, place by place.

Dressing a document with grants changes class names and nothing else: without its class names the
document stays the one it was (`unnamed_dress`), and the target at a place of the walk has the
class name that the grant at this place makes of the old one (`classNames_walk_dress`).
-/

namespace BlockTheme

/-! ## Documents without their class names

Everything that recovery decides is decided on these: no request looks at a class name. -/

mutual

/-- A node without the class names on it and below it. -/
def Node.unnamed : Node → Node
  | ⟨type, content, attributes, children, motion, style, _⟩ =>
    ⟨type, content, attributes, Node.unnamedIn children, motion, style, none⟩

def Node.unnamedIn : Option (List Node) → Option (List Node)
  | none => none
  | some nodes => some (Node.unnamedAll nodes)

def Node.unnamedAll : List Node → List Node
  | [] => []
  | node :: rest => node.unnamed :: Node.unnamedAll rest

end

/-- A section without the class names on it and in it. -/
def Section.unnamed (s : Section) : Section :=
  { s with children := Node.unnamedAll s.children, className := none }

/-- A document without class names. -/
def Document.unnamed (document : Document) : Document :=
  { document with
    header := document.header.map Section.unnamed
    body := document.body.map Section.unnamed
    footer := document.footer.map Section.unnamed }

/-- Header, body and footer keep their places when class names are taken away. -/
theorem Document.regions_unnamed (document : Document) :
    document.unnamed.regions = document.regions.map Section.unnamed := by
  cases document with
  | mk metadata tokens header body footer stylesheet =>
    cases header <;> cases footer <;> simp [Document.unnamed, Document.regions]

mutual

/-- Class names do not decide which nodes are met, nor when. By induction on the tree, with the two
statements that follow. -/
theorem Node.preorder_unnamed :
    ∀ node : Node, node.unnamed.preorder = node.preorder.map Node.unnamed
  | ⟨type, content, attributes, children, motion, style, className⟩ => by
    rw [Node.unnamed, Node.preorder, Node.preorder, Node.preorderIn_unnamed children,
      List.map_cons, Node.unnamed]

/-- Below a node, where there may be no children, the walk without class names is the walk with its
class names taken away. -/
theorem Node.preorderIn_unnamed :
    ∀ children : Option (List Node),
      Node.preorderIn (Node.unnamedIn children) = (Node.preorderIn children).map Node.unnamed
  | none => rfl
  | some nodes => by
    rw [Node.unnamedIn, Node.preorderIn, Node.preorderIn, Node.preorderAll_unnamed nodes]

theorem Node.preorderAll_unnamed :
    ∀ nodes : List Node,
      Node.preorderAll (Node.unnamedAll nodes) = (Node.preorderAll nodes).map Node.unnamed
  | [] => rfl
  | node :: rest => by
    rw [Node.unnamedAll, Node.preorderAll, Node.preorderAll, Node.preorder_unnamed node,
      Node.preorderAll_unnamed rest, List.map_append]

end

namespace Recovery

/-! ## Targets -/

/-- What can get something: a section, or a node at any depth. -/
inductive Target where
  | region (s : Section)
  | node (n : Node)

namespace Target

def className : Target → Option String
  | .region s => s.className
  | .node n => n.className

def unnamed : Target → Target
  | .region s => .region s.unnamed
  | .node n => .node n.unnamed

/-- Whether a target can get a container: sections and groups can. -/
def IsHolder : Target → Prop
  | .region _ => True
  | .node n => n.kind? = some .group

instance (target : Target) : Decidable target.IsHolder :=
  match target with
  | .region _ => inferInstanceAs (Decidable True)
  | .node n => inferInstanceAs (Decidable (n.kind? = some .group))

def keys : Target → List String
  | .region s => nodeKeys s.children
  | .node n => nodeKeys (n.children.getD [])

def request : Target → Request
  | .region s => .ofKeys (nodeKeys s.children)
  | .node n => .ofNode n

end Target

end Recovery

open Recovery (Target Grant Request)

/-- The targets of a section: itself and the nodes in it. -/
def Section.walk (s : Section) : List Target :=
  .region s :: (Node.preorderAll s.children).map .node

/-- The targets of a document in the order in which they are met. -/
def Document.walk (document : Document) : List Target := document.regions.flatMap Section.walk

namespace Recovery

/-- The requests are those of the walk. -/
theorem targets_eq_map_walk (document : Document) :
    targets document = document.walk.map Target.request := by
  unfold targets Document.walk
  rw [List.map_flatMap]
  refine List.flatMap_congr fun s _ => ?_
  simp [Request.ofSection, Section.walk, Target.request]

/-- A target asks for a container exactly if it is a section or a group with keys below it, and
then it names these. -/
theorem request_eq_container_iff {target : Target} {keys : List String} :
    target.request = .container keys ↔ target.IsHolder ∧ keys = target.keys ∧ keys ≠ [] := by
  -- without keys nothing is asked for
  have hofKeys : ∀ found : List String,
      Request.ofKeys found = .container keys ↔ keys = found ∧ keys ≠ [] := by
    intro found
    cases found with
    | nil => simp [Request.ofKeys]
    | cons key rest =>
      simp only [Request.ofKeys, List.isEmpty_cons, Bool.false_eq_true, if_false,
        Request.container.injEq]
      constructor
      · rintro rfl
        exact ⟨rfl, by simp⟩
      · rintro ⟨rfl, -⟩
        rfl
  cases target with
  | region s => simp [Target.request, Target.IsHolder, Target.keys, hofKeys]
  | node n =>
    by_cases hgroup : n.kind? = some .group
    · simp [Target.request, Request.ofNode, Target.IsHolder, Target.keys, hgroup, hofKeys]
    · simp only [Target.request, Request.ofNode, Target.IsHolder, hgroup, if_false, false_and,
        iff_false]
      split <;> simp

/-- A group is no leaf, so that a node never asks for a leaf and a container. -/
theorem nodeLeaf?_of_group {n : Node} (h : n.kind? = some .group) : nodeLeaf? n = none := by
  simp [nodeLeaf?, h]

/-- A target asks for a leaf exactly if it is a keyed leaf node, and then it names its kind and its
key. -/
theorem request_eq_leaf_iff {target : Target} {kind : LeafKind} {key : String} :
    target.request = .leaf kind key ↔
      ∃ n, target = .node n ∧ nodeLeaf? n = some (kind, key) := by
  have hofKeys : ∀ found : List String, Request.ofKeys found ≠ .leaf kind key := by
    intro found
    unfold Request.ofKeys
    split <;> simp
  cases target with
  | region s => simp [Target.request, hofKeys]
  | node n =>
    by_cases hgroup : n.kind? = some .group
    · simp [Target.request, Request.ofNode, hgroup, hofKeys, nodeLeaf?_of_group hgroup]
    · cases hleaf : nodeLeaf? n with
      | none => simp [Target.request, Request.ofNode, hgroup, hleaf]
      | some found =>
        obtain ⟨kind', key'⟩ := found
        simp [Target.request, Request.ofNode, hgroup, hleaf]

/-! ## Dressing changes class names only -/

mutual

/-- By induction on the tree: a grant is put into the class name, which `unnamed` takes away again.
-/
theorem unnamed_dressNode :
    ∀ (node : Node) (grants : List Grant), (dressNode node grants).1.unnamed = node.unnamed
  | ⟨type, content, attributes, children, motion, style, className⟩, grants => by
    simp only [dressNode, Node.unnamed]
    rw [unnamedIn_dressNodesIn children]

theorem unnamedIn_dressNodesIn :
    ∀ (children : Option (List Node)) (grants : List Grant),
      Node.unnamedIn (dressNodesIn children grants).1 = Node.unnamedIn children
  | none, _ => rfl
  | some nodes, grants => by
    simp only [dressNodesIn, Node.unnamedIn]
    rw [unnamedAll_dressNodes nodes]

/-- Lists of nodes, each dressed with what the ones before it left over. -/
theorem unnamedAll_dressNodes :
    ∀ (nodes : List Node) (grants : List Grant),
      Node.unnamedAll (dressNodes nodes grants).1 = Node.unnamedAll nodes
  | [], _ => rfl
  | node :: rest, grants => by
    simp only [dressNodes, Node.unnamedAll]
    rw [unnamed_dressNode node, unnamedAll_dressNodes rest]

end

/-- The section itself has a class name as well, and that is taken away with the others. -/
theorem unnamed_dressSection (s : Section) (grants : List Grant) :
    (dressSection s grants).1.unnamed = s.unnamed := by
  simp only [dressSection, Section.unnamed]
  rw [unnamedAll_dressNodes]

/-- By induction on the list, whatever grants are left over on the way. -/
theorem unnamed_dressSections (sections : List Section) (grants : List Grant) :
    (dressSections sections grants).1.map Section.unnamed = sections.map Section.unnamed := by
  induction sections generalizing grants with
  | nil => rfl
  | cons s rest ih =>
    simp only [dressSections, List.map_cons]
    rw [unnamed_dressSection, ih]

theorem unnamed_dressRegion (region : Option Section) (grants : List Grant) :
    (dressRegion region grants).1.map Section.unnamed = region.map Section.unnamed := by
  cases region with
  | none => rfl
  | some s =>
    simp only [dressRegion, Option.map_some]
    rw [unnamed_dressSection]

/-- **Dressing keeps everything but class names.** Fields, nodes, sections and their order are the
same once the class names are taken away on both sides. -/
theorem unnamed_dress (document : Document) (grants : List Grant) :
    (dress document grants).unnamed = document.unnamed := by
  simp only [dress, Document.unnamed]
  rw [unnamed_dressRegion, unnamed_dressSections, unnamed_dressRegion]

/-- The walk over a section without class names meets its targets without their class names. -/
theorem walk_unnamed_section (s : Section) : s.unnamed.walk = s.walk.map Target.unnamed := by
  simp only [Section.walk, Section.unnamed, List.map_cons, List.map_map]
  rw [Node.preorderAll_unnamed, List.map_map]
  rfl

/-- The walk over a document without class names meets the targets of the document, region by
region, each without its class name. -/
theorem walk_unnamed (document : Document) :
    document.unnamed.walk = document.walk.map Target.unnamed := by
  rw [Document.walk, Document.walk, document.regions_unnamed, List.flatMap_map, List.map_flatMap]
  exact List.flatMap_congr fun s _ => walk_unnamed_section s

/-! ## The class name at a place of the walk

Dressing hands the list of grants through the tree and drops one grant for each target. So the
place of a target among the targets is the place of its grant among the grants, which is what the
two halves of each statement below say together. -/

/-- The grant at a place; past the end there is nothing. -/
def grantAt (grants : List Grant) (place : Nat) : Grant := (grants[place]?).getD .nothing

/-- The grant at a place behind the first `n` grants. -/
theorem grantAt_drop (grants : List Grant) (n place : Nat) :
    grantAt (grants.drop n) place = grantAt grants (n + place) := by
  simp [grantAt]

/-- The class names of targets, each with the grant at its place. -/
def dressedNames (walk : List Target) (grants : List Grant) : List (Option String) :=
  walk.mapIdx fun place target => (grantAt grants place).dress target.className

@[simp] theorem dressedNames_nil (grants : List Grant) : dressedNames [] grants = [] := rfl

/-- Targets behind others are dressed with the grants behind theirs. -/
theorem dressedNames_append (a b : List Target) (grants : List Grant) :
    dressedNames (a ++ b) grants
      = dressedNames a grants ++ dressedNames b (grants.drop a.length) := by
  simp only [dressedNames, List.mapIdx_append, grantAt_drop, Nat.add_comm]

theorem dressedNames_cons (target : Target) (rest : List Target) (grants : List Grant) :
    dressedNames (target :: rest) grants
      = (grants.headD .nothing).dress target.className :: dressedNames rest (grants.drop 1) := by
  simp only [dressedNames, List.mapIdx_cons, grantAt_drop, Nat.add_comm]
  cases grants <;> simp [grantAt]

mutual

/-- The class names in a dressed node, and the grants that are left over. -/
theorem classNames_dressNode :
    ∀ (node : Node) (grants : List Grant),
      (dressNode node grants).1.preorder.map Node.className
          = dressedNames (node.preorder.map .node) grants
        ∧ (dressNode node grants).2 = grants.drop node.preorder.length
  | ⟨type, content, attributes, children, motion, style, className⟩, grants => by
    -- the node takes the first grant, its children those after it
    obtain ⟨hnames, hrest⟩ := classNames_dressNodesIn children (grants.drop 1)
    simp only [dressNode, Node.preorder, List.map_cons, dressedNames_cons, hnames, hrest,
      List.drop_drop, List.length_cons, Target.className]
    simp [Nat.add_comm]

/-- The class names below a node that may have no children. -/
theorem classNames_dressNodesIn :
    ∀ (children : Option (List Node)) (grants : List Grant),
      (Node.preorderIn (dressNodesIn children grants).1).map Node.className
          = dressedNames ((Node.preorderIn children).map .node) grants
        ∧ (dressNodesIn children grants).2 = grants.drop (Node.preorderIn children).length
  | none, _ => ⟨rfl, rfl⟩
  | some nodes, grants => classNames_dressNodes nodes grants

/-- The class names in a list of nodes. The first node says how many grants it uses, and the rest is
left for the others. -/
theorem classNames_dressNodes :
    ∀ (nodes : List Node) (grants : List Grant),
      (Node.preorderAll (dressNodes nodes grants).1).map Node.className
          = dressedNames ((Node.preorderAll nodes).map .node) grants
        ∧ (dressNodes nodes grants).2 = grants.drop (Node.preorderAll nodes).length
  | [], _ => ⟨rfl, rfl⟩
  | node :: more, grants => by
    obtain ⟨hnames, hrest⟩ := classNames_dressNode node grants
    obtain ⟨hmore, hlast⟩ := classNames_dressNodes more (grants.drop node.preorder.length)
    simp only [dressNodes, Node.preorderAll, List.map_append, dressedNames_append, hnames, hrest,
      hmore, hlast, List.length_append, List.length_map, List.drop_drop, and_self]

end

/-- A section uses one grant for itself and one for every node in it, in the order of the walk. -/
theorem classNames_dressSection (s : Section) (grants : List Grant) :
    (dressSection s grants).1.walk.map Target.className = dressedNames s.walk grants
      ∧ (dressSection s grants).2 = grants.drop s.walk.length := by
  obtain ⟨hnames, hrest⟩ := classNames_dressNodes s.children (grants.drop 1)
  constructor
  · simp only [Section.walk, dressSection, List.map_cons, dressedNames_cons, Target.className]
    rw [← hnames, List.map_map]
    rfl
  · simp only [Section.walk, dressSection, hrest, List.drop_drop, List.length_cons,
      List.length_map]
    rw [Nat.add_comm]

/-- Sections one after the other, by induction on the list. The second half is what the induction
needs: how many grants are left over. -/
theorem classNames_dressSections (sections : List Section) (grants : List Grant) :
    ((dressSections sections grants).1.flatMap Section.walk).map Target.className
        = dressedNames (sections.flatMap Section.walk) grants
      ∧ (dressSections sections grants).2
        = grants.drop (sections.flatMap Section.walk).length := by
  induction sections generalizing grants with
  | nil => exact ⟨rfl, rfl⟩
  | cons s rest ih =>
    obtain ⟨hnames, hrest⟩ := classNames_dressSection s grants
    obtain ⟨hmore, hlast⟩ := ih (grants.drop s.walk.length)
    simp only [dressSections, List.flatMap_cons, List.map_append, dressedNames_append, hnames,
      hrest, hmore, hlast, List.length_append, List.drop_drop, and_self]

/-- A header or a footer; one that is missing uses no grants. -/
theorem classNames_dressRegion (region : Option Section) (grants : List Grant) :
    ((dressRegion region grants).1.toList.flatMap Section.walk).map Target.className
        = dressedNames (region.toList.flatMap Section.walk) grants
      ∧ (dressRegion region grants).2
        = grants.drop (region.toList.flatMap Section.walk).length := by
  cases region with
  | none => exact ⟨rfl, rfl⟩
  | some s =>
    have h := classNames_dressSection s grants
    simpa [dressRegion] using h

/-- **The class name at every place of the walk is the old one, dressed with the grant at this
place.** Together with `unnamed_dress` this says all about a dressed document. -/
theorem classNames_walk_dress (document : Document) (grants : List Grant) :
    (dress document grants).walk.map Target.className = dressedNames document.walk grants := by
  obtain ⟨hheader, hrest⟩ := classNames_dressRegion document.header grants
  obtain ⟨hbody, hrest'⟩ := classNames_dressSections document.body
    (grants.drop (document.header.toList.flatMap Section.walk).length)
  obtain ⟨hfooter, -⟩ := classNames_dressRegion document.footer
    ((grants.drop (document.header.toList.flatMap Section.walk).length).drop
      (document.body.flatMap Section.walk).length)
  rw [List.drop_drop] at hfooter
  simp only [Document.walk, Document.regions, dress, List.flatMap_append, List.map_append,
    dressedNames_append, hheader, hbody, hfooter, hrest, hrest', List.length_append,
    List.drop_drop]

/-- A dressed document has its targets at the places where the document has them, each dressed with
the grant of its own place. -/
theorem getElem?_walk_dress {document : Document} (grants : List Grant) {place : Nat}
    {target : Target} (h : document.walk[place]? = some target) :
    ∃ dressed, (dress document grants).walk[place]? = some dressed
      ∧ dressed.unnamed = target.unnamed
      ∧ dressed.className = (grantAt grants place).dress target.className := by
  -- the walk is the same but for class names, and these are known place by place
  have hsame : (dress document grants).walk.map Target.unnamed
      = document.walk.map Target.unnamed := by
    rw [← walk_unnamed, ← walk_unnamed, unnamed_dress]
  have hunnamed := congrArg (fun walk => walk[place]?) hsame
  have hnames := congrArg (fun names => names[place]?) (classNames_walk_dress document grants)
  simp only [List.getElem?_map, h, Option.map_some, Option.map_eq_some_iff] at hunnamed
  obtain ⟨dressed, hdressed, hequal⟩ := hunnamed
  refine ⟨dressed, hdressed, hequal, ?_⟩
  simpa [dressedNames, hdressed, h] using hnames

end Recovery

end BlockTheme
