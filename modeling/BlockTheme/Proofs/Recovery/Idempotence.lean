import BlockTheme.Proofs.Recovery.Shipped

/-!
# Recovering twice

A second recovery changes nothing more (`recovered_idempotent`). No request looks at a class name, so
a document asks for the same with and without its grants (`targets_dress`), and both runs grant the
same at every place. What is granted is added to a class name that has it already, which leaves the
class name as it is (`mergeClassName_mergeClassName`).
-/

namespace BlockTheme

/-! ## Requests and class names -/

theorem Node.kind?_unnamed (node : Node) : node.unnamed.kind? = node.kind? := by
  cases node
  rw [Node.unnamed]
  rfl

namespace Recovery

/-- A node is the same leaf without its class names, as keys are made of what a node says. -/
theorem nodeLeaf?_unnamed (node : Node) : nodeLeaf? node.unnamed = nodeLeaf? node := by
  cases node
  rw [Node.unnamed]
  rfl

/-- Nodes have the same keys without their class names, in the same order. -/
theorem nodeKeys_unnamedAll (nodes : List Node) :
    nodeKeys (Node.unnamedAll nodes) = nodeKeys nodes := by
  unfold nodeKeys
  rw [Node.preorderAll_unnamed, List.filterMap_map]
  refine congrArg Text.distinct (List.filterMap_congr fun node _ => ?_)
  show (nodeLeaf? node.unnamed).map (·.2) = (nodeLeaf? node).map (·.2)
  rw [nodeLeaf?_unnamed]

theorem nodeKeys_unnamed_children (node : Node) :
    nodeKeys (node.unnamed.children.getD []) = nodeKeys (node.children.getD []) := by
  obtain ⟨type, content, attributes, children, motion, style, className⟩ := node
  rw [Node.unnamed]
  cases children with
  | none => rfl
  | some nodes => exact nodeKeys_unnamedAll nodes

theorem request_unnamed (target : Target) : target.unnamed.request = target.request := by
  cases target with
  | region s =>
    show Request.ofKeys (nodeKeys (Node.unnamedAll s.children)) = Request.ofKeys (nodeKeys s.children)
    rw [nodeKeys_unnamedAll]
  | node n =>
    show Request.ofNode n.unnamed = Request.ofNode n
    unfold Request.ofNode
    rw [Node.kind?_unnamed, nodeLeaf?_unnamed, nodeKeys_unnamed_children]

theorem targets_unnamed (document : Document) : targets document.unnamed = targets document := by
  rw [targets_eq_map_walk, targets_eq_map_walk, walk_unnamed, List.map_map]
  exact List.map_congr_left fun target _ => request_unnamed target

/-- **A dressed document asks for what the document asks for.** Dressing changes class names only,
and no request looks at one. -/
theorem targets_dress (document : Document) (grants : List Grant) :
    targets (dress document grants) = targets document := by
  rw [← targets_unnamed (dress document grants), unnamed_dress, targets_unnamed]

/-! ## Dressing twice -/

/-- Whether all classes of a grant are words. -/
def Grant.IsWorded (grant : Grant) : Prop := ∀ name ∈ grant.classes, Text.IsWord name

/-- A class name that was dressed with a grant has its classes already. That they are words matters:
other texts would be cut up when the class name is read. -/
theorem Grant.dress_dress {grant : Grant} (h : grant.IsWorded) (className : Option String) :
    grant.dress (grant.dress className) = grant.dress className :=
  mergeClassName_mergeClassName className h

/-- If all grants are worded then so is the first one, which is the empty one if there is none. -/
theorem isWorded_headD {grants : List Grant} (h : ∀ grant ∈ grants, grant.IsWorded) :
    (grants.headD .nothing).IsWorded := by
  cases grants with
  | nil =>
    intro name hname
    exact absurd hname List.not_mem_nil
  | cons grant rest => exact h grant List.mem_cons_self

theorem isWorded_drop {grants : List Grant} (h : ∀ grant ∈ grants, grant.IsWorded) (n : Nat) :
    ∀ grant ∈ grants.drop n, grant.IsWorded :=
  fun grant hgrant => h grant (List.mem_of_mem_drop hgrant)

mutual

/-- By induction on the tree, along with the next two: the same grants come to the same nodes both
times. -/
theorem dressNode_dressNode :
    ∀ (node : Node) {grants : List Grant}, (∀ grant ∈ grants, grant.IsWorded) →
      dressNode (dressNode node grants).1 grants = dressNode node grants
  | ⟨type, content, attributes, children, motion, style, className⟩, grants, h => by
    have hchildren := dressNodesIn_dressNodesIn children (isWorded_drop h 1)
    have hname := Grant.dress_dress (isWorded_headD h) className
    simp only [dressNode, hchildren, hname]

theorem dressNodesIn_dressNodesIn :
    ∀ (children : Option (List Node)) {grants : List Grant}, (∀ grant ∈ grants, grant.IsWorded) →
      dressNodesIn (dressNodesIn children grants).1 grants = dressNodesIn children grants
  | none, _, _ => rfl
  | some nodes, _, h => by
    have hnodes := dressNodes_dressNodes nodes h
    simp only [dressNodesIn, hnodes]

/-- In a list of nodes. The first one uses as many grants the second time as it did the first time.
-/
theorem dressNodes_dressNodes :
    ∀ (nodes : List Node) {grants : List Grant}, (∀ grant ∈ grants, grant.IsWorded) →
      dressNodes (dressNodes nodes grants).1 grants = dressNodes nodes grants
  | [], _, _ => rfl
  | node :: more, grants, h => by
    have hnode := dressNode_dressNode node h
    -- the nodes after it are given the grants that the first one leaves over
    have hrest : ∀ grant ∈ (dressNode node grants).2, grant.IsWorded := by
      rw [(classNames_dressNode node grants).2]
      exact isWorded_drop h _
    have hmore := dressNodes_dressNodes more hrest
    simp only [dressNodes, hnode, hmore]

end

theorem dressSection_dressSection (s : Section) {grants : List Grant}
    (h : ∀ grant ∈ grants, grant.IsWorded) :
    dressSection (dressSection s grants).1 grants = dressSection s grants := by
  have hchildren := dressNodes_dressNodes s.children (isWorded_drop h 1)
  have hname := Grant.dress_dress (isWorded_headD h) s.className
  simp only [dressSection, hchildren, hname]

/-- The sections of the body, by induction on the list. -/
theorem dressSections_dressSections (sections : List Section) {grants : List Grant}
    (h : ∀ grant ∈ grants, grant.IsWorded) :
    dressSections (dressSections sections grants).1 grants = dressSections sections grants := by
  induction sections generalizing grants with
  | nil => rfl
  | cons s rest ih =>
    have hsection := dressSection_dressSection s h
    have hleft : ∀ grant ∈ (dressSection s grants).2, grant.IsWorded := by
      rw [(classNames_dressSection s grants).2]
      exact isWorded_drop h _
    simp only [dressSections, hsection, ih hleft]

theorem dressRegion_dressRegion (region : Option Section) {grants : List Grant}
    (h : ∀ grant ∈ grants, grant.IsWorded) :
    dressRegion (dressRegion region grants).1 grants = dressRegion region grants := by
  cases region with
  | none => rfl
  | some s =>
    have hsection := dressSection_dressSection s h
    simp only [dressRegion, hsection]

/-- **Dressing a document with the same grants again leaves it as it is.** Every class name that a
grant adds to has the classes of this grant already. -/
theorem dress_dress (document : Document) {grants : List Grant}
    (h : ∀ grant ∈ grants, grant.IsWorded) :
    dress (dress document grants) grants = dress document grants := by
  have hheader := dressRegion_dressRegion document.header h
  have hafter : ∀ grant ∈ (dressRegion document.header grants).2, grant.IsWorded := by
    rw [(classNames_dressRegion document.header grants).2]
    exact isWorded_drop h _
  have hbody := dressSections_dressSections document.body hafter
  have hlast : ∀ grant ∈
      (dressSections document.body (dressRegion document.header grants).2).2, grant.IsWorded := by
    rw [(classNames_dressSections document.body _).2]
    exact isWorded_drop hafter _
  have hfooter := dressRegion_dressRegion document.footer hlast
  simp only [dress, hheader, hbody, hfooter]

/-! ## Recovering twice -/

section Twice

variable {document : Document} {html css : Option String}
  {thresholds : Except Settings.BadThresholds Thresholds}

/-- The grants of a run are worded: their classes were read off class attributes of the markup. -/
theorem Run.isWorded_grants (run : Run document html css thresholds) :
    ∀ grant ∈ run.grants, grant.IsWorded := by
  intro grant hgrant name hname
  obtain ⟨place, hplace⟩ := List.getElem?_of_mem hgrant
  have hat : name ∈ (grantAt run.grants place).classes := by rwa [grantAt, hplace]
  exact run.isWord_of_mem_classes name hat

/-- A run over a document is a run over the document that it dresses. -/
def Run.again (run : Run document html css thresholds) :
    Run (dress document run.grants) html css thresholds where
  stock := run.stock
  limits := run.limits
  grants := run.grants
  stock_eq := by
    rw [definedFor, stylesheet_dress]
    exact run.stock_eq
  limits_eq := run.limits_eq
  grants_eq := by
    rw [targets_dress]
    exact run.grants_eq

/-- Whether there is anything to recover does not change when a document is dressed. -/
theorem nothingToRecover_dress (grants : List Grant) :
    NothingToRecover (dress document grants) html css ↔ NothingToRecover document html css := by
  unfold NothingToRecover
  rw [stylesheet_dress]

/-- **Recovering is idempotent.** When a recovery ends well, so does the recovery of its result from
the same markup and stylesheet with the same thresholds. The second one returns what the first one
returned, and passes the document by only if the first one did. -/
theorem recovered_idempotent (document : Document) (html css : Option String)
    (thresholds : Except Settings.BadThresholds Thresholds) {found : Option Document}
    (h : Convert.recovered? thresholds document html css = .ok found) :
    ∃ again, Convert.recovered? thresholds (found.getD document) html css = .ok again
      ∧ again.getD (found.getD document) = found.getD document
      ∧ (again = none ↔ found = none) := by
  rcases recovered?_eq_ok.1 h with ⟨-, rfl⟩ | ⟨hsomething, run, rfl⟩
  · exact ⟨none, h, rfl, Iff.rfl⟩
  · have hdressed : dress (dress document run.grants) run.grants = dress document run.grants :=
      dress_dress document run.isWorded_grants
    refine ⟨some (dress document run.grants), ?_, rfl, by simp⟩
    rw [Option.getD_some]
    refine recovered?_eq_ok.2 (Or.inr ⟨?_, run.again, ?_⟩)
    · rw [nothingToRecover_dress]
      exact hsomething
    · show some (dress document run.grants) = some (dress (dress document run.grants) run.grants)
      rw [hdressed]

end Twice

/-- On the page with two headings the first recovery adds class names at three targets of four, and the
second one leaves them. -/
theorem recovered_idempotent_twoHeadings :
    ∃ result, Convert.recovered? (.ok {}) twoHeadings (some twoWrappers) none = .ok (some result)
      ∧ result.walk.map Target.className = [some "_", some "lead _", none, some "_"]
      ∧ ∃ again, Convert.recovered? (.ok {}) result (some twoWrappers) none = .ok again
        ∧ again.getD result = result := by
  obtain ⟨result, hresult, hnames⟩ := exists_recovered_twoHeadings
  obtain ⟨again, hagain, hsame, -⟩ :=
    recovered_idempotent twoHeadings (some twoWrappers) none (.ok {}) hresult
  exact ⟨result, hresult, hnames, again, hagain, hsame⟩

end Recovery

end BlockTheme
