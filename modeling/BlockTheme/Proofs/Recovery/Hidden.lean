import BlockTheme.Proofs.Recovery.Outcome
import BlockTheme.Proofs.Render.Pruned

/-!
# Nodes that no group shows

Recovery walks over all nodes, markup shows only those in groups. So a node that is not shown can take
the leaf or the container that a shown one would have got, and its keys count for the groups and the
section around it. That is all it does: the page after a recovery depends on the nodes that are not
shown through what they ask for, node by shown node (`Convert.templates_depend_on_asks`).

A run over a document is seen as a list of turns, each with its request and with whether its target is
shown. Turns that are not shown and ask for nothing can be left out, and what the others get dresses
the pruned document.
-/

namespace BlockTheme

open Recovery

/-- What the nodes of a list and below them ask for, one after the other. -/
def Node.asks (nodes : List Node) : List Request :=
  ((Node.preorderAll nodes).map Request.ofNode).filter (· ≠ .nothing)

/-- What the nodes below a node ask for that are not shown because the node is no group. -/
def Node.asksBelow (node : Node) : List Request :=
  if node.kind? = some .group then [] else Node.asks (node.children.getD [])

/-- What is asked for below each shown node of a document by nodes that are not shown. -/
def Document.asksBelow (document : Document) : List (List Request) :=
  (document.regions.flatMap fun s => Node.shownAll s.children).map Node.asksBelow

namespace Recovery

/-! ## Turns -/

/-- A turn in a run: a request, and whether its target is shown. -/
structure Turn where
  isShown : Bool
  request : Request
  deriving DecidableEq, Repr

/-- A turn that makes a difference to what is shown. -/
def Turn.Counts (turn : Turn) : Prop := turn.isShown ∨ turn.request ≠ .nothing

instance (turn : Turn) : Decidable turn.Counts := inferInstanceAs (Decidable (_ ∨ _))

/-- The turns that make a difference. -/
def counted (turns : List Turn) : List Turn := turns.filter fun turn => turn.Counts

/-- The turns that count can be told apart list by list. -/
theorem counted_append (turns more : List Turn) :
    counted (turns ++ more) = counted turns ++ counted more := by
  simp [counted]

/-- A turn whose target is shown counts, whatever it asks for. -/
theorem counted_cons_shown (request : Request) (rest : List Turn) :
    counted (⟨true, request⟩ :: rest) = ⟨true, request⟩ :: counted rest := by
  simp [counted, Turn.Counts]

mutual

/-- The turns of a node and of the nodes below it. -/
def turnsOf : Node → List Turn
  | ⟨type, content, attributes, children, motion, style, className⟩ =>
    ⟨true, .ofNode ⟨type, content, attributes, children, motion, style, className⟩⟩
      :: if (⟨type, content, attributes, children, motion, style, className⟩ : Node).kind?
            = some .group then turnsIn children
          else (Node.preorderIn children).map fun hidden => ⟨false, .ofNode hidden⟩

def turnsIn : Option (List Node) → List Turn
  | none => []
  | some nodes => turnsAll nodes

def turnsAll : List Node → List Turn
  | [] => []
  | node :: rest => turnsOf node ++ turnsAll rest

end

def turnsOfSection (s : Section) : List Turn :=
  ⟨true, .ofKeys (nodeKeys s.children)⟩ :: turnsAll s.children

/-- The turns of all targets of a document. -/
def turns (document : Document) : List Turn := document.regions.flatMap turnsOfSection

mutual

/-- By induction on the tree, along with the next two: the turns of a node are those of the walk,
one for one and in the order of the walk. -/
theorem request_turnsOf :
    ∀ node : Node, (turnsOf node).map Turn.request = node.preorder.map Request.ofNode
  | ⟨type, content, attributes, children, motion, style, className⟩ => by
    rw [turnsOf, Node.preorder, List.map_cons, List.map_cons]
    split
    · rw [request_turnsIn children]
    · rw [List.map_map]
      rfl

theorem request_turnsIn :
    ∀ children : Option (List Node),
      (turnsIn children).map Turn.request = (Node.preorderIn children).map Request.ofNode
  | none => rfl
  | some nodes => request_turnsAll nodes

/-- The nodes of a list have their turns one after the other. -/
theorem request_turnsAll :
    ∀ nodes : List Node,
      (turnsAll nodes).map Turn.request = (Node.preorderAll nodes).map Request.ofNode
  | [] => rfl
  | node :: rest => by
    rw [turnsAll, Node.preorderAll, List.map_append, List.map_append, request_turnsOf node,
      request_turnsAll rest]

end

/-- The turns ask for what a run is asked for. -/
theorem request_turns (document : Document) : (turns document).map Turn.request = targets document := by
  unfold turns targets
  rw [List.map_flatMap]
  refine List.flatMap_congr fun s _ => ?_
  rw [turnsOfSection, Request.ofSection, List.map_cons, request_turnsAll]

/-! ## The turns that count

They are the same for two documents that are the same when they are pruned and whose other nodes ask
for the same. The keys of a group and of a section are among what is asked for in it. -/

def Request.key? : Request → Option String
  | .leaf _ key => some key
  | _ => none

/-- What a group or a section asks for is no leaf, so it adds no key to those around it. -/
theorem key?_ofKeys (keys : List String) : (Request.ofKeys keys).key? = none := by
  unfold Request.ofKeys
  split <;> rfl

/-- A node that asks for a leaf asks for it by the key that the groups around it collect. That is
why the keys of a group can be read off the turns below it. -/
theorem key?_ofNode (node : Node) : (Request.ofNode node).key? = (nodeLeaf? node).map (·.2) := by
  unfold Request.ofNode
  split
  · next hgroup => rw [key?_ofKeys, nodeLeaf?_of_group hgroup, Option.map_none]
  · next =>
    cases nodeLeaf? node with
    | none => rfl
    | some leaf => rfl

/-- The keys of nodes are asked for in the turns that count. The keys of a section or a group are
those of all leaf nodes below it, and a node that is not shown still asks for its own. -/
theorem nodeKeys_eq_of_turns (nodes : List Node) :
    nodeKeys nodes
      = Text.distinct ((counted (turnsAll nodes)).filterMap fun turn => turn.request.key?) := by
  -- the keys are collected along the walk, and the turns are the ones of the walk
  have hkeys : (Node.preorderAll nodes).filterMap (fun node => (nodeLeaf? node).map (·.2))
      = ((turnsAll nodes).map Turn.request).filterMap Request.key? := by
    rw [request_turnsAll, List.filterMap_map]
    exact List.filterMap_congr fun node _ => (key?_ofNode node).symm
  rw [nodeKeys, hkeys, counted, List.filterMap_map, List.filterMap_filter]
  refine congrArg Text.distinct (List.filterMap_congr fun turn _ => ?_)
  show turn.request.key? = if decide turn.Counts = true then turn.request.key? else none
  -- a turn that makes no difference asks for nothing
  by_cases hcounts : turn.Counts
  · rw [if_pos (decide_eq_true hcounts)]
  · rw [if_neg (by simpa using hcounts)]
    have hnothing : turn.request = .nothing := by
      by_contra hsomething
      exact hcounts (Or.inr hsomething)
    rw [hnothing]
    rfl

/-- The turns of hidden nodes that count are those that ask for something. -/
theorem counted_hidden (nodes : List Node) :
    counted ((Node.preorderAll nodes).map fun hidden => ⟨false, .ofNode hidden⟩)
      = (Node.asks nodes).map (Turn.mk false) := by
  rw [counted, Node.asks, List.filter_map, List.filter_map, List.map_map]
  refine congrArg _ (List.filter_congr fun node _ => ?_)
  simp [Turn.Counts]

/-- Lists of nodes of which the same is left when pruned show as many nodes. What is shown below
them can then be compared place by place. -/
theorem length_shownAll_eq {nodes nodes' : List Node}
    (h : Node.prunedAll nodes = Node.prunedAll nodes') :
    (Node.shownAll nodes).length = (Node.shownAll nodes').length := by
  have hshown := congrArg (fun pruned => (Node.shownAll pruned).length) h
  simpa only [Node.shownAll_prunedAll, List.length_map] using hshown

theorem length_shown_eq {node node' : Node} (h : node.pruned = node'.pruned) :
    node.shown.length = node'.shown.length := by
  have hshown := congrArg (fun pruned => pruned.shown.length) h
  simpa only [Node.shown_pruned, List.length_map] using hshown

/-- Children that are missing count as no children at all. -/
theorem turnsIn_eq_getD (children : Option (List Node)) :
    turnsIn children = turnsAll (children.getD []) := by
  cases children <;> rfl

theorem preorderIn_eq_getD (children : Option (List Node)) :
    Node.preorderIn children = Node.preorderAll (children.getD []) := by
  cases children <;> rfl

mutual

/-- By induction on both trees at once. At a group it goes on with the children; at every other node
what stands below is hidden, and the hypothesis says that it asks for the same. -/
theorem counted_turnsOf_congr :
    ∀ node node' : Node, node.pruned = node'.pruned →
      node.shown.map Node.asksBelow = node'.shown.map Node.asksBelow →
      counted (turnsOf node) = counted (turnsOf node')
  | ⟨type, content, attributes, children, motion, style, className⟩,
    ⟨type', content', attributes', children', motion', style', className'⟩ => by
    intro hpruned hasks
    rw [Node.pruned, Node.pruned, Node.mk.injEq] at hpruned
    obtain ⟨rfl, rfl, rfl, hchildren, rfl, rfl, rfl⟩ := hpruned
    rw [Node.shown, Node.shown, List.map_cons, List.map_cons, List.cons.injEq] at hasks
    obtain ⟨hown, hbelow⟩ := hasks
    rw [turnsOf, turnsOf, counted_cons_shown, counted_cons_shown]
    by_cases hgroup : (Schema.Named.ofName? type : Option NodeKind) = some .group
    · -- the keys of a group are asked for below it
      simp only [Node.kind?, hgroup, if_true] at hchildren hbelow ⊢
      have hturns := counted_turnsIn_congr children children' hchildren hbelow
      have hkeys : nodeKeys (children.getD []) = nodeKeys (children'.getD []) := by
        rw [nodeKeys_eq_of_turns, nodeKeys_eq_of_turns, ← turnsIn_eq_getD, ← turnsIn_eq_getD, hturns]
      rw [hturns]
      simp only [Request.ofNode, Node.kind?, hgroup, if_true, hkeys]
    · -- what is not shown is asked for all the same
      simp only [Node.kind?, hgroup, if_false, Node.asksBelow] at hown ⊢
      rw [preorderIn_eq_getD, preorderIn_eq_getD, counted_hidden, counted_hidden, hown]
      simp only [Request.ofNode, Node.kind?, hgroup, if_false]
      rfl

/-- Of children that are missing on one side only, pruning leaves different things. -/
theorem counted_turnsIn_congr :
    ∀ children children' : Option (List Node), Node.prunedIn children = Node.prunedIn children' →
      (Node.shownIn children).map Node.asksBelow = (Node.shownIn children').map Node.asksBelow →
      counted (turnsIn children) = counted (turnsIn children')
  | none, none => fun _ _ => rfl
  | none, some _ => fun h => absurd h (by simp [Node.prunedIn])
  | some _, none => fun h => absurd h (by simp [Node.prunedIn])
  | some nodes, some nodes' => fun h => counted_turnsAll_congr nodes nodes' (Option.some.inj h)

/-- A list at a time: the hypothesis about what is asked for below shown nodes is cut where the
nodes shown of the first one end. -/
theorem counted_turnsAll_congr :
    ∀ nodes nodes' : List Node, Node.prunedAll nodes = Node.prunedAll nodes' →
      (Node.shownAll nodes).map Node.asksBelow = (Node.shownAll nodes').map Node.asksBelow →
      counted (turnsAll nodes) = counted (turnsAll nodes')
  | [], [] => fun _ _ => rfl
  | [], _ :: _ => fun h => absurd h (by simp [Node.prunedAll])
  | _ :: _, [] => fun h => absurd h (by simp [Node.prunedAll])
  | node :: rest, node' :: rest' => by
    intro hpruned hasks
    rw [Node.prunedAll, Node.prunedAll, List.cons.injEq] at hpruned
    rw [Node.shownAll, Node.shownAll, List.map_append, List.map_append] at hasks
    -- as many nodes are shown of the one as of the other
    obtain ⟨hfirst, hrest⟩ := List.append_inj hasks (by
      rw [List.length_map, List.length_map, length_shown_eq hpruned.1])
    rw [turnsAll, turnsAll, counted_append, counted_append,
      counted_turnsOf_congr node node' hpruned.1 hfirst,
      counted_turnsAll_congr rest rest' hpruned.2 hrest]

end

/-- The sections of a page one after the other: if they agree pairwise when pruned, and if what is
hidden in them asks for the same in turn, their turns that count are the same. -/
theorem counted_flatMap_congr {sections sections' : List Section}
    (hpruned : sections.map Section.pruned = sections'.map Section.pruned)
    (hasks : (sections.flatMap fun s => Node.shownAll s.children).map Node.asksBelow
      = (sections'.flatMap fun s => Node.shownAll s.children).map Node.asksBelow) :
    counted (sections.flatMap turnsOfSection) = counted (sections'.flatMap turnsOfSection) := by
  induction sections generalizing sections' with
  | nil =>
    obtain rfl : sections' = [] := List.map_eq_nil_iff.1 hpruned.symm
    rfl
  | cons s rest ih =>
    cases sections' with
    | nil => simp at hpruned
    | cons s' rest' =>
      rw [List.map_cons, List.map_cons, List.cons.injEq] at hpruned
      have hchildren : Node.prunedAll s.children = Node.prunedAll s'.children :=
        congrArg Section.children hpruned.1
      rw [List.flatMap_cons, List.flatMap_cons, List.map_append, List.map_append] at hasks
      -- the children show as many nodes, so that the list can be cut behind them
      obtain ⟨hfirst, hrest⟩ := List.append_inj hasks (by
        rw [List.length_map, List.length_map, length_shownAll_eq hchildren])
      have hturns := counted_turnsAll_congr _ _ hchildren hfirst
      -- a section asks for the keys below it, and these are asked for in the turns that count
      have hkeys : nodeKeys s.children = nodeKeys s'.children := by
        rw [nodeKeys_eq_of_turns, nodeKeys_eq_of_turns, hturns]
      rw [List.flatMap_cons, List.flatMap_cons, counted_append, counted_append,
        ih hpruned.2 hrest, turnsOfSection, turnsOfSection, counted_cons_shown, counted_cons_shown,
        hturns, hkeys]

/-- **The turns that count depend on the nodes that are not shown through what they ask for.** Of
two documents that look the same and ask for the same below their shown nodes, the same turns count.
-/
theorem counted_turns_congr {document document' : Document}
    (hpruned : document.pruned = document'.pruned) (hasks : document.asksBelow = document'.asksBelow) :
    counted (turns document) = counted (turns document') := by
  have hregions := congrArg Document.regions hpruned
  rw [Document.regions_pruned, Document.regions_pruned] at hregions
  exact counted_flatMap_congr hregions hasks

/-! ## Runs over turns -/

section Runs

variable (stock : Stock) (thresholds : Thresholds)

/-- A run over turns. Of what it grants, it keeps what the shown targets get. -/
def assignTurns (usage : Usage) : List Turn → Except Binary64.NoCeiling (List Grant)
  | [] => .ok []
  | turn :: rest =>
    match answer stock thresholds usage turn.request with
    | .error why => .error why
    | .ok (grant, usage) =>
      (assignTurns usage rest).map fun more => if turn.isShown then grant :: more else more

/-- The grants at the places that are marked. -/
def pick : List Bool → List Grant → List Grant
  | [], _ => []
  | true :: marks, grants => grants.headD .nothing :: pick marks (grants.drop 1)
  | false :: marks, grants => pick marks (grants.drop 1)

/-- Marks in a row pick from grants in a row: those behind come after as many grants as there are
marks in front. -/
theorem pick_append (marks more : List Bool) (grants : List Grant) :
    pick (marks ++ more) grants = pick marks grants ++ pick more (grants.drop marks.length) := by
  induction marks generalizing grants with
  | nil => rfl
  | cons mark rest ih =>
    cases mark <;> simp [pick, ih]

theorem pick_of_forall_false {marks : List Bool} (h : ∀ mark ∈ marks, mark = false)
    (grants : List Grant) : pick marks grants = [] := by
  induction marks generalizing grants with
  | nil => rfl
  | cons mark rest ih =>
    obtain rfl := h mark List.mem_cons_self
    exact ih (fun mark hmark => h mark (List.mem_cons_of_mem _ hmark)) _

/-- A run over turns is the run over their requests, seen at the shown targets. Hidden turns take
from the stock like all others; only what they are granted is not looked at. -/
theorem assignTurns_eq (usage : Usage) (turns : List Turn) :
    assignTurns stock thresholds usage turns
      = (assign stock thresholds usage (turns.map Turn.request)).map
          (pick (turns.map Turn.isShown)) := by
  induction turns generalizing usage with
  | nil => rfl
  | cons turn rest ih =>
    rw [List.map_cons, List.map_cons, assignTurns, assign]
    cases answer stock thresholds usage turn.request with
    | error why => rfl
    | ok result =>
      obtain ⟨grant, usage'⟩ := result
      -- both runs answer the first request alike, and differ in whether they keep the grant
      show (assignTurns stock thresholds usage' rest).map _ = Except.map _ (Except.map _ _)
      rw [ih]
      cases assign stock thresholds usage' (rest.map Turn.request) with
      | error why => rfl
      | ok more =>
        cases hshown : turn.isShown <;> rfl

/-- **Turns that do not count can be left out of a run.** They are not answered with anything, and
what they get is not seen. -/
theorem assignTurns_counted (usage : Usage) (turns : List Turn) :
    assignTurns stock thresholds usage (counted turns) = assignTurns stock thresholds usage turns := by
  induction turns generalizing usage with
  | nil => rfl
  | cons turn rest ih =>
    by_cases hcounts : turn.Counts
    · rw [counted, List.filter_cons_of_pos (by simpa using hcounts), ← counted, assignTurns,
        assignTurns]
      simp only [ih]
    -- a turn left out gets the grant of nothing, changes no usage, and its grant is not kept
    · obtain ⟨hhidden, hnothing⟩ := not_or.1 hcounts
      rw [counted, List.filter_cons_of_neg (by simpa using hcounts), ← counted, ih, assignTurns]
      obtain hnothing : turn.request = .nothing := not_not.1 hnothing
      obtain hhidden : turn.isShown = false := by simpa using hhidden
      rw [hnothing, hhidden]
      show _ = (assignTurns stock thresholds usage rest).map id
      cases assignTurns stock thresholds usage rest <;> rfl

end Runs

/-! ## Dressing what is shown -/

mutual

/-- The grants of the shown nodes dress the pruned node; what comes after them is left over. By
recursion on the node, along with lists of nodes, as dressing itself recurses. -/
theorem dressNode_pruned :
    ∀ (node : Node) (grants more : List Grant),
      dressNode node.pruned (pick ((turnsOf node).map Turn.isShown) grants ++ more)
        = ((dressNode node grants).1.pruned, more)
  | ⟨type, content, attributes, children, motion, style, className⟩, grants, more => by
    have hbelow := dressNodesIn_prunedIn children (grants.drop 1) more
    rw [turnsOf, List.map_cons, pick, Node.pruned]
    by_cases hgroup : (Schema.Named.ofName? type : Option NodeKind) = some .group
    · simp only [Node.kind?, hgroup, if_true, dressNode, Node.pruned, List.cons_append,
        List.drop_succ_cons, List.drop_zero, List.headD_cons, hbelow]
    · have hhidden : pick (((Node.preorderIn children).map fun hidden =>
          (⟨false, .ofNode hidden⟩ : Turn)).map Turn.isShown) (grants.drop 1) = [] := by
        refine pick_of_forall_false ?_ _
        simp
      simp only [Node.kind?, hgroup, if_false, dressNode, Node.pruned, List.cons_append,
        List.drop_succ_cons, List.drop_zero, List.headD_cons, hhidden, List.nil_append,
        dressNodesIn]

theorem dressNodesIn_prunedIn :
    ∀ (children : Option (List Node)) (grants more : List Grant),
      dressNodesIn (Node.prunedIn children) (pick ((turnsIn children).map Turn.isShown) grants ++ more)
        = (Node.prunedIn (dressNodesIn children grants).1, more)
  | none, _, _ => rfl
  | some nodes, grants, more => by
    simp only [Node.prunedIn, turnsIn, dressNodesIn, dressNodes_prunedAll nodes]

/-- A list of nodes is dressed after pruning as before. Every node gets the grants that the ones
before it left over, on both sides. -/
theorem dressNodes_prunedAll :
    ∀ (nodes : List Node) (grants more : List Grant),
      dressNodes (Node.prunedAll nodes) (pick ((turnsAll nodes).map Turn.isShown) grants ++ more)
        = (Node.prunedAll (dressNodes nodes grants).1, more)
  | [], _, _ => rfl
  | node :: rest, grants, more => by
    -- the nodes after the first one get what its grants leave over
    have hlength : ((turnsOf node).map Turn.isShown).length = node.preorder.length := by
      have hrequests := congrArg List.length (request_turnsOf node)
      simpa only [List.length_map] using hrequests
    obtain ⟨-, hover⟩ := classNames_dressNode node grants
    rw [turnsAll, List.map_append, pick_append, hlength, List.append_assoc]
    simp only [Node.prunedAll, dressNodes, dressNode_pruned node, dressNodes_prunedAll rest, hover]

end

/-- A section has one grant for itself, then those of its nodes. -/
theorem dressSection_pruned (s : Section) (grants more : List Grant) :
    dressSection s.pruned (pick ((turnsOfSection s).map Turn.isShown) grants ++ more)
      = ((dressSection s grants).1.pruned, more) := by
  simp only [turnsOfSection, List.map_cons, pick, dressSection, Section.pruned, List.cons_append,
    List.drop_succ_cons, List.drop_zero, List.headD_cons, dressNodes_prunedAll]

/-- There are as many turns in a section as there are places in its walk, so that grants for turns
can be counted off along the walk. -/
theorem length_turnsOfSection (s : Section) :
    ((turnsOfSection s).map Turn.isShown).length = s.walk.length := by
  have hrequests := congrArg List.length (request_turnsAll s.children)
  simp only [List.length_map] at hrequests
  simp only [turnsOfSection, Section.walk, List.map_cons, List.length_cons, List.length_map, hrequests]

theorem length_flatMap_turnsOfSection (sections : List Section) :
    ((sections.flatMap turnsOfSection).map Turn.isShown).length
      = (sections.flatMap Section.walk).length := by
  induction sections with
  | nil => rfl
  | cons s rest ih =>
    rw [List.flatMap_cons, List.flatMap_cons, List.map_append, List.length_append,
      List.length_append, length_turnsOfSection, ih]

/-- The sections of the body, each with the grants left over by those before it. -/
theorem dressSections_pruned (sections : List Section) (grants more : List Grant) :
    dressSections (sections.map Section.pruned)
        (pick ((sections.flatMap turnsOfSection).map Turn.isShown) grants ++ more)
      = ((dressSections sections grants).1.map Section.pruned, more) := by
  induction sections generalizing grants with
  | nil => rfl
  | cons s rest ih =>
    obtain ⟨-, hover⟩ := classNames_dressSection s grants
    rw [List.flatMap_cons, List.map_append, pick_append, length_turnsOfSection, List.append_assoc]
    simp only [List.map_cons, dressSections, dressSection_pruned, hover, ih]

theorem dressRegion_pruned (region : Option Section) (grants more : List Grant) :
    dressRegion (region.map Section.pruned)
        (pick ((region.toList.flatMap turnsOfSection).map Turn.isShown) grants ++ more)
      = ((dressRegion region grants).1.map Section.pruned, more) := by
  cases region with
  | none => rfl
  | some s =>
    simp only [Option.map_some, Option.toList_some, List.flatMap_singleton, dressRegion,
      dressSection_pruned]

/-- **A pruned document is dressed with what the shown targets get.** So what is shown of a recovery
can be followed on the pruned document alone. -/
theorem dress_pruned (document : Document) (grants : List Grant) :
    dress document.pruned (pick ((turns document).map Turn.isShown) grants)
      = (dress document grants).pruned := by
  obtain ⟨-, hheader⟩ := classNames_dressRegion document.header grants
  obtain ⟨-, hbody⟩ := classNames_dressSections document.body
    (dressRegion document.header grants).2
  have hfooter := dressRegion_pruned document.footer
    (dressSections document.body (dressRegion document.header grants).2).2 []
  rw [List.append_nil] at hfooter
  -- the grants of the header, those of the body, and those of the footer
  rw [turns, Document.regions, List.flatMap_append, List.flatMap_append, List.map_append,
    List.map_append, List.append_assoc, pick_append, pick_append, length_flatMap_turnsOfSection,
    length_flatMap_turnsOfSection, ← hheader, ← hbody]
  simp only [dress, Document.pruned, dressRegion_pruned, dressSections_pruned, hfooter]

/-- What is shown of a recovery is made of the turns that count. -/
theorem recover_pruned (stock : Stock) (thresholds : Thresholds) (document : Document) :
    (recover stock thresholds document).map Document.pruned
      = (assignTurns stock thresholds {} (counted (turns document))).map (dress document.pruned) := by
  rw [assignTurns_counted, assignTurns_eq, request_turns, recover]
  cases assign stock thresholds {} (targets document) with
  | error why => rfl
  | ok grants => exact congrArg Except.ok (dress_pruned document grants).symm

end Recovery

namespace Convert

variable {document document' : Document}

/-- A recovery fails with the same failure, or finds nothing to do, or gives documents of which the
same is shown. The stylesheet of a document stays when it is pruned, so both recoveries have the
same stock. -/
theorem recovered?_pruned (hpruned : document.pruned = document'.pruned)
    (hasks : document.asksBelow = document'.asksBelow)
    (thresholds : Except Settings.BadThresholds Thresholds) (html css : Option String) :
    (recovered? thresholds document html css).map (Option.map Document.pruned)
      = (recovered? thresholds document' html css).map (Option.map Document.pruned) := by
  have hstylesheet : stylesheet document css = stylesheet document' css := by
    show (css <|> document.pruned.stylesheet) = (css <|> document'.pruned.stylesheet)
    rw [hpruned]
  have hrecover : ∀ stock limits, (recover stock limits document).map Document.pruned
      = (recover stock limits document').map Document.pruned := by
    intro stock limits
    rw [recover_pruned, recover_pruned, counted_turns_congr hpruned hasks, hpruned]
  unfold recovered?
  simp only [hstylesheet]
  split
  -- there may be no markup or no stylesheet
  · rfl
  · split
    · rfl
    · rfl
    -- the stock and the thresholds are there: both documents are walked over
    · next stock limits _ =>
      have hsame := hrecover stock limits
      revert hsame
      cases recover stock limits document <;> cases recover stock limits document' <;>
        simp [Except.map]

/-- **Nodes that no group shows matter through what they ask for.** Take two documents that differ in
such nodes only, and in which the nodes hidden below a shown node ask for the same leaves and
containers in the same order. With any markup, stylesheet and thresholds their templates after a
recovery are the same, or the recovery fails for both in the same way. -/
theorem templates_depend_on_asks (hpruned : document.pruned = document'.pruned)
    (hasks : document.asksBelow = document'.asksBelow)
    (thresholds : Except Settings.BadThresholds Thresholds) (html css : Option String) :
    (recovered? thresholds document html css).map (fun found => (found.getD document).templates)
      = (recovered? thresholds document' html css).map
          fun found => (found.getD document').templates := by
  -- the templates are those of what was pruned
  have htemplates : ∀ (page : Document) (outcome : Except Failure (Option Document)),
      outcome.map (fun found => (found.getD page).templates)
        = (outcome.map (Option.map Document.pruned)).map
            fun found => (found.getD page.pruned).templates := by
    intro page outcome
    cases outcome with
    | error why => rfl
    | ok found =>
      cases found with
      | none => exact congrArg Except.ok page.templates_pruned.symm
      | some result => exact congrArg Except.ok result.templates_pruned.symm
  rw [htemplates document, htemplates document', recovered?_pruned hpruned hasks, hpruned]

/-! ### A paragraph below a heading

A page with a heading and a paragraph, and the same paragraph once more below the heading, where it
is not shown. -/

def echoNode : Node := ⟨"paragraph", some "B", {}, none, none, none, none⟩

def spacerAround (node : Node) : Node := ⟨"spacer", none, {}, some [node], none, none, none⟩

/-- The page with some nodes below its heading. -/
def headedPage (below : List Node) : Document where
  metadata := ⟨"Page", none, none⟩
  tokens := { colors := ⟨"#00f", "#222", "#fff", "#111", none, none⟩ }
  header := none
  body := [
    { intent := "generic"
      layout := ⟨.constrained, none, none, none, none⟩
      children := [⟨"heading", some "Hi", {}, some below, none, none, none⟩, echoNode]
      motion := none
      background := none
      style := none
      className := none }]
  footer := none
  stylesheet := some "._"

/-- The templates of the page with the class names of a markup that has its paragraph. -/
def headedTemplates (below : List Node) : Except Failure Templates :=
  (recovered? (.ok {}) (headedPage below) (some "<p class=_>B</p>") none).map fun found =>
    (found.getD (headedPage below)).templates

/-- It is the same whether the hidden paragraph stands below the heading or in a spacer there. -/
theorem headedTemplates_spacerAround :
    (headedPage [echoNode]).pruned = (headedPage [spacerAround echoNode]).pruned
      ∧ (headedPage [echoNode]).asksBelow = (headedPage [spacerAround echoNode]).asksBelow
      ∧ (headedPage [echoNode]).asksBelow ≠ (headedPage []).asksBelow
      ∧ headedTemplates [echoNode] = headedTemplates [spacerAround echoNode] :=
  have hpruned : (headedPage [echoNode]).pruned = (headedPage [spacerAround echoNode]).pruned := by
    rfl
  have hasks : (headedPage [echoNode]).asksBelow = (headedPage [spacerAround echoNode]).asksBelow := by
    decide +kernel
  ⟨hpruned, hasks, by decide +kernel,
    templates_depend_on_asks hpruned hasks (.ok {}) (some "<p class=_>B</p>") none⟩

/-- **A node that is not shown can take what a shown one would have got.** With the paragraph below
the heading the page differs from the one without it in what no group shows, and the shown paragraph
goes without its class name. -/
theorem headedTemplates_ne_of_hidden :
    (headedPage [echoNode]).pruned = (headedPage []).pruned
      ∧ headedTemplates [echoNode] ≠ headedTemplates [] := by
  refine ⟨rfl, fun hsame => ?_⟩
  have htexts : (headedTemplates [echoNode]).toOption.map (fun t => Markup.writeAll t.index)
      ≠ (headedTemplates []).toOption.map fun t => Markup.writeAll t.index := by
    decide +kernel
  exact htexts (by rw [hsame])

end Convert

end BlockTheme
