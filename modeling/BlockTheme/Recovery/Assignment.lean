import BlockTheme.Recovery.Container

/-!
# Assigning a page's markup to its document

Every section and every node of a document is a target and asks for at most one thing: a leaf, a
container or nothing. `targets` lists the requests in the order of the page, `assign` answers them
one after the other, and `dress` gives the targets the classes of what they got. Nothing is given
out twice.
-/
namespace BlockTheme.Recovery

inductive Request where
  | nothing
  | leaf (kind : LeafKind) (key : String)
  | container (keys : List String)
  deriving DecidableEq, Repr

inductive Grant where
  | nothing
  | leaf (found : Leaf)
  | container (found : Container)
  deriving DecidableEq, Repr

def Grant.classes : Grant → List String
  | .nothing => []
  | .leaf found => found.classes
  | .container found => found.classes

/-- The leaves and the containers that have been given out. -/
structure Usage where
  leaves : List Nat := []
  containers : List Nat := []

/-- The markup of a page, as far as it can be given out. -/
structure Stock where
  index : LeafIndex
  containers : List Container

def Stock.ofMarkup (html : String) (defined : List String) : Except Html.Rejection Stock :=
  (Html.parse html).map fun trees =>
    let tags := Html.tagsOf trees
    ⟨LeafIndex.ofTags tags defined, Container.ofTags tags defined⟩

/-! ## Requests -/

def Request.ofKeys (keys : List String) : Request :=
  if keys.isEmpty then .nothing else .container keys

/-- What a node asks for: a group a container, a keyed leaf a leaf. -/
def Request.ofNode (node : Node) : Request :=
  if node.kind? = some .group then .ofKeys (nodeKeys (node.children.getD []))
  else
    match nodeLeaf? node with
    | some (kind, key) => .leaf kind key
    | none => .nothing

/-- What a section and the nodes in it ask for. -/
def Request.ofSection (s : Section) : List Request :=
  .ofKeys (nodeKeys s.children) :: (Node.preorderAll s.children).map Request.ofNode

/-- The requests of all targets of a document, in the order of the page. -/
def targets (document : Document) : List Request := document.regions.flatMap Request.ofSection

/-! ## Grants -/

def answer (stock : Stock) (thresholds : Thresholds) (usage : Usage) :
    Request → Except Binary64.NoCeiling (Grant × Usage)
  | .nothing => .ok (.nothing, usage)
  | .leaf kind key =>
    match stock.index.find? usage.leaves key (some kind) with
    | none => .ok (.nothing, usage)
    | some found => .ok (.leaf found, { usage with leaves := found.id :: usage.leaves })
  | .container keys =>
    (Container.find? stock.containers usage.containers thresholds keys).map fun
      | none => (.nothing, usage)
      | some found =>
        (.container found, { usage with containers := found.id :: usage.containers })

/-- Answers requests one after the other. -/
def assign (stock : Stock) (thresholds : Thresholds) (usage : Usage) :
    List Request → Except Binary64.NoCeiling (List Grant)
  | [] => .ok []
  | request :: rest =>
    match answer stock thresholds usage request with
    | .error why => .error why
    | .ok (grant, usage) => (assign stock thresholds usage rest).map (grant :: ·)

/-! ## Dressing -/

def Grant.dress (grant : Grant) (className : Option String) : Option String :=
  mergeClassName className grant.classes

mutual

/-- A node and the nodes below it with the classes of their grants, and the grants that are left
over. -/
def dressNode : Node → List Grant → Node × List Grant
  | ⟨type, content, attributes, children, motion, style, className⟩, grants =>
    -- the first grant is the node's own
    let (children, rest) := dressNodesIn children (grants.drop 1)
    (⟨type, content, attributes, children, motion, style,
      (grants.headD .nothing).dress className⟩, rest)

def dressNodesIn : Option (List Node) → List Grant → Option (List Node) × List Grant
  | none, grants => (none, grants)
  | some nodes, grants => let (nodes, rest) := dressNodes nodes grants; (some nodes, rest)

def dressNodes : List Node → List Grant → List Node × List Grant
  | [], grants => ([], grants)
  | node :: more, grants =>
    let (node, rest) := dressNode node grants
    let (more, rest) := dressNodes more rest
    (node :: more, rest)

end

def dressSection (s : Section) (grants : List Grant) : Section × List Grant :=
  -- the first grant is the section's own
  let (children, rest) := dressNodes s.children (grants.drop 1)
  ({ s with children, className := (grants.headD .nothing).dress s.className }, rest)

def dressSections : List Section → List Grant → List Section × List Grant
  | [], grants => ([], grants)
  | s :: more, grants =>
    let (s, rest) := dressSection s grants
    let (more, rest) := dressSections more rest
    (s :: more, rest)

def dressRegion : Option Section → List Grant → Option Section × List Grant
  | none, grants => (none, grants)
  | some s, grants => let (s, rest) := dressSection s grants; (some s, rest)

def dress (document : Document) (grants : List Grant) : Document :=
  let (header, rest) := dressRegion document.header grants
  let (body, rest) := dressSections document.body rest
  let (footer, _) := dressRegion document.footer rest
  { document with header, body, footer }

/-- A document with the classes of its page's markup. -/
def recover (stock : Stock) (thresholds : Thresholds) (document : Document) :
    Except Binary64.NoCeiling Document :=
  (assign stock thresholds {} (targets document)).map (dress document)

end BlockTheme.Recovery
