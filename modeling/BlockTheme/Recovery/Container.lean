import BlockTheme.Recovery.Leaf
import BlockTheme.Recovery.Thresholds

/-!
# Containers of a page's markup

The wrappers of the markup that carry classes of a stylesheet and hold keyed leaves. What is looked
for is given by its keys: of the containers that share enough of them the one with the best rank is
found, and of several with this rank the first.
-/
namespace BlockTheme.Recovery

/-- A container. Its number is its position among all containers. -/
structure Container where
  id : Nat
  classes : List String
  keys : List String
  deriving DecidableEq, Repr

namespace Container

def elements : List String :=
  ["div", "section", "article", "nav", "header", "footer", "aside", "main"]

/-- The classes and the keys of an element that is a container. -/
def parts? (defined : List String) (tag : Html.Tag) : Option (List String × List String) :=
  let classes := LeafIndex.classesOf defined tag
  let keys := tagKeys tag.inside
  if !elements.contains tag.name || classes.isEmpty || keys.isEmpty then none
  else some (classes, keys)

def ofTags (tags : List Html.Tag) (defined : List String) : List Container :=
  (tags.filterMap (parts? defined)).zipIdx.map fun ((classes, keys), id) => ⟨id, classes, keys⟩

/-- How many different keys a container shares with others. -/
def overlap (keys : List String) (c : Container) : Nat :=
  (Text.distinct c.keys).countP fun key => keys.contains key

/-- How good a container is for what is looked for: how many keys it shares, which part of its own
keys these are, and how many it has. -/
structure Rank where
  overlap : Nat
  tightness : Binary64
  size : Nat

/-- The first difference decides: more shared keys, a larger part, or fewer keys are better. -/
def Rank.exceeds (r other : Rank) : Bool :=
  if r.overlap ≠ other.overlap then other.overlap < r.overlap
  else if r.tightness ≠ other.tightness then other.tightness.lt r.tightness
  else r.size < other.size

def rank (keys : List String) (c : Container) : Rank where
  overlap := c.overlap keys
  -- what shares a key has keys to divide by
  tightness := Binary64.ofRatio false (c.overlap keys) c.keys.length
  size := c.keys.length

def isBetter (keys : List String) (c other : Container) : Bool :=
  (c.rank keys).exceeds (other.rank keys)

/-- The best container of a list. -/
def best? (keys : List String) (containers : List Container) : Option Container :=
  containers.foldl
    (fun best c =>
      match best with
      | none => some c
      -- of several that are equally good the first one stays
      | some b => if isBetter keys c b then some c else some b)
    none

/-- The best unused container that shares enough keys. -/
def find? (containers : List Container) (used : List Nat) (thresholds : Thresholds)
    (keys : List String) : Except Binary64.NoCeiling (Option Container) :=
  if keys.isEmpty then .ok none
  else
    (thresholds.required (Text.distinct keys).length).map fun required =>
      best? keys (containers.filter fun c => !used.contains c.id && required ≤ c.overlap keys)

end Container

end BlockTheme.Recovery
