import BlockTheme.Recovery.ClassName
import BlockTheme.Recovery.Fingerprint

/-!
# Leaves of a page's markup

Every keyed leaf of the markup with the classes that a stylesheet defines for it, in document order,
and an index of the leaves by key and by kind. A leaf that is looked for is found by its key, or
else by its kind alone, and is never given out twice.
-/
namespace BlockTheme.Recovery

/-- A leaf of the markup. Its number is its position among all leaves. -/
structure Leaf where
  id : Nat
  kind : LeafKind
  key : String
  classes : List String
  deriving DecidableEq, Repr

/-- Leaves, and where to look for them. -/
structure LeafIndex where
  leaves : List Leaf := []
  byKey : List (String × List Leaf) := []
  byKind : List (LeafKind × List Leaf) := []

/-- Puts a leaf at the end of its bucket, which is opened if it is not there yet. -/
def putInBucket {α : Type} [DecidableEq α] (label : α) (leaf : Leaf) :
    List (α × List Leaf) → List (α × List Leaf)
  | [] => [(label, [leaf])]
  | (name, bucket) :: rest =>
    if name = label then (name, bucket ++ [leaf]) :: rest
    else (name, bucket) :: putInBucket label leaf rest

namespace LeafIndex

def add (index : LeafIndex) (kind : LeafKind) (key : String) (classes : List String) : LeafIndex :=
  let leaf : Leaf := ⟨index.leaves.length, kind, key, classes⟩
  { leaves := index.leaves ++ [leaf]
    byKey := putInBucket key leaf index.byKey
    byKind := putInBucket kind leaf index.byKind }

def classesOf (defined : List String) (tag : Html.Tag) : List String :=
  qualifying (tag.attribute? "class").toList defined

/-- Adds an element, if it is a leaf with a key. -/
def addTag (defined : List String) (index : LeafIndex) (tag : Html.Tag) : LeafIndex :=
  match LeafKind.ofTag? tag.name, tagKey? tag with
  | some kind, some key => index.add kind key (classesOf defined tag)
  | _, _ => index

def ofTags (tags : List Html.Tag) (defined : List String) : LeafIndex :=
  tags.foldl (addTag defined) {}

def withKey (index : LeafIndex) (key : String) : List Leaf := (index.byKey.lookup key).getD []

def ofKind (index : LeafIndex) (kind : LeafKind) : List Leaf := (index.byKind.lookup kind).getD []

/-- The first leaf with a key that is not used yet, or else the first unused one of a kind. -/
def find? (index : LeafIndex) (used : List Nat) (key : String) (kind : Option LeafKind) :
    Option Leaf :=
  ((index.withKey key).find? fun leaf => !used.contains leaf.id).or
    ((kind.toList.flatMap index.ofKind).find? fun leaf => !used.contains leaf.id)

end LeafIndex

end BlockTheme.Recovery
