import BlockTheme.Settings

/-!
# Settings in memory

Lists and records are objects in memory, and what lies inside an object are atoms and references to
other objects. A change puts the value that it is given into the record at the end of its path, as it
is or as a new object that was cast from it: whoever still has a reference to one of these objects
sees the change. Nothing is ever taken out of memory.
-/
namespace BlockTheme.Settings

open Text (Glyphs)

/-- A value as one holds it: an atom, or a reference to an object by its place in memory. -/
inductive Value where
  | atom (a : Atom)
  | object (place : Nat)
  deriving DecidableEq

inductive Object where
  | list (items : List Value)
  | record (members : Members Value)

/-- Memory: the objects in the order in which they were made. -/
abbrev Heap := List Object

def Object.view : Object → View Value
  | .list items => .list items
  | .record members => .record members

namespace Heap

/-- What a value shows of itself. A reference to nothing, which never comes about, counts as null. -/
def view (heap : Heap) : Value → View Value
  | .atom a => .atom a
  | .object place => (heap[place]?.map Object.view).getD (.atom .null)

def reading (heap : Heap) : Reading Value where
  view := heap.view
  ofAtom := .atom
  identity?
    | .atom _ => none
    | .object place => some place

/-- Makes a new object, unless an atom is wanted. -/
def create (heap : Heap) : View Value → Value × Heap
  | .atom a => (.atom a, heap)
  | .list items => (.object heap.length, heap ++ [.list items])
  | .record members => (.object heap.length, heap ++ [.record members])

mutual

/-- Makes objects for data. -/
def build (heap : Heap) : Data → Value × Heap
  | .atom a => (.atom a, heap)
  | .list items =>
    let (values, heap) := buildItems heap items
    heap.create (.list values)
  | .record members =>
    let (values, heap) := buildMembers heap members
    heap.create (.record values)

def buildItems (heap : Heap) : List Data → List Value × Heap
  | [] => ([], heap)
  | v :: rest =>
    let (value, heap) := build heap v
    let (values, heap) := buildItems heap rest
    (value :: values, heap)

def buildMembers (heap : Heap) : List (Atom × Data) → Members Value × Heap
  | [] => ([], heap)
  | (key, v) :: rest =>
    let (value, heap) := build heap v
    let (values, heap) := buildMembers heap rest
    ((key, value) :: values, heap)

end

/-- The members of the record that a value refers to. -/
def members? (heap : Heap) (v : Value) : Option (Members Value) := (heap.view v).members?

/-- What is put for a value, given what its cast came to: something new, or the value itself. -/
def supply (heap : Heap) (cast : Option (View Value)) (v : Value) : Value × Heap :=
  match cast with
  | none => (v, heap)
  | some cast => heap.create cast

/-- Gives a key of a record a value. -/
def assign (heap : Heap) (place : Nat) (members : Members Value) (key : Glyphs) (v : Value) : Heap :=
  heap.set place (.record (members.set (.text key) v))

/-- Changes the value at the end of a chain of keys, from the record at a place on. -/
def put (room : Nat) (v : Value) : List Glyphs → Heap → Nat → Change × Heap
  | [], heap, _ => (.refused, heap)
  | key :: rest, heap, place =>
    match heap.members? (.object place) with
    | none => (.refused, heap)
    | some members =>
      match rest, members.get? (.text key) with
      | [], old =>
        match Cast.replacement heap.reading room old v with
        | .ok cast =>
          let (new, heap) := heap.supply cast v
          (.stored, heap.assign place members key new)
        | .error why => (.ofFault why, heap)
      | next :: rest, none =>
        -- a new record, which is the last object in memory then
        let grown : Heap := heap ++ [.record []]
        put room v (next :: rest) (grown.assign place members key (.object heap.length)) heap.length
      | next :: rest, some (.object inner) => put room v (next :: rest) heap inner
      | _ :: _, some (.atom _) => (.refused, heap)

/-- The data that a value stands for, looked at so many levels deep; nothing if that is not deep
enough. -/
def data? (heap : Heap) : Nat → Value → Option Data
  | _, .atom a => some (.atom a)
  | 0, .object _ => none
  | depth + 1, .object place =>
    match heap[place]? with
    | none => none
    | some (.list items) => (items.mapM (data? heap depth)).map .list
    | some (.record members) =>
      let entry? (member : Atom × Value) := (data? heap depth member.2).map fun v => (member.1, v)
      (members.mapM entry?).map .record

end Heap

end BlockTheme.Settings
