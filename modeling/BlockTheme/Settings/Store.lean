import BlockTheme.Files
import BlockTheme.Settings.Heap

/-!
# Settings while the program runs

The settings are read from a file at the start. From then on they are looked up and changed in memory,
until a reset reads them from their file again, which may hold something else by then. Whoever looks up
a value gets a reference to it, and may give it back in a change. A `Request` does not do that: its
values are data of its own, for which new objects are made.
-/
namespace BlockTheme.Settings

open Text (Glyphs)

/-- Memory, and the value in it that the settings are. -/
structure Store where
  heap : Heap
  root : Value

namespace Store

/-- The settings before anything was read. -/
def empty : Store := ⟨[.record []], .object 0⟩

/-- A value with objects of its own. -/
def give (store : Store) (v : Data) : Value × Store :=
  let (value, heap) := store.heap.build v
  (value, { store with heap })

def get (store : Store) (path : Glyphs) (default : Value) : Value :=
  (store.heap.reading.lookUp? path store.root).getD default

def set (store : Store) (room : Nat) (path : Glyphs) (v : Value) : Change × Store :=
  match store.root, store.heap.members? store.root with
  | .object place, some _ =>
    let (change, heap) := store.heap.put room v (keysOf path) place
    (change, { store with heap })
  | _, _ => (.noRecord, store)

/-- The data that a value stands for. No value without a loop lies deeper than there are objects. -/
def data? (store : Store) (v : Value) : Option Data := store.heap.data? store.heap.length v

/-- The settings as data. -/
def content? (store : Store) : Option Settings := store.data? store.root

/-- What a look-up answers, as data. The default is data of its own. -/
def read? (store : Store) (path : Glyphs) (default : Data) : Option Data :=
  let (default, store) := store.give default
  store.data? (store.get path default)

/-- Reads the settings in a file. One that is missing or cannot be read holds none; one that nests too
deep is not read to its end, and then the settings stay as they are. -/
def reset (store : Store) (room : Nat) (file : Path) (files : Files) : Bool × Store :=
  match load? room (files.read file).toOption with
  | none => (false, store)
  | some settings =>
    let (root, heap) := store.heap.build settings
    (true, ⟨heap, root⟩)

end Store

/-! ## Requests -/

/-- A request. There is `room` for so many levels of nesting while it is served. -/
inductive Request where
  /-- To read the settings again, from the files as they are now. -/
  | reset (room : Nat) (files : Files)
  | get (path : Glyphs) (default : Data)
  | set (room : Nat) (path : Glyphs) (v : Data)

inductive Answer where
  /-- The settings were read, or their file nests too deep for that. -/
  | reset (done : Bool)
  | value (v : Value)
  | change (change : Change)

/-- What a request is answered with, and the settings after it. -/
def serve (file : Path) (store : Store) : Request → Answer × Store
  | .reset room files => let (done, store) := store.reset room file files; (.reset done, store)
  | .get path default =>
    let (default, store) := store.give default
    (.value (store.get path default), store)
  | .set room path v =>
    let (v, store) := store.give v
    let (change, store) := store.set room path v
    (.change change, store)

/-- A request that was served, and the settings before it. -/
structure Step where
  before : Store
  request : Request

namespace Step

def answer (file : Path) (step : Step) : Answer := (serve file step.before step.request).1

def after (file : Path) (step : Step) : Store := (serve file step.before step.request).2

end Step

/-- What happens when requests are served one after the other. -/
def steps (file : Path) (store : Store) : List Request → List Step
  | [] => []
  | request :: rest =>
    let step : Step := ⟨store, request⟩
    step :: steps file (step.after file) rest

/-- The settings after requests. -/
def Store.after (file : Path) (store : Store) (requests : List Request) : Store :=
  requests.foldl (fun store request => (serve file store request).2) store

end BlockTheme.Settings
