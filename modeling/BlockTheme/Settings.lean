import BlockTheme.Settings.Cast
import BlockTheme.Settings.Reader

/-!
# Settings

The settings of the converter: data, normally a record of records, in which values are found by dotted
paths. `get` never fails; `set` keeps the kind of the value that it replaces where the new value can be
cast to it. Here settings are values, as they are for a call of the converter, which changes nothing
but a flag; `BlockTheme.Settings.Store` has them as objects in memory, where they may be shared.
-/
namespace BlockTheme

abbrev Settings := Settings.Data

namespace Settings

open Text (Glyphs)

/-! ## Looking up -/

/-- The keys of a dotted path; there is always at least one. -/
def keysOf (path : Glyphs) : List Glyphs := Text.splitAt (.char '.') path

namespace Reading

variable {α : Type} (reading : Reading α)

/-- The value at the end of a chain of keys, a missing one being null. -/
def follow? : List Glyphs → α → Option α
  | [], v => some v
  | key :: rest, v =>
    match reading.view v with
    | .record members =>
      follow? rest ((members.get? (.text key)).getD (reading.ofAtom .null))
    -- a value on the way that is no record, null included, ends the search
    | _ => none

/-- The value at a path; nothing if there is none or it is null. -/
def lookUp? (path : Glyphs) (v : α) : Option α :=
  (reading.follow? (keysOf path) v).filter fun found => (reading.view found).kind ≠ .null

end Reading

/-- The value at a path, or a default if there is none or it is null. -/
def get (settings : Settings) (path : Glyphs) (default : Data) : Data :=
  (Data.reading.lookUp? path settings).getD default

/-! ## Changing -/

inductive Change where
  | stored
  /-- A value on the way is no record. -/
  | refused
  /-- The value has no counterpart in the kind of the one that it replaces. -/
  | overflow
  /-- The value replaces a text, and lies too deep to be shown as one. -/
  | tooDeep
  /-- The settings themselves are no record. -/
  | noRecord
  deriving DecidableEq, Repr

/-- What a change comes to when a cast fails. -/
def Change.ofFault : Cast.Fault → Change
  | .beyondRange => .overflow
  | .tooDeep => .tooDeep

/-- Changes the value at the end of a chain of keys. There is `room` for so many levels in a value
that is shown. -/
def put (room : Nat) (members : Members Data) (v : Data) : List Glyphs → Change × Members Data
  | [] => (.refused, members)
  | [key] =>
    match Cast.replacement Data.reading room (members.get? (.text key)) v with
    | .ok cast => (.stored, members.set (.text key) ((cast.map Data.ofView).getD v))
    | .error why => (.ofFault why, members)
  | key :: rest =>
    match members.get? (.text key) with
    | none =>
      -- the record that is put here is empty, so nothing is in the way of the rest
      let (change, inner) := put room [] v rest
      (change, members.set (.text key) (.record inner))
    | some (.record inner) =>
      let (change, inner) := put room inner v rest
      (change, members.set (.text key) (.record inner))
    | some _ => (.refused, members)

def set (settings : Settings) (room : Nat) (path : Glyphs) (v : Data) : Change × Settings :=
  match settings with
  | .record members =>
    let (change, members) := put room members v (keysOf path)
    (change, .record members)
  | settings => (.noRecord, settings)

/-! ## The settings at the start -/

/-- The settings that a text holds; nothing if it nests too deep to be read. -/
def load? (room : Nat) (text : Option String) : Option Settings :=
  match text.map (read room) with
  | some (.ok settings) => some settings
  | some (.error .tooDeep) => none
  -- without a text, or with one that is no JSON, there are none
  | some (.error .malformed) | none => some (.record [])

def shipped : Settings :=
  .fields
    [("debug", .fields
        [("level", .text "WARNING"),
          ("module_levels", .fields [("blocksmith", .text "INFO")]),
          ("silenced", .fields [("concurrent.futures", .text "CRITICAL")])]),
      ("reconciler", .fields
        [("enabled", .flag true),
          ("small_target_max_keys", .int 3),
          ("small_target_min_overlap", .int 1),
          ("min_overlap_ratio", .float (Binary64.ofDecimal false 3 (-1)))]),
      ("batch", .fields [("workers", .int 0)])]

/-- The number of workers that is set, whatever kind of value that is; nothing if it is to be
chosen by the machine. -/
def workers? (settings : Settings) : Option Data :=
  some (settings.get "batch.workers" (.int 0)) |>.filter Data.isGiven

end Settings

end BlockTheme
