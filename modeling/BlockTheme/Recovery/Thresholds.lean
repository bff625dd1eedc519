import BlockTheme.Schema.Field

/-!
# Thresholds

How many keys a container has to share with what it is to be given to. For few keys that is a fixed
number, for many a part of them; never less than one.
-/
namespace BlockTheme.Recovery

open Schema (Checked Key)

/-- The numbers that decide whether enough keys are shared. -/
structure Thresholds where
  /-- Up to so many keys the fixed number holds. -/
  fewKeys : Int := 3
  fewOverlap : Int := 1
  /-- The part of many keys that has to be shared. -/
  ratio : Binary64 := Binary64.ofDecimal false 3 (-1)

namespace Thresholds

def keys : Key × Key × Key :=
  (.word "small_target_max_keys", .word "small_target_min_overlap", .word "min_overlap_ratio")

/-- Thresholds, each with its default. -/
def ofFields (fields : Fields) : Checked Thresholds :=
  let (fewKeys, fewOverlap, ratio) := keys
  let default : Thresholds := {}
  Thresholds.mk <$> Schema.withDefault default.fewKeys fewKeys Schema.integer fields
    <*> Schema.withDefault default.fewOverlap fewOverlap Schema.integer fields
    <*> Schema.withDefault default.ratio ratio Schema.float fields

def read : Json → Checked Thresholds := Schema.object ofFields

def json (t : Thresholds) : Json :=
  let (fewKeys, fewOverlap, ratio) := keys
  .object
    [(fewKeys.snake, .int t.fewKeys), (fewOverlap.snake, .int t.fewOverlap),
      (ratio.snake, .number (.float t.ratio))]

/-- The part of `size` keys, rounded up. -/
def share (t : Thresholds) (size : Nat) : Except Binary64.NoCeiling Int :=
  -- rounded to nine decimal places before, so that a tenth of ten keys is one key
  (((Binary64.ofInt size).mul t.ratio).roundTo 9).ceil

def required (t : Thresholds) (size : Nat) : Except Binary64.NoCeiling Nat :=
  if (size : Int) ≤ t.fewKeys then .ok (max 1 t.fewOverlap).toNat
  else (t.share size).map fun n => (max 1 n).toNat

end Thresholds

end BlockTheme.Recovery
