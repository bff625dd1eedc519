import BlockTheme.Json.Display
import BlockTheme.Settings.Data
import BlockTheme.Text.Numeral

/-!
# Showing values

How a value is shown where a text is expected: a text as itself, everything else in a notation of its
own, in which texts inside lists and records are quoted. There are two things that cannot be shown:
integers with too many digits, and what lies too deep.
-/
namespace BlockTheme.Settings

open Text (Glyphs)

/-- Why a value cannot be shown. -/
inductive Unshown where
  /-- An integer has too many digits. -/
  | tooLong
  /-- Values lie inside each other in more levels than there is room for. -/
  | tooDeep
  deriving DecidableEq, Repr

/-- An atom inside another value. -/
def Atom.literal : Atom → Except Unshown (List Char)
  | .null => .ok "None".toList
  | .flag b => .ok (if b then "True" else "False").toList
  | .number (.int n) =>
    if Text.maxDigits < Binary64.digitCount n.natAbs then .error .tooLong else .ok (Number.digits n)
  | .number x => .ok (Json.displayNumber x)
  | .text s => .ok (Glyphs.quoted s)

namespace Reading

variable {α : Type} (reading : Reading α)

/-- A value, with those right inside it shown by `inner`. The values around it are known by their
identities. -/
def literalWith (around : List Nat) (inner : α → Except Unshown (List Char)) (v : α) :
    Except Unshown (List Char) :=
  -- a value that is inside itself is not shown again
  let isAround := (reading.identity? v).any around.contains
  match reading.view v with
  | .atom a => a.literal
  | .list items =>
    if isAround then .ok "[...]".toList
    else do
      let shown ← items.mapM inner
      return '[' :: (", ".toList.intercalate shown ++ [']'])
  | .record members =>
    if isAround then .ok (Char.ofNat 123 :: "...".toList ++ [Char.ofNat 125])
    else do
      let shown ← members.mapM fun (key, v) => do
        return (← inner (reading.ofAtom key)) ++ ':' :: ' ' :: (← inner v)
      return Char.ofNat 123 :: (", ".toList.intercalate shown ++ [Char.ofNat 125])

/-- The values around the items or members of a value. -/
def within (around : List Nat) (v : α) : List Nat := (reading.identity? v).toList ++ around

/-- A value as it is shown inside others, with `room` for so many levels below it. -/
def literal : Nat → List Nat → α → Except Unshown (List Char)
  | 0, around, v => reading.literalWith around (fun _ => .error .tooDeep) v
  | room + 1, around, v => reading.literalWith around (literal room (reading.within around v)) v

/-- The text that shows a value. -/
def shown (room : Nat) (v : α) : Except Unshown Glyphs :=
  match reading.view v with
  | .atom (.text s) => .ok s
  | _ => (reading.literal room [] v).map Glyphs.ofChars

end Reading

end BlockTheme.Settings
