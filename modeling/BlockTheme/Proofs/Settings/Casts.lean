import BlockTheme.Settings.Cast

/-!
# What casting keeps

A cast value is of the kind that it was cast to (`Cast.kind_of_toKind`), and a value of that kind
already is cast to what it is (`Cast.toKind_self`). So a value that was stored once is stored again
where it stands (`Cast.again`). All of this holds for every reading of values, for data as for
references.
-/

namespace BlockTheme.Settings

namespace Data

@[simp] theorem view_ofView (v : View Data) : (ofView v).view = v := by cases v <;> rfl

@[simp] theorem ofView_view (v : Data) : ofView v.view = v := by cases v <;> rfl

end Data

namespace Cast

variable {α : Type} {reading : Reading α} {room : Nat} {kind : Kind} {v : α} {w : View α}

/-- What is stored of data, given what its cast came to. -/
def stored (cast : Option (View Data)) (v : Data) : Data := (cast.map Data.ofView).getD v

/-- **A cast value is of the kind that it was cast to.** A second request with the same value finds
it there and casts to the same kind again. -/
theorem kind_of_toKind (h : toKind reading room kind v = .ok (some w)) : w.kind = kind := by
  -- each cast gives a value of its kind or fails
  cases kind with
  | null => cases h
  | flag =>
    cases h
    rfl
  | integer =>
    rw [toKind] at h
    cases hcast : toInteger (reading.view v) with
    | error why =>
      rw [hcast] at h
      cases h
    | ok n =>
      rw [hcast] at h
      obtain ⟨n, -, rfl⟩ := Option.map_eq_some_iff.1 (Except.ok.inj h)
      rfl
  | float =>
    rw [toKind] at h
    cases hcast : toFloat (reading.view v) with
    | error why =>
      rw [hcast] at h
      cases h
    | ok x =>
      rw [hcast] at h
      obtain ⟨x, -, rfl⟩ := Option.map_eq_some_iff.1 (Except.ok.inj h)
      rfl
  | text =>
    rw [toKind] at h
    cases hcast : toText reading room v with
    | error why =>
      rw [hcast] at h
      cases h
    | ok s =>
      rw [hcast] at h
      obtain ⟨s, -, rfl⟩ := Option.map_eq_some_iff.1 (Except.ok.inj h)
      rfl
  | list | record =>
    obtain ⟨inside, -, rfl⟩ := Option.map_eq_some_iff.1 (Except.ok.inj h)
    rfl

/-- **A value is cast to its own kind as it is**; only null is not cast at all. So a value of the
kind that is there is stored as an equal one. -/
theorem toKind_self (reading : Reading α) (room : Nat) (v : α) :
    toKind reading room (reading.view v).kind v
      = .ok (if (reading.view v).kind = .null then none else some (reading.view v)) := by
  cases hview : reading.view v with
  | atom a =>
    cases a with
    | null => rfl
    | flag b =>
      show Except.ok (some (View.atom (.flag (toFlag (reading.view v))))) = _
      rw [hview]
      rfl
    | number n =>
      cases n with
      | int n =>
        show (toInteger (reading.view v)).map _ = _
        rw [hview]
        rfl
      | float x =>
        show (toFloat (reading.view v)).map _ = _
        rw [hview]
        rfl
    -- a text is shown as itself
    | text s =>
      show (toText reading room v).map _ = _
      rw [toText, Reading.shown, hview]
      rfl
  | list items =>
    show Except.ok ((itemsOf? reading v).map View.list) = _
    rw [itemsOf?, hview]
    rfl
  | record members =>
    show Except.ok ((membersOf? reading v).map View.record) = _
    rw [membersOf?, hview]
    rfl

/-- Data that replaces data of its own kind is stored as it is. -/
theorem replacement_self (room : Nat) (v : Data) :
    ∃ cast, replacement Data.reading room (some v) v = .ok cast ∧ stored cast v = v := by
  refine ⟨_, toKind_self Data.reading room v, ?_⟩
  split
  · rfl
  · exact Data.ofView_view v

/-- **What was stored for a value is stored for it again.** The second cast is to the kind of what
the first one gave, and it gives the same. -/
theorem again {old : Option Data} {v : Data} {cast : Option (View Data)}
    (h : replacement Data.reading room old v = .ok cast) :
    ∃ later, replacement Data.reading room (some (stored cast v)) v = .ok later
      ∧ stored later v = stored cast v := by
  cases cast with
  | none => exact replacement_self room v
  | some w =>
    cases old with
    | none => cases h
    | some old =>
      -- the kind that decides about the cast is still the same
      have hkind : (Data.reading.view (stored (some w) v)).kind = (Data.reading.view old).kind := by
        show (Data.ofView w).view.kind = _
        rw [Data.view_ofView]
        exact kind_of_toKind h
      refine ⟨some w, ?_, rfl⟩
      rw [replacement, hkind]
      exact h

end Cast

end BlockTheme.Settings
