import BlockTheme.Settings.Data

/-!
# Members of records

A key finds what was put there last under a key that counts as the same one (`Members.get?_set`). Which
keys do is an equivalence, under which a text is the same as no other key (`Atom.isSame_text_iff`).
-/

namespace BlockTheme.Settings

namespace Atom

variable {a b c : Atom}

/-- Keys are the same exactly if they are so in their canonical form. -/
theorem isSame_iff : a.isSame b = true ↔ a.canonical = b.canonical := by
  rw [isSame, decide_eq_true_eq]

theorem isSame_self (a : Atom) : a.isSame a = true := isSame_iff.2 rfl

/-- Keys that are the same are the same as the same keys. -/
theorem isSame_congr (h : a.isSame b = true) (c : Atom) : a.isSame c = b.isSame c := by
  rw [isSame, isSame, isSame_iff.1 h]

/-- Whether two keys are the same does not depend on which of them comes first. -/
theorem isSame_comm (a b : Atom) : a.isSame b = b.isSame a := by
  rw [isSame, isSame]
  exact decide_eq_decide.2 eq_comm

/-- Only a text is a text in the form in which keys are compared. -/
theorem canonical_eq_text {s : Text.Glyphs} : a.canonical = .text s ↔ a = .text s := by
  cases a with
  | number n => cases n <;> simp [canonical]
  | _ => simp [canonical]

/-- **A text counts as no key but itself.** Numbers and flags can be the same key without being the
same, but a path is made of texts. -/
theorem isSame_text_iff {s : Text.Glyphs} : a.isSame (.text s) = true ↔ a = .text s := by
  rw [isSame_iff]
  exact canonical_eq_text

end Atom

namespace Members

variable {α : Type} {members : Members α} {key : Atom} {v : α}

/-- A key finds the first member if it is the same key, or else one of the rest. -/
theorem get?_cons (k : Atom) (w : α) (rest : Members α) (key : Atom) :
    get? ((k, w) :: rest) key = if k.isSame key then some w else get? rest key := rfl

/-- **A key finds what was put there**, and all others find what they found before. Keys that are
the same find the same. -/
theorem get?_set (members : Members α) (key other : Atom) (v : α) :
    (members.set key v).get? other = if key.isSame other then some v else members.get? other := by
  induction members with
  | nil => rfl
  | cons member rest ih =>
    obtain ⟨k, w⟩ := member
    rw [set]
    by_cases hkey : k.isSame key = true
    · -- the key that is there counts as the same one
      rw [if_pos hkey, get?_cons, get?_cons, Atom.isSame_congr hkey other]
      split <;> rfl
    · rw [if_neg hkey, get?_cons, get?_cons, ih]
      by_cases hother : k.isSame other = true
      · rw [if_pos hother, if_pos hother, if_neg]
        rwa [Atom.isSame_comm, ← Atom.isSame_congr hother key]
      · rw [if_neg hother, if_neg hother]

theorem get?_set_self (members : Members α) (key : Atom) (v : α) :
    (members.set key v).get? key = some v := by
  rw [get?_set, if_pos (Atom.isSame_self key)]

/-- Giving a key the value that it has changes nothing. -/
theorem set_eq_self (h : members.get? key = some v) : members.set key v = members := by
  induction members with
  | nil => cases h
  | cons member rest ih =>
    obtain ⟨k, w⟩ := member
    rw [get?_cons] at h
    by_cases hkey : k.isSame key = true
    · rw [if_pos hkey] at h
      rw [set, if_pos hkey, Option.some.inj h]
    · rw [if_neg hkey] at h
      rw [set, if_neg hkey, ih h]

/-- Of two values that are put under one key the second one stays. -/
theorem set_set (members : Members α) (key : Atom) (v w : α) :
    (members.set key v).set key w = members.set key w := by
  induction members with
  | nil =>
    rw [set, set, set, if_pos (Atom.isSame_self key)]
  | cons member rest ih =>
    obtain ⟨k, u⟩ := member
    by_cases hkey : k.isSame key = true
    · rw [set, if_pos hkey, set, if_pos hkey, set, if_pos hkey]
    · rw [set, if_neg hkey, set, if_neg hkey, set, if_neg hkey, ih]

/-- What a key finds is one of the members. Its key is the same one, though not always the same
atom: an integer and a float may be one key. -/
theorem exists_mem_of_get? (h : members.get? key = some v) :
    ∃ k, (k, v) ∈ members ∧ k.isSame key = true := by
  induction members with
  | nil => cases h
  | cons member rest ih =>
    obtain ⟨k, w⟩ := member
    rw [get?_cons] at h
    split at h
    · next hkey =>
      cases h
      exact ⟨k, List.mem_cons_self, hkey⟩
    · obtain ⟨k, hk, hkey⟩ := ih h
      exact ⟨k, List.mem_cons_of_mem _ hk, hkey⟩

end Members

end BlockTheme.Settings
