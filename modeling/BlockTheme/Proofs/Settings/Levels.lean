import BlockTheme.Settings.Logging

/-!
# Levels that do not exist

Every value gives a level, except for texts that are reserved for something else
(`Logging.IsReserved`). So the levels of a call can be set exactly if no such text is among them, and
the levels of modules are given by records under the names of modules (`Logging.configure_fails_iff`).
-/

namespace BlockTheme.Logging

open Settings (Atom Data Members)

variable {fallback : Int} {levels : Levels} {members : Members Data} {general modules silenced v : Data}
  {key : Atom}

/-- A text that is reserved for something else than a level, in any case. -/
def IsReserved (v : Data) : Prop :=
  ∃ s word, v = .text s ∧ capitals? s = some word ∧ word ∈ reserved.map Prod.fst

theorem mem_reserved_iff {word : String} :
    word ∈ reserved.map Prod.fst ↔ (reserved.lookup word).isSome = true := by
  rw [List.lookup_isSome_iff, List.mem_map]
  simp only [beq_iff_eq, @eq_comm _ word]

/-- **Only reserved texts give no level.** Everything else gives one, and be it the one to fall back
on. -/
theorem level_fails_iff : (∃ why, level fallback v = .error why) ↔ IsReserved v := by
  unfold IsReserved
  cases v with
  | atom a =>
    cases a with
    | text s =>
      simp only [Data.text, Data.atom.injEq, Atom.text.injEq, exists_and_left, exists_eq_left',
        mem_reserved_iff, level]
      cases capitals? s with
      | none => simp
      | some word =>
        simp only [Option.some.injEq, exists_eq_left', Option.bind_some]
        cases reserved.lookup word <;> simp
    | number n => cases n <;> simp [level, Data.text]
    | _ => simp [level, Data.text]
  | _ => simp [level, Data.text]

example : level generalFallback (.text "Basic_Format") = .error .unnamed := by rfl

/-- A key that is no name of a module, and does not stand for messages in general either. -/
def IsNameless (key : Atom) : Prop := key.isGiven = true ∧ ∀ s, key ≠ .text s

theorem nameOf_fails_iff : (∃ why, nameOf key = .error why) ↔ IsNameless key := by
  unfold IsNameless
  cases key with
  | text s => simp [nameOf]
  | null => simp [nameOf, Atom.isGiven]
  | flag b => cases b <;> simp [nameOf, Atom.isGiven]
  | number n => cases hzero : n.isZero <;> simp [nameOf, Atom.isGiven, hzero]

/-- If it does not depend on what comes first whether the rest fails, then all fails if either does. -/
theorem bind_fails_iff {ε α β : Type} {first : Except ε α} {rest : α → Except ε β} {Q : Prop}
    (hrest : ∀ a, (∃ why, rest a = .error why) ↔ Q) :
    (∃ why, (first >>= rest) = .error why) ↔ (∃ why, first = .error why) ∨ Q := by
  cases first with
  | error why => exact iff_of_true ⟨why, rfl⟩ (.inl ⟨why, rfl⟩)
  | ok a =>
    rw [← hrest a]
    exact ⟨.inr, fun h => h.resolve_left fun ⟨_, hwhy⟩ => by cases hwhy⟩

/-- The levels of all modules are set unless one of them has no name or no level. Neither depends on
the levels that were set before. -/
theorem setAll_fails_iff :
    (∃ why, setAll fallback levels members = .error why)
      ↔ ∃ member ∈ members, IsNameless member.1 ∨ IsReserved member.2 := by
  induction members generalizing levels with
  | nil => simp [setAll]
  | cons member rest ih =>
    obtain ⟨key, v⟩ := member
    simp only [List.mem_cons, exists_eq_or_imp]
    rw [setAll, or_assoc]
    refine (bind_fails_iff fun name => ?_).trans (or_congr_left nameOf_fails_iff)
    exact (bind_fails_iff fun found => ih).trans (or_congr_left level_fails_iff)

/-- Why a value cannot give the levels of modules. -/
inductive Spoils (v : Data) : Prop where
  /-- It is no record, and is not empty either. -/
  | noRecord (hgiven : v.isGiven = true) (hrecord : v.members? = none)
  /-- One of its keys is no name. -/
  | noName {members : Members Data} (hrecord : v.members? = some members)
      (hmember : ∃ member ∈ members, IsNameless member.1)
  | reserved {members : Members Data} (hrecord : v.members? = some members)
      (hmember : ∃ member ∈ members, IsReserved member.2)

theorem membersOf_of_members?_eq_none (hrecord : v.members? = none) :
    membersOf v = if v.isGiven then .error .noRecord else .ok [] := by
  cases v with
  | record members => cases hrecord
  | _ => rfl

theorem setAll_membersOf_fails_iff :
    (∃ why, (membersOf v >>= setAll fallback levels) = .error why) ↔ Spoils v := by
  cases hrecord : v.members? with
  | none =>
    rw [membersOf_of_members?_eq_none hrecord]
    -- what is no record spoils the levels unless it counts as nothing
    by_cases hgiven : v.isGiven = true
    · rw [if_pos hgiven]
      exact iff_of_true ⟨.noRecord, rfl⟩ (.noRecord hgiven hrecord)
    · rw [if_neg hgiven]
      refine iff_of_false ?_ ?_
      · rintro ⟨why, ⟨⟩⟩
      · rintro (⟨h, -⟩ | ⟨h, -⟩ | ⟨h, -⟩)
        · exact hgiven h
        · cases hrecord.symm.trans h
        · cases hrecord.symm.trans h
  | some members =>
    have hmembers : membersOf v = .ok members := by
      cases v with
      | record inner =>
        cases hrecord
        rfl
      | _ => cases hrecord
    rw [hmembers]
    -- in a record a member spoils them, by its name or by its level
    refine setAll_fails_iff.trans ?_
    constructor
    · rintro ⟨member, hmember, hname | hlevel⟩
      · exact .noName hrecord ⟨member, hmember, hname⟩
      · exact .reserved hrecord ⟨member, hmember, hlevel⟩
    · rintro (⟨-, h⟩ | ⟨h, member, hmember, hname⟩ | ⟨h, member, hmember, hlevel⟩)
      · cases hrecord.symm.trans h
      · rw [Option.some.inj (hrecord.symm.trans h)]
        exact ⟨member, hmember, .inl hname⟩
      · rw [Option.some.inj (hrecord.symm.trans h)]
        exact ⟨member, hmember, .inr hlevel⟩

/-- **The levels of a call cannot be set** exactly if a text that is reserved is among them, or levels
of modules are given by something else than a record under names. -/
theorem configure_fails_iff :
    (∃ why, configure general modules silenced = .error why)
      ↔ IsReserved general ∨ Spoils modules ∨ Spoils silenced := by
  have hbind : configure general modules silenced
      = level generalFallback general >>= fun root =>
        (membersOf modules >>= setAll moduleFallback { root }) >>= fun levels =>
          membersOf silenced >>= setAll silencedFallback levels := by
    unfold configure
    cases level generalFallback general with
    | error why => rfl
    | ok root => cases membersOf modules <;> rfl
  rw [hbind]
  refine (bind_fails_iff fun root => ?_).trans (or_congr_left level_fails_iff)
  exact (bind_fails_iff fun levels => setAll_membersOf_fails_iff).trans
    (or_congr_left setAll_membersOf_fails_iff)

end BlockTheme.Logging
