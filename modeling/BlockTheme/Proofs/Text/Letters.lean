import BlockTheme.Proofs.Text.Words
import BlockTheme.Text.Letter

/-!
# Letters and blanks

No character is both a blank and one of those that make up a word (`isWordChar_of_isBlank`). Which
characters are which is in tables, so this is a comparison of the two tables.
-/

namespace BlockTheme.Text

/-! ## Reading a table -/

/-- The table that a list of characters spells. -/
def Ranges.ofChars (text : List Char) : Ranges :=
  (words text).map fun entry =>
    match splitAt '-' entry with
    | [first, last] => (hexValue first, hexValue last)
    | _ => (hexValue entry, hexValue entry)

/-- What holds of the table of a list of characters holds of the table of a string with these
characters. For a literal they are found by unfolding it, which is much faster than running through
its bytes. -/
theorem Ranges.of_ofChars {text : String} {chars : List Char} (h : text = String.ofList chars)
    {P : Ranges → Prop} (hP : P (.ofChars chars)) : P (.ofText text) := by
  subst h
  rw [Ranges.ofText, String.toList_ofList]
  exact hP

/-! ## Blanks are in no word -/

set_option maxRecDepth 100000 in
theorem not_mem_range_of_mem_blankCodes :
    ∀ range ∈ alphanumerics, ∀ n ∈ blankCodes, ¬(range.1 ≤ n ∧ n ≤ range.2) := by
  -- the tables are compared by functions to `Bool`, which are evaluated faster than the instances
  have hall : alphanumerics.all (fun range =>
      blankCodes.all fun n => !(range.1.ble n && n.ble range.2)) = true := by
    unfold alphanumerics
    refine Ranges.of_ofChars (P := fun table => table.all (fun range =>
      blankCodes.all fun n => !(range.1.ble n && n.ble range.2)) = true) rfl ?_
    decide +kernel
  rintro range hrange n hn ⟨hfirst, hlast⟩
  have hnot := List.all_eq_true.1 (List.all_eq_true.1 hall range hrange) n hn
  rw [Nat.ble_eq_true_of_le hfirst, Nat.ble_eq_true_of_le hlast] at hnot
  cases hnot

/-- **No blank is a character of a word.** The ranges of characters of words are looked through for
the few blanks. -/
theorem isWordChar_of_isBlank {c : Char} (h : isBlank c = true) : isWordChar c = false := by
  have hcode := isBlank_iff.1 h
  have hunderscore : ¬c = '_' := by
    rintro rfl
    exact absurd h (by decide)
  have houtside : alphanumerics.contains c.toNat = false := by
    rw [Ranges.contains, List.any_eq_false]
    intro range hrange
    simpa using not_mem_range_of_mem_blankCodes range hrange c.toNat hcode
  simp [isWordChar, hunderscore, houtside]

end BlockTheme.Text
