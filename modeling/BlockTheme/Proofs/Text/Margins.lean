import BlockTheme.Text.Blank
import Mathlib.Data.List.TakeDrop
import Mathlib.Data.List.TakeWhile

/-!
# The margins of a text

Trimming takes off the longest margins of a text and nothing else (`exists_trim`), and a run of
characters of one kind ends at the first one of another kind (`span_append`).
-/

namespace BlockTheme.Text

/-! What holds of the characters of a text is decided on the text, not on all characters. -/

section Decidable

variable {p : Char → Prop} [DecidablePred p]

instance (priority := high) decidableForallMem (s : List Char) : Decidable (∀ c ∈ s, p c) :=
  List.decidableBAll p s

instance (priority := high) decidableExistsMem (c : Option Char) : Decidable (∃ d ∈ c, p d) :=
  Option.decidableExistsMem c

end Decidable

/-- A run of characters of one kind, up to the first one that is of another. -/
theorem span_append {p : Char → Bool} {run rest : List Char} (hrun : ∀ c ∈ run, p c = true)
    (hrest : ∀ c ∈ rest.head?, p c = false) : (run ++ rest).span p = (run, rest) := by
  rw [List.span_eq_takeWhile_dropWhile, List.takeWhile_append_of_pos hrun,
    List.dropWhile_append_of_pos hrun]
  cases rest with
  | nil => simp
  | cons c rest =>
    have hc := hrest c rfl
    simp [hc]

/-- A run at the beginning of a text ends there, if what stands behind the text is of another kind. -/
theorem takeWhile_append {p : Char → Bool} {rest : List Char} (hrest : ∀ c ∈ rest.head?, p c = false)
    (text : List Char) : (text ++ rest).takeWhile p = text.takeWhile p := by
  induction text with
  | nil =>
    cases rest with
    | nil => rfl
    | cons c rest => simp [hrest c rfl]
  | cons d text ih => simp [List.takeWhile_cons, ih]

/-- A text is what trimming leaves of it, between margins. -/
theorem exists_trim (p : Char → Bool) (text : List Char) :
    ∃ front back, text = front ++ trim p text ++ back
      ∧ (∀ c ∈ front, p c = true) ∧ ∀ c ∈ back, p c = true := by
  have hmargin : ∀ s : List Char, ∀ c ∈ s.takeWhile p, p c = true :=
    fun s c hc => List.mem_takeWhile_imp hc
  refine ⟨text.takeWhile p, ((text.dropWhile p).reverse.takeWhile p).reverse, ?_, hmargin _, ?_⟩
  · rw [trim, List.append_assoc, ← List.reverse_append, List.takeWhile_append_dropWhile,
      List.reverse_reverse, List.takeWhile_append_dropWhile]
  · intro c hc
    exact hmargin _ c (List.mem_reverse.1 hc)

/-- A text is what stripping leaves of it, between blanks. -/
theorem exists_strip (text : List Char) :
    ∃ front back, text = front ++ strip text ++ back
      ∧ (∀ c ∈ front, isBlank c = true) ∧ ∀ c ∈ back, isBlank c = true :=
  exists_trim isBlank text

end BlockTheme.Text
