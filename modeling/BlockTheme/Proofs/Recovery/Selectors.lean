import BlockTheme.Proofs.Text.Letters
import BlockTheme.Proofs.Text.Margins
import BlockTheme.Recovery.ClassName
import BlockTheme.Theme.Files

/-!
# The classes of a shipped stylesheet

The stylesheet that a theme ships defines the classes that the page's own stylesheet defines
(`definedClasses_stylesheetFile`): its header has no point in it, and the blanks at its ends end
every name that they follow.
-/

namespace BlockTheme.Recovery

/-! ## Class names and blanks -/

theorem not_isClassChar_of_isBlank {c : Char} (h : Text.isBlank c = true) :
    isClassChar c = false := by
  have hhyphen : ¬c = '-' := by
    rintro rfl
    exact absurd h (by decide)
  simp [isClassChar, Text.isWordChar_of_isBlank h, hhyphen]

theorem not_isClassStart_of_isBlank {c : Char} (h : Text.isBlank c = true) :
    isClassStart c = false := by
  have hcode := Text.isBlank_iff.1 h
  have hletter : c.isAlpha = false := by
    rw [Bool.eq_false_iff]
    intro halpha
    have hrange : (decide (c.val ≥ 'A'.val ∧ c.val ≤ 'Z'.val)
        || (c.val ≥ 'a'.val && c.val ≤ 'z'.val)) = true := halpha
    simp only [Bool.or_eq_true, Bool.and_eq_true, decide_eq_true_eq,
      UInt32.le_iff_toNat_le] at hrange
    simp only [Text.blankCodes, List.mem_cons, List.not_mem_nil, or_false] at hcode
    rcases hrange with ⟨hlow, hhigh⟩ | ⟨hlow, hhigh⟩ <;> simp at hlow hhigh <;> omega
  have hunderscore : ¬c = '_' := by
    rintro rfl
    exact absurd h (by decide)
  simp [isClassStart, hletter, hunderscore]

/-! ## The scan for selectors -/

/-- There is no selector without a point. -/
theorem selectorsIn_append_of_not_mem {front : List Char} (h : '.' ∉ front) (rest : List Char) :
    selectorsIn (front ++ rest) = selectorsIn rest := by
  induction front with
  | nil => rfl
  | cons c more ih =>
    have hc : (c == '.') = false := by simpa using fun heq : c = '.' => h (by simp [heq])
    rw [List.cons_append, selectorsIn, hc]
    exact ih fun hmore => h (List.mem_cons_of_mem _ hmore)

theorem not_mem_of_forall_isBlank {blanks : List Char} (h : ∀ c ∈ blanks, Text.isBlank c = true) :
    '.' ∉ blanks := fun hpoint => absurd (h '.' hpoint) (by decide)

/-- Blanks at the end do not change how a text begins a name. -/
theorem startsWith_append_blanks {blanks : List Char} (h : ∀ c ∈ blanks, Text.isBlank c = true)
    (name : List Char) :
    Text.startsWith isClassStart (name ++ blanks) = Text.startsWith isClassStart name := by
  cases name with
  | nil =>
    cases blanks with
    | nil => rfl
    | cons c more => simp [Text.startsWith, not_isClassStart_of_isBlank (h c List.mem_cons_self)]
  | cons d more => rfl

/-- Blanks at the end of a stylesheet neither make a selector nor make one longer. -/
theorem selectorsIn_append_blanks {blanks : List Char} (h : ∀ c ∈ blanks, Text.isBlank c = true)
    (text : List Char) : selectorsIn (text ++ blanks) = selectorsIn text := by
  have hends : ∀ c ∈ blanks.head?, isClassChar c = false := fun c hc =>
    not_isClassChar_of_isBlank (h c (List.mem_of_mem_head? hc))
  induction text with
  | nil =>
    have hnone := selectorsIn_append_of_not_mem (not_mem_of_forall_isBlank h) []
    rwa [List.append_nil] at hnone
  | cons c rest ih =>
    rw [List.cons_append, selectorsIn, selectorsIn, startsWith_append_blanks h,
      Text.takeWhile_append hends, ih]

/-- Blanks around a stylesheet make no difference to the classes that it has rules for, as no blank
begins or continues a selector. -/
theorem selectorsIn_strip (text : List Char) : selectorsIn (Text.strip text) = selectorsIn text := by
  obtain ⟨front, back, htext, hfront, hback⟩ := Text.exists_strip text
  have hscan := selectorsIn_append_blanks hback (front ++ Text.strip text)
  rw [← htext, selectorsIn_append_of_not_mem (not_mem_of_forall_isBlank hfront)] at hscan
  exact hscan.symm

/-! ## The shipped stylesheet -/

/-- The comment in front of a stylesheet has no point, and with it no class. -/
theorem not_mem_stylesheetHeader : '.' ∉ Theme.stylesheetHeader.toList := by
  decide +kernel

/-- **The stylesheet of a theme defines the classes of the stylesheet that it was made of.** The
comment in front of it and the blanks around it make no difference. -/
theorem definedClasses_stylesheetFile (css : Option String) :
    definedClasses (Theme.stylesheetFile css) = definedClasses (css.getD "") := by
  have hbreak : ∀ c ∈ "\n".toList, Text.isBlank c = true := List.all_eq_true.1 (by decide)
  have hstrip : selectorsIn (Text.stripText (css.getD "")).toList
      = selectorsIn (css.getD "").toList := by
    rw [Text.stripText, String.toList_ofList, selectorsIn_strip]
  have hscan : selectorsIn (Theme.stylesheetFile css).toList
      = selectorsIn (css.getD "").toList := by
    rw [← hstrip, Theme.stylesheetFile]
    by_cases hempty : (Text.stripText (css.getD "")).isEmpty = true
    · have hnone := selectorsIn_append_of_not_mem not_mem_stylesheetHeader []
      rw [List.append_nil] at hnone
      rw [if_pos hempty, hnone, String.isEmpty_iff.1 hempty]
      rfl
    · rw [if_neg hempty, String.toList_append, String.toList_append,
        selectorsIn_append_blanks hbreak, selectorsIn_append_of_not_mem not_mem_stylesheetHeader]
  rw [definedClasses, definedClasses, hscan]

end BlockTheme.Recovery
