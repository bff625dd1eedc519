import BlockTheme.Proofs.Text.Marks
import BlockTheme.Proofs.Text.Normal
import BlockTheme.Text.Slug

/-!
# Slugs

A slug is put together from the runs of lower-case letters and digits of a text, with single hyphens
between them (`slug_eq_intercalate`). So it has the form of a slug unless there are no such runs
(`slug_eq_nil_or_isSlug`), and making a slug of a slug changes nothing (`slug_slug`).
-/

namespace BlockTheme.Text

/-! ## Characters -/

/-- The lower-case letters by their numbers. Questions about characters of slugs become questions
about numbers, which are decided by arithmetic. -/
theorem range_of_isLower {c : Char} (h : c.isLower = true) : 97 ≤ c.toNat ∧ c.toNat ≤ 122 := by
  have hrange : (decide (c.val ≥ 'a'.val) && decide (c.val ≤ 'z'.val)) = true := h
  simpa [UInt32.le_iff_toNat_le] using hrange

theorem range_of_isUpper {c : Char} (h : c.isUpper = true) : 65 ≤ c.toNat ∧ c.toNat ≤ 90 := by
  have hrange : decide (c.val ≥ 'A'.val ∧ c.val ≤ 'Z'.val) = true := h
  simpa [UInt32.le_iff_toNat_le] using hrange

theorem range_of_isDigit {c : Char} (h : c.isDigit = true) : 48 ≤ c.toNat ∧ c.toNat ≤ 57 := by
  simpa [Char.isDigit, UInt32.le_iff_toNat_le] using h

/-- A character of a slug is a digit or a lower-case letter, both in the narrow sense of ASCII. -/
theorem isSlugChar_iff {c : Char} : isSlugChar c = true ↔ c.isDigit = true ∨ c.isLower = true := by
  rw [isSlugChar, Bool.or_eq_true]

theorem range_of_isSlugChar {c : Char} (h : isSlugChar c = true) :
    48 ≤ c.toNat ∧ c.toNat ≤ 57 ∨ 97 ≤ c.toNat ∧ c.toNat ≤ 122 :=
  (isSlugChar_iff.1 h).imp range_of_isDigit range_of_isLower

/-- No such character is blank: the numbers of blanks lie elsewhere. -/
theorem not_isBlank_of_isSlugChar {c : Char} (h : isSlugChar c = true) : isBlank c = false := by
  have hrange := range_of_isSlugChar h
  rw [← Bool.not_eq_true]
  simp only [isBlank, Bool.or_eq_true, Bool.and_eq_true, decide_eq_true_eq, beq_iff_eq]
  omega

/-- Characters that are no upper-case letters of ASCII are their own lower case, as far as ASCII
goes. -/
theorem toLower_eq_self {c : Char} (h : 97 ≤ c.toNat ∨ c.toNat < 65) : c.toLower = c := by
  unfold Char.toLower
  split
  · next hcapital =>
    simp only [ge_iff_le, UInt32.le_iff_toNat_le, Char.toNat_val] at hcapital
    have hrange : 65 ≤ c.toNat ∧ c.toNat ≤ 90 := hcapital
    omega
  · rfl

/-- The lower case of a character of a slug is this character, also by the rules for all letters and
not only for those of ASCII. -/
theorem lowerChar_eq_self {c : Char} (h : isSlugChar c = true ∨ c = '-') : lowerChar c = [c] := by
  have hrange : c.toNat < 128 ∧ (97 ≤ c.toNat ∨ c.toNat < 65) := by
    rcases h with hslug | rfl
    · have hslug := range_of_isSlugChar hslug
      omega
    · decide
  rw [lowerChar, if_pos hrange.1, toLower_eq_self hrange.2]

/-- Slugs are in lower case: all their characters are, and the one rule that looks at neighbours is
about a Greek letter. -/
theorem lower_eq_self {s : List Char} (h : ∀ c ∈ s, isSlugChar c = true ∨ c = '-') :
    lower s = s := by
  have hafter : ∀ before, lowerAfter before s = s := by
    induction s with
    | nil => exact fun _ => rfl
    | cons c rest ih =>
      obtain ⟨hc, hrest⟩ := List.forall_mem_cons.1 h
      have hsigma : c ≠ 'Σ' := by
        rintro rfl
        exact absurd hc (by decide)
      intro before
      rw [lowerAfter, if_neg hsigma, lowerChar_eq_self hc, ih hrest, List.singleton_append]
  exact hafter []

/-! ## Runs

Hyphens take the place of what separates the runs. With spaces in their place, the runs would be the
words of the text, and all that is known of words holds for them.
-/

/-- A character of a slug, or a space in its place. -/
def spaceOut (c : Char) : Char := if isSlugChar c then c else ' '

/-- A space, or a hyphen in its place. -/
def hyphenFor (c : Char) : Char := if c = ' ' then '-' else c

/-- What is no character of a slug is blank after spacing out, and nothing else is. -/
theorem isBlank_spaceOut (c : Char) : isBlank (spaceOut c) = !isSlugChar c := by
  unfold spaceOut
  split
  · next h => rw [not_isBlank_of_isSlugChar h, h, Bool.not_true]
  · next h => rw [Bool.eq_false_iff.2 h]; rfl

/-- A text starts with a blank after spacing out if it starts with no character of a slug. -/
theorem startsWith_map_spaceOut (s : List Char) :
    startsWith isBlank (s.map spaceOut) = startsWith (!isSlugChar ·) s := by
  cases s with
  | nil => rfl
  | cons c rest => exact isBlank_spaceOut c

/-- Putting hyphens for runs of other characters is collapsing blanks, once these characters are
blanks. So what is known of `collapse` and its words can be used for slugs. -/
theorem hyphenate_eq (s : List Char) :
    hyphenate s = (collapse (s.map spaceOut)).map hyphenFor := by
  induction s with
  | nil => rfl
  | cons c rest ih =>
    rw [List.map_cons, hyphenate, collapse, isBlank_spaceOut, startsWith_map_spaceOut]
    by_cases hc : isSlugChar c = true
    · have hkept : hyphenFor (spaceOut c) = c := by
        have hspace : c ≠ ' ' := by
          rintro rfl
          exact absurd hc (by decide)
        rw [spaceOut, if_pos hc, hyphenFor, if_neg hspace]
      simp [hc, hkept, ih]
    -- the first of a run of other characters is left out while the run goes on
    · have hfalse : isSlugChar c = false := Bool.eq_false_iff.2 hc
      simp only [hfalse, Bool.false_eq_true, if_false, Bool.not_false, if_true]
      split
      · exact ih
      · rw [ih]
        rfl

/-- Trimming does not depend on which characters stand for those that are taken off. -/
theorem trim_map {p q : Char → Bool} {f : Char → Char} {s : List Char}
    (h : ∀ c ∈ s, p (f c) = q c) : trim p (s.map f) = (trim q s).map f := by
  have hdrop : ∀ {t : List Char}, (∀ c ∈ t, p (f c) = q c) →
      (t.map f).dropWhile p = (t.dropWhile q).map f := by
    intro t ht
    induction t with
    | nil => rfl
    | cons c rest ih =>
      obtain ⟨hc, hrest⟩ := List.forall_mem_cons.1 ht
      rw [List.map_cons, List.dropWhile_cons, List.dropWhile_cons, hc, ih hrest]
      split <;> rfl
  have hback : ∀ c ∈ (s.dropWhile q).reverse, p (f c) = q c := fun c hc =>
    h c ((List.dropWhile_suffix q).subset (List.mem_reverse.1 hc))
  rw [trim, trim, hdrop h, ← List.map_reverse, hdrop hback, ← List.map_reverse]

/-- Collapsing leaves single spaces and what is not blank. -/
theorem mem_collapse {s : List Char} {c : Char} (h : c ∈ collapse s) :
    c = ' ' ∨ c ∈ s ∧ isBlank c = false := by
  induction s with
  | nil => simp [collapse] at h
  | cons first rest ih =>
    have hrest : c ∈ collapse rest → c = ' ' ∨ c ∈ first :: rest ∧ isBlank c = false :=
      fun hc => (ih hc).imp_right fun hmem => ⟨List.mem_cons_of_mem _ hmem.1, hmem.2⟩
    unfold collapse at h
    split_ifs at h with hfirst hnext
    · exact hrest h
    · exact (List.mem_cons.1 h).elim Or.inl hrest
    · rcases List.mem_cons.1 h with rfl | hmem
      · exact Or.inr ⟨List.mem_cons_self, Bool.eq_false_iff.2 hfirst⟩
      · exact hrest hmem

/-- What is not blank after spacing out was a character of a slug before. -/
theorem isSlugChar_of_mem_map {s : List Char} {c : Char} (h : c ∈ s.map spaceOut)
    (hblank : isBlank c = false) : isSlugChar c = true := by
  obtain ⟨d, -, rfl⟩ := List.mem_map.1 h
  have hd : isSlugChar d = true := by simpa [isBlank_spaceOut] using hblank
  rwa [spaceOut, if_pos hd]

/-- The maximal runs of characters of a slug. -/
def slugRuns (s : List Char) : List (List Char) := words (s.map spaceOut)

/-- Runs are not empty, and made of characters of slugs. -/
theorem forall_mem_slugRuns {s run : List Char} (h : run ∈ slugRuns s) :
    run ≠ [] ∧ ∀ c ∈ run, isSlugChar c = true := by
  obtain ⟨hne, hblank⟩ := forall_mem_words h
  exact ⟨hne, fun c hc => isSlugChar_of_mem_map (subset_of_mem_words h hc) (hblank c hc)⟩

/-- Changing characters one by one changes parts and joints. -/
theorem map_intercalate (f : Char → Char) (c : Char) (parts : List (List Char)) :
    ([c].intercalate parts).map f = [f c].intercalate (parts.map (List.map f)) := by
  induction parts with
  | nil => rfl
  | cons part rest ih =>
    cases rest with
    | nil => simp
    | cons next rest =>
      rw [List.intercalate_cons_cons, List.map_append, List.map_append, ih]
      simp

/-- What changes no character of a slug changes no runs of them. -/
theorem map_runs_eq_self {f : Char → Char} (hf : ∀ c, isSlugChar c = true → f c = c)
    {runs : List (List Char)} (h : ∀ run ∈ runs, ∀ c ∈ run, isSlugChar c = true) :
    runs.map (List.map f) = runs := by
  have hrun : ∀ run ∈ runs, run.map f = id run := fun run hrun => by
    rw [List.map_congr_left fun c hc => hf c (h run hrun c hc), List.map_id', id]
  rw [List.map_congr_left hrun, List.map_id]

theorem hyphenFor_eq_self {c : Char} (h : c ≠ ' ') : hyphenFor c = c := if_neg h

/-- A character of a slug is not one that slugs do not have. -/
theorem ne_of_isSlugChar {c d : Char} (hc : isSlugChar c = true) (hd : isSlugChar d = false) :
    c ≠ d := by
  rintro rfl
  rw [hc] at hd
  cases hd

/-- **A slug is the runs of a text in lower case, with single hyphens between them.** Hyphens at the
ends are trimmed, like blanks around words. -/
theorem slug_eq_intercalate (s : List Char) : slug s = ['-'].intercalate (slugRuns (lower s)) := by
  have hhyphen : ∀ c ∈ collapse ((lower s).map spaceOut), (hyphenFor c == '-') = isBlank c := by
    intro c hc
    rcases mem_collapse hc with rfl | ⟨hmem, hblank⟩
    · rfl
    · have hslug := isSlugChar_of_mem_map hmem hblank
      rw [hblank, hyphenFor_eq_self (ne_of_isSlugChar hslug rfl), beq_eq_false_iff_ne]
      exact ne_of_isSlugChar hslug rfl
  have hruns : (slugRuns (lower s)).map (List.map hyphenFor) = slugRuns (lower s) :=
    map_runs_eq_self (fun c hc => hyphenFor_eq_self (ne_of_isSlugChar hc rfl))
      fun run hrun => (forall_mem_slugRuns hrun).2
  rw [slug, hyphenate_eq, trim_map hhyphen, ← strip, ← normalize, normalize_eq, map_intercalate,
    ← slugRuns, hruns]
  rfl

/-- Runs that are joined by hyphens are found again. -/
theorem slugRuns_intercalate {runs : List (List Char)}
    (h : ∀ run ∈ runs, run ≠ [] ∧ ∀ c ∈ run, isSlugChar c = true) :
    slugRuns (['-'].intercalate runs) = runs := by
  have hruns : runs.map (List.map spaceOut) = runs :=
    map_runs_eq_self (fun c hc => if_pos hc) fun run hrun => (h run hrun).2
  have hspace : spaceOut '-' = ' ' := rfl
  rw [slugRuns, map_intercalate, hruns, hspace]
  exact words_intercalate fun run hrun =>
    ⟨(h run hrun).1, fun c hc => not_isBlank_of_isSlugChar ((h run hrun).2 c hc)⟩

/-! ## The form of a slug -/

/-- The form of a slug: runs of lower-case ASCII letters and digits, at least one of them, joined by
single hyphens. -/
def IsSlug (s : List Char) : Prop :=
  ∃ runs : List (List Char), runs ≠ []
    ∧ (∀ run ∈ runs, run ≠ [] ∧ ∀ c ∈ run, isSlugChar c = true)
    ∧ s = ['-'].intercalate runs

theorem IsSlug.ne_nil {s : List Char} (h : IsSlug s) : s ≠ [] := by
  obtain ⟨runs, hne, hruns, rfl⟩ := h
  obtain ⟨run, rest, rfl⟩ := List.exists_cons_of_ne_nil hne
  have hrun := (hruns run List.mem_cons_self).1
  cases rest <;> simp [hrun]

/-- A slug has nothing in it but characters of its runs and the hyphens between them. -/
theorem IsSlug.of_mem {s : List Char} (h : IsSlug s) {c : Char} (hc : c ∈ s) :
    isSlugChar c = true ∨ c = '-' := by
  obtain ⟨runs, -, hruns, rfl⟩ := h
  by_cases hhyphen : c = '-'
  · exact Or.inr hhyphen
  · have houtside : '-' ∉ [c] := by simpa using Ne.symm hhyphen
    rw [← List.singleton_infix_iff, infix_intercalate houtside (List.cons_ne_nil c [])] at hc
    obtain ⟨run, hrun, hmem⟩ := hc
    exact Or.inl ((hruns run hrun).2 c ((List.singleton_infix_iff c run).1 hmem))

/-- A text without letters and digits has no slug; every other text has one. -/
theorem slug_eq_nil_or_isSlug (s : List Char) : slug s = [] ∨ IsSlug (slug s) := by
  rw [slug_eq_intercalate]
  by_cases hruns : slugRuns (lower s) = []
  · rw [hruns]
    exact Or.inl rfl
  · exact Or.inr ⟨_, hruns, fun _ => forall_mem_slugRuns, rfl⟩

/-- A slug has letters, digits and hyphens. -/
theorem mem_slug {s : List Char} {c : Char} (h : c ∈ slug s) : isSlugChar c = true ∨ c = '-' := by
  rcases slug_eq_nil_or_isSlug s with hnone | hslug
  · rw [hnone] at h
    cases h
  · exact hslug.of_mem h

/-- **Making a slug of a slug changes nothing.** Its runs are found again, and they are in lower
case already. -/
theorem slug_slug (s : List Char) : slug (slug s) = slug s := by
  rw [slug_eq_intercalate (slug s), lower_eq_self fun _ => mem_slug, slug_eq_intercalate s,
    slugRuns_intercalate fun _ => forall_mem_slugRuns]

end BlockTheme.Text
