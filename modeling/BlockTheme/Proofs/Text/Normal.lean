import BlockTheme.Proofs.Text.Margins
import BlockTheme.Proofs.Text.Words

/-!
# Normalized texts

Normalizing a text leaves its words with single spaces between them (`normalize_eq`). So two texts
have the same normalized spelling exactly if they have the same words (`normalizeText_eq_iff`), and
this spelling is a canonical one for a list of words (`canonical_normalizeText`).
-/

namespace BlockTheme.Text

/-- Blanks in front of and behind a text that begins and ends with other characters are all that
trimming takes off. -/
theorem trim_append {p : Char → Bool} {front middle back : List Char}
    (hfront : ∀ c ∈ front, p c = true) (hback : ∀ c ∈ back, p c = true)
    (hhead : ∀ c ∈ middle.head?, p c = false) (hlast : ∀ c ∈ middle.getLast?, p c = false) :
    trim p (front ++ middle ++ back) = middle := by
  rw [trim, List.append_assoc, List.dropWhile_append_of_pos hfront]
  -- with nothing in the middle both margins are taken from the front
  cases middle with
  | nil =>
    have hnone : back.dropWhile p = [] := List.dropWhile_eq_nil_iff.2 hback
    rw [List.nil_append, hnone]
    rfl
  | cons c rest =>
    -- the middle stops the front, and seen from behind the back
    have hstays : (c :: rest ++ back).dropWhile p = c :: rest ++ back := by
      rw [List.cons_append, List.dropWhile_cons_of_neg (by simp [hhead c rfl])]
    have hmargin : ∀ d ∈ back.reverse, p d = true := fun d hd => hback d (List.mem_reverse.1 hd)
    rw [hstays, List.reverse_append, List.dropWhile_append_of_pos hmargin]
    obtain ⟨d, hd⟩ := Option.isSome_iff_exists.1 (by simp : (c :: rest).getLast?.isSome = true)
    obtain ⟨more, hmore⟩ := List.getLast?_eq_some_iff.1 hd
    rw [hmore, List.reverse_concat, List.dropWhile_cons_of_neg (by simp [hlast d hd]),
      ← List.reverse_concat, List.reverse_reverse]

/-- A join of words begins and ends with characters that are not blank, so there is nothing to trim.
-/
theorem not_isBlank_of_mem_ends {ws : List (List Char)}
    (h : ∀ w ∈ ws, w ≠ [] ∧ ∀ c ∈ w, isBlank c = false) :
    (∀ c ∈ ([' '].intercalate ws).head?, isBlank c = false)
      ∧ ∀ c ∈ ([' '].intercalate ws).getLast?, isBlank c = false := by
  -- on the words: the first character is the first word's, and the last one comes from the words
  -- after it
  induction ws with
  | nil => simp
  | cons w rest ih =>
    obtain ⟨⟨hne, hw⟩, hmore⟩ := List.forall_mem_cons.1 h
    cases rest with
    | nil =>
      rw [List.intercalate_singleton]
      exact ⟨fun c hc => hw c (List.mem_of_mem_head? hc),
        fun c hc => hw c (List.mem_of_getLast? hc)⟩
    | cons next rest =>
      have hrest : [' '].intercalate (next :: rest) ≠ [] := by
        have hnext := (hmore next List.mem_cons_self).1
        cases rest <;> simp [hnext]
      rw [List.intercalate_cons_cons, List.append_assoc]
      constructor
      · rw [List.head?_append_of_ne_nil _ hne]
        exact fun c hc => hw c (List.mem_of_mem_head? hc)
      · rw [List.getLast?_append_of_ne_nil _ (by simp), List.getLast?_append_of_ne_nil _ hrest]
        exact (ih hmore).2

/-- What collapsing leaves of a text: its words with single spaces between them, and a space at each
end where there were blanks. -/
structure IsCollapsed (s collapsed front back : List Char) : Prop where
  eq : collapsed = front ++ [' '].intercalate (words s) ++ back
  blank_front : ∀ c ∈ front, isBlank c = true
  blank_back : ∀ c ∈ back, isBlank c = true
  front_eq : words s ≠ [] → front = if startsWith isBlank s then [' '] else []

/-- A collapsed text is its words with single spaces between them, and with what is left of the
blanks at either end. By induction on the text: a blank in front belongs to the front, and a
character is a word of its own or makes the first word longer. -/
theorem exists_isCollapsed (s : List Char) :
    ∃ front back, IsCollapsed s (collapse s) front back := by
  have hspace : isBlank ' ' = true := rfl
  induction s with
  | nil => exact ⟨[], [], rfl, by simp, by simp, fun _ => rfl⟩
  | cons c r ih =>
    obtain ⟨front, back, ih⟩ := ih
    by_cases hc : isBlank c = true
    · have hwords : words (c :: r) = words r := by rw [words, if_pos hc]
      rw [collapse, if_pos hc]
      by_cases hr : startsWith isBlank r = true
      · -- the space of this run of blanks is there already
        rw [if_pos hr]
        exact ⟨front, back, by rw [hwords, ih.eq], ih.blank_front, ih.blank_back, fun hne => by
          rw [ih.front_eq (hwords ▸ hne), if_pos hr, startsWith, if_pos hc]⟩
      · rw [if_neg hr]
        refine ⟨' ' :: front, back, by rw [hwords, ih.eq]; rfl,
          List.forall_mem_cons.2 ⟨hspace, ih.blank_front⟩, ih.blank_back, fun hne => ?_⟩
        rw [ih.front_eq (hwords ▸ hne), if_neg hr, startsWith, if_pos hc]
    · have hstart : startsWith isBlank (c :: r) = false := by simpa [startsWith] using hc
      rw [collapse, if_neg hc]
      by_cases hr : startsWith (!isBlank ·) r = true
      · -- the character stands in front of the first word of the rest
        obtain ⟨w, ws, hw⟩ := List.exists_cons_of_ne_nil (words_ne_nil hr)
        have hwords : words (c :: r) = (c :: w) :: ws := by rw [words, if_neg hc, if_pos hr, hw]
        have hblank : startsWith isBlank r = false := by
          cases r with
          | nil => rfl
          | cons d r => simpa [startsWith] using hr
        obtain rfl : front = [] := by
          rw [ih.front_eq (by simp [hw]), hblank]
          rfl
        refine ⟨[], back, ?_, by simp, ih.blank_back, fun _ => by rw [hstart]; rfl⟩
        rw [ih.eq, hwords, hw]
        cases ws <;> simp
      -- the character is a word of its own, and blanks follow it, or nothing
      · have hwords : words (c :: r) = [c] :: words r := by rw [words, if_neg hc, if_neg hr]
        cases hrest : words r with
        | nil =>
          refine ⟨[], front ++ back, ?_, by simp, ?_, fun _ => by rw [hstart]; rfl⟩
          · rw [ih.eq, hwords, hrest]
            simp
          · exact fun d hd => (List.mem_append.1 hd).elim (ih.blank_front d) (ih.blank_back d)
        | cons w ws =>
          -- the words of the rest come after a blank
          have hblank : startsWith isBlank r = true := by
            cases r with
            | nil => simp [words] at hrest
            | cons d r => simpa [startsWith] using hr
          have hfront : front = [' '] := by rw [ih.front_eq (by simp [hrest]), if_pos hblank]
          refine ⟨[], back, ?_, by simp, ih.blank_back, fun _ => by rw [hstart]; rfl⟩
          rw [ih.eq, hwords, hrest, hfront, List.intercalate_cons_cons]
          simp

/-- **Normalizing leaves the words with single spaces between them.** Runs of blanks are collapsed
first, and then what is left of them is trimmed at both ends. -/
theorem normalize_eq (s : List Char) : normalize s = [' '].intercalate (words s) := by
  obtain ⟨front, back, h⟩ := exists_isCollapsed s
  obtain ⟨hhead, hlast⟩ := not_isBlank_of_mem_ends fun w hw => forall_mem_words (s := s) hw
  rw [normalize, strip, h.eq, trim_append h.blank_front h.blank_back hhead hlast]

theorem words_normalize (s : List Char) : words (normalize s) = words s := by
  rw [normalize_eq, words_intercalate fun w hw => forall_mem_words hw]

theorem normalizeText_eq (s : String) : normalizeText s = " ".intercalate (wordsOf s) := by
  rw [← String.toList_inj, normalizeText, String.toList_ofList, String.toList_intercalate,
    normalize_eq, wordsOf, List.map_map]
  simp [Function.comp_def]

theorem wordsOf_normalizeText (s : String) : wordsOf (normalizeText s) = wordsOf s := by
  rw [wordsOf, wordsOf, normalizeText, String.toList_ofList, words_normalize]

/-- **Texts are normalized to the same spelling exactly if they have the same words.** So the
spelling stands for the words. -/
theorem normalizeText_eq_iff {s t : String} :
    normalizeText s = normalizeText t ↔ wordsOf s = wordsOf t := by
  constructor
  · intro h
    rw [← wordsOf_normalizeText s, h, wordsOf_normalizeText]
  · intro h
    rw [normalizeText_eq, normalizeText_eq, h]

theorem normalizeText_eq_empty_iff {s : String} : normalizeText s = "" ↔ wordsOf s = [] :=
  normalizeText_eq_iff (t := "")

theorem normalizeText_normalizeText (s : String) :
    normalizeText (normalizeText s) = normalizeText s :=
  normalizeText_eq_iff.2 (wordsOf_normalizeText s)

/-- **A normalized text is the canonical spelling of its words.** It is the maximal runs of
characters that are not blank, with single spaces between them. So normalizing it again changes
nothing, two texts are normalized to the same exactly if they have the same words, and nothing is
left of a text exactly if it has no word. -/
theorem canonical_normalizeText (s : String) :
    (∀ ws, wordsOf s = ws ↔ HasWords s.toList (ws.map String.toList))
      ∧ (∀ c, isBlank c = true ↔ c.toNat ∈ blankCodes)
      ∧ normalizeText s = " ".intercalate (wordsOf s)
      ∧ normalizeText (normalizeText s) = normalizeText s
      ∧ (∀ t, normalizeText s = normalizeText t ↔ wordsOf s = wordsOf t)
      ∧ (normalizeText s = "" ↔ wordsOf s = []) :=
  ⟨fun _ => wordsOf_eq_iff, fun _ => isBlank_iff, normalizeText_eq s, normalizeText_normalizeText s,
    fun _ => normalizeText_eq_iff, normalizeText_eq_empty_iff⟩

example : normalizeText "\u001c Our\u0085\u00a0 team\n" = "Our team" := by decide +kernel

end BlockTheme.Text
