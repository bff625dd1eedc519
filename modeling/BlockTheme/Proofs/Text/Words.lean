import BlockTheme.Text.Blank
import Mathlib.Data.List.Dedup
import Mathlib.Data.List.Induction

/-!
# Words, each once

What the two list-makers of `Text.Blank` promise. `distinct` keeps the first copy of every value
and nothing else (`distinct_eq_eraseDups`, `mem_distinct`, `nodup_distinct`). `words` finds the
maximal runs of characters that are not blank, from left to right (`words_eq_iff`), so a word is
not empty and has no blank in it (`forall_mem_words`). A text that is cut at a blank has the words
of both parts (`words_append_cons`), and words that are put together with spaces are found again
(`wordsOf_intercalate`).
-/

namespace BlockTheme.Text

variable {α : Type}

/-! ## Each value once

`distinct` is a left fold over the list with the values that were seen as its state. The facts are
proved of the fold from any state, and read off for the empty one. -/

section Distinct

variable [BEq α] [LawfulBEq α]

/-- One step of `distinct`: a value that was seen is passed over. -/
def keepFirst (seen : List α) (x : α) : List α := if seen.contains x then seen else seen ++ [x]

omit [LawfulBEq α] in
/-- Deduplication goes through the list once and keeps what it has not seen. -/
theorem distinct_eq_foldl (xs : List α) : distinct xs = xs.foldl keepFirst [] := rfl

theorem keepFirst_of_mem {seen : List α} {x : α} (h : x ∈ seen) : keepFirst seen x = seen := by
  simp [keepFirst, h]

/-- A new value is added at the end, so that first copies stay in their order. -/
theorem keepFirst_of_not_mem {seen : List α} {x : α} (h : x ∉ seen) :
    keepFirst seen x = seen ++ [x] := by
  simp [keepFirst, h]

/-- What `distinct` makes of a list after the values of `seen`: those and the new ones of the list,
each once. -/
theorem foldl_keepFirst (xs seen : List α) :
    xs.foldl keepFirst seen = seen ++ (xs.removeAll seen).eraseDups := by
  induction xs generalizing seen with
  | nil => simp [List.removeAll]
  | cons x xs ih =>
    rw [List.foldl_cons, ih]
    by_cases hx : x ∈ seen
    · rw [keepFirst_of_mem hx]
      simp [List.removeAll, hx]
    -- the new value is removed from the rest of the list, along with those that were seen before
    · have htail : xs.removeAll (seen ++ [x]) = (xs.removeAll seen).filter fun b => !b == x := by
        simp only [List.removeAll, List.filter_filter]
        refine List.filter_congr fun b _ => ?_
        by_cases hb : b = x
        · simp [hb]
        · simp [hb]
      have hhead : (x :: xs).removeAll seen = x :: xs.removeAll seen := by
        simp [List.removeAll, hx]
      rw [keepFirst_of_not_mem hx, hhead, List.eraseDups_cons, htail]
      simp

/-- `distinct` is the standard library's deduplication, which keeps first copies. -/
theorem distinct_eq_eraseDups (xs : List α) : distinct xs = xs.eraseDups := by
  rw [distinct_eq_foldl, foldl_keepFirst]
  simp [List.removeAll]

theorem mem_foldl_keepFirst {x : α} {xs seen : List α} :
    x ∈ xs.foldl keepFirst seen ↔ x ∈ seen ∨ x ∈ xs := by
  induction xs generalizing seen with
  | nil => simp
  | cons y ys ih =>
    rw [List.foldl_cons, ih, List.mem_cons]
    by_cases hy : y ∈ seen
    · rw [keepFirst_of_mem hy]
      grind
    · rw [keepFirst_of_not_mem hy]
      grind

/-- The list has the same values with and without copies. -/
@[simp] theorem mem_distinct {x : α} {xs : List α} : x ∈ distinct xs ↔ x ∈ xs := by
  rw [distinct_eq_foldl, mem_foldl_keepFirst]
  simp

theorem nodup_foldl_keepFirst {xs seen : List α} (h : seen.Nodup) :
    (xs.foldl keepFirst seen).Nodup := by
  induction xs generalizing seen with
  | nil => exact h
  | cons y ys ih =>
    rw [List.foldl_cons]
    apply ih
    by_cases hy : y ∈ seen
    · rwa [keepFirst_of_mem hy]
    · rw [keepFirst_of_not_mem hy]
      exact List.nodup_append.2 ⟨h, by simp, by grind⟩

theorem nodup_distinct (xs : List α) : (distinct xs).Nodup := by
  rw [distinct_eq_foldl]
  exact nodup_foldl_keepFirst List.nodup_nil

/-- One more value at the end is new, or it makes no difference. Runs that collect values one at a
time are followed with this. -/
theorem distinct_concat (xs : List α) (x : α) :
    distinct (xs ++ [x]) = if x ∈ xs then distinct xs else distinct xs ++ [x] := by
  rw [distinct_eq_foldl, List.foldl_concat, ← distinct_eq_foldl]
  by_cases hx : x ∈ xs
  · rw [if_pos hx, keepFirst_of_mem (mem_distinct.2 hx)]
  · rw [if_neg hx, keepFirst_of_not_mem fun hin => hx (mem_distinct.1 hin)]

/-- What is kept stands in the list, in its order. -/
theorem distinct_sublist (xs : List α) : (distinct xs).Sublist xs := by
  induction xs using List.reverseRecOn with
  | nil => exact List.Sublist.refl _
  | append_singleton xs x ih =>
    rw [distinct_concat]
    split
    · exact ih.trans (List.sublist_append_left xs [x])
    · exact ih.append (List.Sublist.refl [x])

end Distinct

/-! ## Words -/

/-- The code points of the blanks. -/
def blankCodes : List Nat :=
  [9, 10, 11, 12, 13, 28, 29, 30, 31, 32, 0x85, 0xa0, 0x1680, 0x2000, 0x2001, 0x2002, 0x2003,
    0x2004, 0x2005, 0x2006, 0x2007, 0x2008, 0x2009, 0x200a, 0x2028, 0x2029, 0x202f, 0x205f, 0x3000]

/-- The blanks in one list, to decide questions about all of them at once. -/
theorem isBlank_iff {c : Char} : isBlank c = true ↔ c.toNat ∈ blankCodes := by
  simp only [isBlank, Bool.or_eq_true, Bool.and_eq_true, decide_eq_true_eq, beq_iff_eq]
  simp only [blankCodes, List.mem_cons, List.not_mem_nil, or_false]
  omega

/-- A word in front of what does not continue it is the first word. What follows may be a blank or
the end of the text. -/
theorem words_append {w rest : List Char} (hne : w ≠ []) (hw : ∀ c ∈ w, isBlank c = false)
    (hrest : startsWith (!isBlank ·) rest = false) : words (w ++ rest) = w :: words rest := by
  induction w with
  | nil => exact absurd rfl hne
  | cons c more ih =>
    obtain ⟨hc, hmore⟩ := List.forall_mem_cons.1 hw
    rw [List.cons_append, words, hc]
    cases more with
    | nil => simp [hrest]
    | cons d more =>
      have hd : isBlank d = false := hmore d List.mem_cons_self
      have hstarts : startsWith (!isBlank ·) (d :: more ++ rest) = true := by
        simp [startsWith, hd]
      rw [hstarts, ih (by simp) hmore]
      simp

/-- A text that begins with a character of a word has a word. -/
theorem words_ne_nil {s : List Char} (h : startsWith (!isBlank ·) s = true) : words s ≠ [] := by
  cases s with
  | nil => exact absurd h (by simp [startsWith])
  | cons c rest =>
    have hc : isBlank c = false := by simpa [startsWith] using h
    rw [words, if_neg (by simp [hc])]
    split_ifs
    · split <;> exact List.cons_ne_nil _ _
    · exact List.cons_ne_nil _ _

/-- Blanks in front of a text belong to none of its words. -/
theorem words_append_of_isBlank {gap : List Char} (hgap : ∀ c ∈ gap, isBlank c = true)
    (s : List Char) : words (gap ++ s) = words s := by
  induction gap with
  | nil => rfl
  | cons c gap ih =>
    obtain ⟨hc, hmore⟩ := List.forall_mem_cons.1 hgap
    rw [List.cons_append, words, if_pos hc, ih hmore]

/-! ## Words as maximal runs

A text consists of its words and of the gaps around them. `HasWords` says which words these are
without running through the text: the gaps are blank, the words are not, and each word goes on for
as long as it can. What holds of the words of a text is proved by induction over it. -/

/-- The maximal runs of characters of a text that are not blank, from left to right. -/
inductive HasWords : List Char → List (List Char) → Prop
  | blank {gap : List Char} (hgap : ∀ c ∈ gap, isBlank c = true) : HasWords gap []
  -- a gap before a word may be empty only at the beginning, for the rest begins with a blank
  | word {gap w rest : List Char} {ws : List (List Char)} (hgap : ∀ c ∈ gap, isBlank c = true)
      (hne : w ≠ []) (hw : ∀ c ∈ w, isBlank c = false) (hend : ∀ c ∈ rest.head?, isBlank c = true)
      (hrest : HasWords rest ws) : HasWords (gap ++ w ++ rest) (w :: ws)

section HasWords

variable {c : Char} {s w : List Char} {ws : List (List Char)}

/-- What the words of a text are is decided by the text: by induction on the runs, there is only one
way to cut it. -/
theorem HasWords.words_eq (h : HasWords s ws) : words s = ws := by
  induction h with
  | @blank gap hgap =>
    have hnone : words (gap ++ []) = words [] := words_append_of_isBlank hgap []
    rwa [List.append_nil] at hnone
  | @word gap w rest ws hgap hne hw hend _ ih =>
    have hstop : startsWith (!isBlank ·) rest = false := by
      cases rest with
      | nil => rfl
      | cons d rest => simpa [startsWith] using hend d rfl
    rw [List.append_assoc, words_append_of_isBlank hgap, words_append hne hw hstop, ih]

/-- A blank in front makes the first gap longer. -/
theorem HasWords.cons_blank (hc : isBlank c = true) (h : HasWords s ws) : HasWords (c :: s) ws := by
  cases h with
  | blank hgap => exact .blank (List.forall_mem_cons.2 ⟨hc, hgap⟩)
  | @word gap w rest ws hgap hne hw hend hrest =>
    have hlonger : ∀ d ∈ c :: gap, isBlank d = true := List.forall_mem_cons.2 ⟨hc, hgap⟩
    exact .word hlonger hne hw hend hrest

/-- A character in front of a gap is a word of its own. -/
theorem HasWords.cons_word (hc : isBlank c = false) (hend : ∀ d ∈ s.head?, isBlank d = true)
    (h : HasWords s ws) : HasWords (c :: s) ([c] :: ws) := by
  show HasWords ([] ++ [c] ++ s) ([c] :: ws)
  exact .word (by simp) (by simp) (by simpa using hc) hend h

/-- A character in front of a word belongs to this word. -/
theorem HasWords.cons_longer (hc : isBlank c = false) (hs : startsWith (!isBlank ·) s = true)
    (h : HasWords s (w :: ws)) : HasWords (c :: s) ((c :: w) :: ws) := by
  cases h with
  | @word gap _ rest _ hgap hne hw hend hrest =>
    cases gap with
    | nil =>
      have hlonger : ∀ d ∈ c :: w, isBlank d = false := List.forall_mem_cons.2 ⟨hc, hw⟩
      show HasWords ([] ++ (c :: w) ++ rest) ((c :: w) :: ws)
      exact .word hgap (List.cons_ne_nil c w) hlonger hend hrest
    | cons d gap => simp [startsWith, hgap d List.mem_cons_self] at hs

/-- Every text has the words that are found in it. By induction on the text, with the three lemmas
above for what a character in front does. -/
theorem hasWords_words (s : List Char) : HasWords s (words s) := by
  induction s with
  | nil => exact .blank (by simp)
  | cons c r ih =>
    rw [words]
    split_ifs with hc hr
    · exact ih.cons_blank hc
    · obtain ⟨w, ws, hwords⟩ := List.exists_cons_of_ne_nil (words_ne_nil hr)
      rw [hwords] at ih ⊢
      exact ih.cons_longer (by simpa using hc) hr
    · have hend : ∀ d ∈ r.head?, isBlank d = true := by
        cases r with
        | nil => simp
        | cons d r => simpa [startsWith] using hr
      exact ih.cons_word (by simpa using hc) hend

/-- **The words that are found in a text are its maximal runs of characters that are not blank.**
The one on the right is a relation that says nothing about how words are looked for. -/
theorem words_eq_iff : words s = ws ↔ HasWords s ws :=
  ⟨fun h => h ▸ hasWords_words s, HasWords.words_eq⟩

theorem HasWords.forall_mem (h : HasWords s ws) :
    ∀ w ∈ ws, w ≠ [] ∧ ∀ c ∈ w, isBlank c = false := by
  induction h with
  | blank hgap => simp
  | word hgap hne hw hend hrest ih => exact List.forall_mem_cons.2 ⟨⟨hne, hw⟩, ih⟩

theorem HasWords.subset (h : HasWords s ws) : ∀ w ∈ ws, w ⊆ s := by
  induction h with
  | blank hgap => simp
  | @word gap w rest ws hgap hne hw hend hrest ih =>
    have hfirst : w ⊆ gap ++ w ++ rest := by simp
    exact List.forall_mem_cons.2
      ⟨hfirst, fun v hv => List.Subset.trans (ih v hv) (List.subset_append_right _ _)⟩

/-- A word has a character, and none of its characters is blank. -/
theorem forall_mem_words (h : w ∈ words s) : w ≠ [] ∧ ∀ c ∈ w, isBlank c = false :=
  (hasWords_words s).forall_mem w h

/-- A word stands in the text. -/
theorem subset_of_mem_words (h : w ∈ words s) : w ⊆ s := (hasWords_words s).subset w h

end HasWords

/-- The strings that are found in a text are its maximal runs of characters that are not blank. -/
theorem wordsOf_eq_iff {s : String} {ws : List String} :
    wordsOf s = ws ↔ HasWords s.toList (ws.map String.toList) := by
  rw [wordsOf, ← words_eq_iff]
  constructor
  · rintro rfl
    simp [Function.comp_def]
  · intro h
    rw [h]
    simp [Function.comp_def]

theorem ne_empty_of_mem_wordsOf {s w : String} (h : w ∈ wordsOf s) : w ≠ "" := by
  obtain ⟨v, hv, rfl⟩ := List.mem_map.1 h
  have hne := (forall_mem_words hv).1
  intro h0
  exact hne (by simpa using congrArg String.toList h0)

/-! ## Texts that are put together from words -/

/-- A text that is cut at a blank has the words of both parts. Everything about words of joined
texts comes from this. -/
theorem words_append_cons {c : Char} (hc : isBlank c = true) (s rest : List Char) :
    words (s ++ c :: rest) = words s ++ words rest := by
  induction s with
  | nil => simp [words, hc]
  | cons d s ih =>
    rw [List.cons_append, words, words]
    by_cases hd : isBlank d = true
    · rw [if_pos hd, if_pos hd, ih]
    -- whether the first character stands before its word or is a word of its own is decided by what
    -- comes next, and behind the cut that is a blank
    · have hstarts : startsWith (!isBlank ·) (s ++ c :: rest) = startsWith (!isBlank ·) s := by
        cases s with
        | nil => simp [startsWith, hc]
        | cons e s => rfl
      rw [if_neg hd, if_neg hd, hstarts, ih]
      split_ifs with hmore
      · cases hwords : words s with
        | nil => exact absurd hwords (words_ne_nil hmore)
        | cons w ws => rfl
      · rfl

/-- Words with single spaces between them are the words of the text. So normalizing a text once more
changes nothing. -/
theorem words_intercalate {ws : List (List Char)}
    (h : ∀ w ∈ ws, w ≠ [] ∧ ∀ c ∈ w, isBlank c = false) : words ([' '].intercalate ws) = ws := by
  induction ws with
  | nil => rfl
  | cons w rest ih =>
    obtain ⟨⟨hne, hw⟩, hmore⟩ := List.forall_mem_cons.1 h
    cases rest with
    | nil =>
      rw [List.intercalate_singleton]
      have hword : words (w ++ []) = [w] := words_append hne hw rfl
      rwa [List.append_nil] at hword
    | cons next rest =>
      have hspace : ∀ r, words (' ' :: r) = words r := fun _ => rfl
      rw [List.intercalate_cons_cons, List.append_assoc, words_append hne hw rfl,
        List.singleton_append, hspace, ih hmore]

/-- Texts with single spaces between them have the words of all of them. -/
theorem words_join (texts : List (List Char)) :
    words ([' '].intercalate texts) = texts.flatMap words := by
  induction texts with
  | nil => rfl
  | cons text rest ih =>
    cases rest with
    | nil => simp
    | cons next rest =>
      rw [List.intercalate_cons_cons, List.append_assoc, List.singleton_append,
        words_append_cons rfl, ih]
      exact List.flatMap_cons.symm

/-- A string that is a word of some text. -/
def IsWord (name : String) : Prop := name ≠ "" ∧ ∀ c ∈ name.toList, isBlank c = false

theorem isWord_of_mem_wordsOf {s name : String} (h : name ∈ wordsOf s) : IsWord name := by
  obtain ⟨w, hw, rfl⟩ := List.mem_map.1 h
  refine ⟨ne_empty_of_mem_wordsOf h, fun c hc => ?_⟩
  rw [String.toList_ofList] at hc
  exact (forall_mem_words hw).2 c hc

/-- Joining strings with spaces joins their words. -/
theorem wordsOf_join (texts : List String) :
    wordsOf (" ".intercalate texts) = texts.flatMap wordsOf := by
  have hspace : " ".toList = [' '] := rfl
  rw [wordsOf, String.toList_intercalate, hspace, words_join, List.flatMap_map, List.map_flatMap]
  rfl

/-- Words that are joined with spaces are found again, which is why a class attribute can be read
back. -/
theorem wordsOf_intercalate {names : List String} (h : ∀ name ∈ names, IsWord name) :
    wordsOf (" ".intercalate names) = names := by
  have hwords : ∀ w ∈ names.map String.toList, w ≠ [] ∧ ∀ c ∈ w, isBlank c = false := by
    rw [List.forall_mem_map]
    exact fun name hname => ⟨by simpa using (h name hname).1, (h name hname).2⟩
  have hspace : " ".toList = [' '] := rfl
  rw [wordsOf, String.toList_intercalate, hspace, words_intercalate hwords, List.map_map]
  simp

end BlockTheme.Text
