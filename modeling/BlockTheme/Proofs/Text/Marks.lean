import BlockTheme.Text.Blank
import Mathlib.Data.List.Infix

/-!
# Marks in texts

A mark is a list of characters that a reader looks for in a text, such as the two ends of a
comment. What these lemmas say is where a mark can stand in a text that is put together from parts:
in one of the parts, wherever a character that is not in the mark stands between them
(`infix_append_cons`), and so in one of the texts of a join (`infix_intercalate`), in one of the
parts of a cut (`infix_splitAt`) and in the text that was escaped (`infix_flatMap`). A cut takes a
join apart again, and each of its texts as well (`splitAt_intercalate`).
-/

namespace BlockTheme.Text

variable {mark : List Char} {c : Char}

/-! ## At a joint -/

/-- No mark stands across a joint whose left side ends outside the mark: it would have to hold that
last character. -/
theorem infix_append_of_last {a b : List Char} (h : ∀ c, a.getLast? = some c → c ∉ mark) :
    mark <:+: a ++ b ↔ mark <:+: a ∨ mark <:+: b := by
  rw [List.infix_append_iff_ne_nil]
  constructor
  · rintro (hleft | hright | ⟨l, r, hl, -, rfl, hsuffix, -⟩)
    · exact Or.inl hleft
    · exact Or.inr hright
    · have hlast : a.getLast? = some (l.getLast hl) := by
        obtain ⟨front, rfl⟩ := hsuffix
        rw [List.getLast?_append_of_ne_nil _ hl, List.getLast?_eq_some_getLast hl]
      exact absurd (List.mem_append_left _ (List.getLast_mem hl)) (h _ hlast)
  · rintro (hleft | hright)
    · exact Or.inl hleft
    · exact Or.inr (Or.inl hright)

/-- No mark stands across a joint whose right side begins outside the mark. -/
theorem infix_append_of_head {a b : List Char} (h : ∀ c, b.head? = some c → c ∉ mark) :
    mark <:+: a ++ b ↔ mark <:+: a ∨ mark <:+: b := by
  have hreverse : mark.reverse <:+: b.reverse ++ a.reverse ↔ _ :=
    infix_append_of_last fun c hc => by
      rw [List.getLast?_reverse] at hc
      simpa using h c hc
  rw [← List.reverse_append, List.reverse_infix, List.reverse_infix, List.reverse_infix] at hreverse
  rw [hreverse, or_comm]

/-- A character that is not in the mark can be passed over. -/
theorem infix_cons (hc : c ∉ mark) (hmark : mark ≠ []) {rest : List Char} :
    mark <:+: c :: rest ↔ mark <:+: rest := by
  have hsingle : ¬mark <:+: [c] := by
    intro h
    obtain ⟨d, hd⟩ := List.exists_mem_of_ne_nil mark hmark
    have hdc : d = c := by simpa using h.subset hd
    exact hc (hdc ▸ hd)
  have hjoint : mark <:+: [c] ++ rest ↔ _ := infix_append_of_last (by simpa using hc)
  rw [List.singleton_append] at hjoint
  simp [hjoint, hsingle]

/-- A mark stands on one side of a character that is not in it. -/
theorem infix_append_cons (hc : c ∉ mark) (hmark : mark ≠ []) {a b : List Char} :
    mark <:+: a ++ c :: b ↔ mark <:+: a ∨ mark <:+: b := by
  rw [infix_append_of_head (by simpa using hc), infix_cons hc hmark]

/-- A text begins with a mark as soon as the part before such a character does, since the mark ends
before the character. -/
theorem prefix_append_cons (hc : c ∉ mark) {a b : List Char} :
    mark <+: a ++ c :: b ↔ mark <+: a := by
  refine ⟨fun hstarts => ?_, fun hstarts => hstarts.trans (List.prefix_append a _)⟩
  rcases List.prefix_or_prefix_of_prefix hstarts (List.prefix_append a (c :: b)) with h | h
  · exact h
  · obtain ⟨more, rfl⟩ := h
    cases more with
    | nil => rw [List.append_nil]
    | cons d more =>
      rw [List.prefix_append_right_inj, List.cons_prefix_cons] at hstarts
      rw [hstarts.1] at hc
      exact absurd (List.mem_append_right a List.mem_cons_self) hc

/-- A text that has none of the characters of a mark has no part in it. -/
theorem infix_append_of_forall_not_mem {a b : List Char} (ha : ∀ c ∈ a, c ∉ mark)
    (hmark : mark ≠ []) : mark <:+: a ++ b ↔ mark <:+: b := by
  induction a with
  | nil => rfl
  | cons c rest ih =>
    rw [List.cons_append, infix_cons (ha c List.mem_cons_self) hmark,
      ih fun d hd => ha d (List.mem_cons_of_mem _ hd)]

/-- A mark is not in a text that lacks one of its characters. -/
theorem not_infix_of_not_mem {text : List Char} (hc : c ∈ mark) (htext : c ∉ text) :
    ¬mark <:+: text := fun h => htext (h.subset hc)

theorem dropStart?_eq_some {start text rest : List Char} :
    dropStart? start text = some rest ↔ text = start ++ rest := by
  induction start generalizing text with
  | nil => simp [dropStart?]
  | cons a start ih =>
    cases text with
    | nil => simp [dropStart?]
    | cons c text =>
      rw [dropStart?]
      by_cases hac : a = c
      · simp [hac, ih]
      · have hca : c ≠ a := fun h => hac h.symm
        simp [hac, hca]

theorem dropStart?_eq_none {start text : List Char} :
    dropStart? start text = none ↔ ¬start <+: text := by
  rw [Option.eq_none_iff_forall_ne_some]
  constructor
  · rintro h ⟨rest, rfl⟩
    exact h rest (dropStart?_eq_some.2 rfl)
  · intro h rest hrest
    exact h ⟨rest, (dropStart?_eq_some.1 hrest).symm⟩

/-! ## Texts put together and cut -/

/-- A mark stands in a join exactly if it stands in one of the texts. What the texts are joined with
is a character that the mark does not have. -/
theorem infix_intercalate (hc : c ∉ mark) (hmark : mark ≠ []) (parts : List (List Char)) :
    mark <:+: [c].intercalate parts ↔ ∃ part ∈ parts, mark <:+: part := by
  -- the separator is outside the mark, so no mark stands across it
  induction parts with
  | nil => simp [hmark]
  | cons part rest ih =>
    cases rest with
    | nil => simp
    | cons next rest =>
      rw [List.intercalate_cons_cons, List.append_assoc, List.singleton_append,
        infix_append_cons hc hmark, ih]
      simp

theorem splitAt_ne_nil {α : Type} [DecidableEq α] (c : α) (text : List α) : splitAt c text ≠ [] := by
  cases text with
  | nil => simp [splitAt]
  | cons x rest =>
    rw [splitAt]
    split
    · simp
    · split <;> simp

theorem intercalate_splitAt (c : Char) (text : List Char) :
    [c].intercalate (splitAt c text) = text := by
  induction text with
  | nil => rfl
  | cons x rest ih =>
    obtain ⟨part, parts, hparts⟩ := List.exists_cons_of_ne_nil (splitAt_ne_nil c rest)
    rw [hparts] at ih
    rw [splitAt]
    by_cases hx : x = c
    · rw [if_pos hx, hparts, List.intercalate_cons_cons, ih, hx]
      simp
    · rw [if_neg hx, hparts]
      cases parts with
      | nil => simpa using ih
      | cons next parts =>
        rw [List.intercalate_cons_cons] at ih
        rw [List.intercalate_cons_cons, List.cons_append, List.cons_append, ih]

theorem splitAt_of_not_mem {text : List Char} (h : c ∉ text) : splitAt c text = [text] := by
  induction text with
  | nil => rfl
  | cons first rest ih =>
    rw [List.mem_cons, not_or] at h
    rw [splitAt, if_neg (Ne.symm h.1), ih h.2]

theorem not_mem_of_mem_splitAt {text part : List Char} (h : part ∈ splitAt c text) : c ∉ part := by
  induction text generalizing part with
  | nil =>
    obtain rfl := List.mem_singleton.1 h
    exact List.not_mem_nil
  | cons x rest ih =>
    obtain ⟨first, parts, hparts⟩ := List.exists_cons_of_ne_nil (splitAt_ne_nil c rest)
    rw [splitAt] at h
    split at h
    · rcases List.mem_cons.1 h with rfl | h
      · exact List.not_mem_nil
      · exact ih h
    -- a character that does not split joins the first part
    · next hx =>
      rw [hparts] at h ih
      rcases List.mem_cons.1 h with rfl | h
      · rw [List.mem_cons, not_or]
        exact ⟨Ne.symm hx, ih List.mem_cons_self⟩
      · exact ih (List.mem_cons_of_mem _ h)

/-- The parts on both sides of a cut are those of the whole text. -/
theorem splitAt_append_cons (c : Char) (a b : List Char) :
    splitAt c (a ++ c :: b) = splitAt c a ++ splitAt c b := by
  induction a with
  | nil => simp [splitAt]
  | cons x a ih =>
    obtain ⟨part, parts, hparts⟩ := List.exists_cons_of_ne_nil (splitAt_ne_nil c a)
    rw [List.cons_append, splitAt, splitAt, ih, hparts]
    by_cases hx : x = c <;> simp [hx]

/-- A join is cut at its joints and wherever its texts are. -/
theorem splitAt_intercalate (c : Char) {texts : List (List Char)} (h : texts ≠ []) :
    splitAt c ([c].intercalate texts) = texts.flatMap (splitAt c) := by
  induction texts with
  | nil => exact absurd rfl h
  | cons text rest ih =>
    cases rest with
    | nil => simp
    | cons next rest =>
      rw [List.intercalate_cons_cons, List.append_assoc, List.singleton_append,
        splitAt_append_cons, ih (List.cons_ne_nil _ _)]
      rfl

/-- Texts with the same parts are the same. -/
theorem splitAt_injective (c : Char) : Function.Injective (splitAt c) := fun a b h => by
  rw [← intercalate_splitAt c a, h, intercalate_splitAt]

/-- A mark stands in a text exactly if it stands in one of the parts of a cut. -/
theorem infix_splitAt (hc : c ∉ mark) (hmark : mark ≠ []) (text : List Char) :
    (∃ part ∈ splitAt c text, mark <:+: part) ↔ mark <:+: text := by
  rw [← infix_intercalate hc hmark, intercalate_splitAt]

/-- A beginning of characters of the mark is kept by an escape that keeps these characters. The rest
of the mark is compared in this way, from any place where it could go on. -/
theorem prefix_flatMap {escape : Char → List Char} (hkeep : ∀ c ∈ mark, escape c = [c])
    (hout : ∀ c ∉ mark, escape c ≠ [] ∧ ∀ d ∈ escape c, d ∉ mark) {start : List Char}
    (hstart : ∀ c ∈ start, c ∈ mark) (text : List Char) :
    start <+: text.flatMap escape ↔ start <+: text := by
  -- on the text, for every part of the mark, since a match goes on in the middle of it
  induction text generalizing start with
  | nil => rfl
  | cons x rest ih =>
    cases start with
    | nil => simp
    | cons s start =>
      obtain ⟨hs, hstart⟩ := List.forall_mem_cons.1 hstart
      rw [List.flatMap_cons]
      by_cases hx : x ∈ mark
      · rw [hkeep x hx, List.singleton_append, List.cons_prefix_cons, List.cons_prefix_cons,
          ih hstart]
      -- what is escaped begins with a character outside the mark, as the character itself is
      · obtain ⟨hne, hd⟩ := hout x hx
        obtain ⟨d, more, hescape⟩ := List.exists_cons_of_ne_nil hne
        have hsd : s ≠ d := fun heq => hd d (by simp [hescape]) (heq ▸ hs)
        have hsx : s ≠ x := fun heq => hx (heq ▸ hs)
        rw [hescape, List.cons_append, List.cons_prefix_cons, List.cons_prefix_cons]
        simp [hsd, hsx]

/-- **A mark stands in an escaped text exactly if it stands in the text**, if the escape keeps the
characters of the mark and makes none of them out of others. -/
theorem infix_flatMap {escape : Char → List Char} (hkeep : ∀ c ∈ mark, escape c = [c])
    (hout : ∀ c ∉ mark, escape c ≠ [] ∧ ∀ d ∈ escape c, d ∉ mark) (hmark : mark ≠ [])
    (text : List Char) : mark <:+: text.flatMap escape ↔ mark <:+: text := by
  induction text with
  | nil => rfl
  | cons x rest ih =>
    rw [List.flatMap_cons]
    by_cases hx : x ∈ mark
    · have hstart := prefix_flatMap hkeep hout (fun _ h => h) (x :: rest)
      rw [List.flatMap_cons, hkeep x hx, List.singleton_append] at hstart
      rw [hkeep x hx, List.singleton_append, List.infix_cons_iff, List.infix_cons_iff, hstart, ih]
    · rw [infix_append_of_forall_not_mem (hout x hx).2 hmark, infix_cons hx hmark, ih]

end BlockTheme.Text
