import BlockTheme.Proofs.Text.Marks
import BlockTheme.Text.Escape
import Mathlib.Logic.Function.Basic

/-!
# Entities

The characters that mean something in markup are written as entities. They can be replaced in the
whole text one after the other, since no later pass touches what an earlier one wrote
(`passes_eq_flatMap`). An entity is known by its ampersand, which is itself written as one, so one
pass in the other direction gives the text back (`read_flatMap`). Character data and attribute
values are written in this way (`escapes_data_attributeValue`).
-/

namespace BlockTheme.Text.Escape

/-! ## Replacing texts -/

/-- Texts that are replaced, each with what is written in its place. None of them is empty. -/
abbrev Table := List (List Char × List Char)

/-- The first entry of a table that a text begins with. -/
def Table.entry? (table : Table) (s : List Char) : Option (List Char × List Char) :=
  table.find? fun entry => entry.1.isPrefixOf s

/-- Replaces texts in one pass from left to right. What was written is not looked at again. -/
def replace (table : Table) : List Char → List Char
  | [] => []
  | c :: r =>
    match table.entry? (c :: r) with
    | some entry => entry.2 ++ replace table (r.drop (entry.1.length - 1))
    | none => c :: replace table r
termination_by s => s.length

variable {table : Table} {old new rest : List Char} {c : Char}

@[simp] theorem replace_nil (table : Table) : replace table [] = [] := by
  rw [replace]

/-- A text of the table is replaced, and the rest is looked at from behind it. -/
theorem replace_of_entry?_eq_some (hold : old ≠ [])
    (h : table.entry? (old ++ rest) = some (old, new)) :
    replace table (old ++ rest) = new ++ replace table rest := by
  obtain ⟨first, more, rfl⟩ := List.exists_cons_of_ne_nil hold
  rw [List.cons_append] at h ⊢
  rw [replace, h]
  simp

/-- A character at which none of them begins is left. -/
theorem replace_of_entry?_eq_none (h : table.entry? (c :: rest) = none) :
    replace table (c :: rest) = c :: replace table rest := by
  rw [replace, h]

/-- A character is replaced wherever it stands. A table with one entry for one character leaves
nothing to choose. -/
theorem replace_single (c : Char) (new s : List Char) :
    replace [([c], new)] s = s.flatMap fun d => if d = c then new else [d] := by
  induction s with
  | nil => simp
  | cons d rest ih =>
    rw [List.flatMap_cons, ← ih]
    by_cases hd : d = c
    · subst hd
      have hentry : Table.entry? [([d], new)] ([d] ++ rest) = some ([d], new) := by
        simp [Table.entry?]
      have hreplaced := replace_of_entry?_eq_some (List.cons_ne_nil d []) hentry
      rw [List.singleton_append] at hreplaced
      rw [if_pos rfl, hreplaced]
    · have hentry : Table.entry? [([c], new)] (d :: rest) = none := by
        simp [Table.entry?, Ne.symm hd]
      rw [if_neg hd, replace_of_entry?_eq_none hentry, List.singleton_append]

/-! ## Characters written as entities -/

/-- The characters that are written as entities, in the order in which they are replaced. -/
abbrev Entities := List (Char × List Char)

namespace Entities

variable (entities : Entities)

/-- What a character is written as. -/
def written (c : Char) : List Char := (entities.lookup c).getD [c]

/-- Replaces one character after the other in the whole text. -/
def passes (s : List Char) : List Char :=
  entities.foldl (fun s entry => replace [([entry.1], entry.2)] s) s

/-- Replaces the entities by the characters that they stand for. -/
def read (s : List Char) : List Char := replace (entities.map fun entry => (entry.2, [entry.1])) s

/-- Entities that are told from each other and from all other text. -/
structure IsEscaping : Prop where
  /-- The ampersand, with which entities begin, is written as one itself. -/
  ampersand : '&' ∈ entities.map Prod.fst
  head : ∀ entry ∈ entities, entry.2.head? = some '&'
  tail : ∀ entry ∈ entities, '&' ∉ entry.2.tail
  /-- No entity is the beginning of another one. -/
  apart : ∀ entry ∈ entities, ∀ other ∈ entities, entry.2 <+: other.2 → entry = other
  /-- What was written in an earlier pass is left alone. -/
  kept : entities.Pairwise fun earlier later => later.1 ∉ earlier.2
  /-- Entities are spelled without the other characters. -/
  plain : ∀ entry ∈ entities, ∀ other ∈ entities, other.1 ∈ entry.2 → other.1 = '&'

variable {entities}

/-- A character is written as itself or as its entity. -/
theorem written_cases (entities : Entities) (c : Char) :
    (c ∉ entities.map Prod.fst ∧ entities.written c = [c])
      ∨ (c, entities.written c) ∈ entities := by
  unfold written
  cases hlookup : entities.lookup c with
  | none =>
    refine Or.inl ⟨fun hmem => ?_, rfl⟩
    obtain ⟨entry, hentry, rfl⟩ := List.mem_map.1 hmem
    simpa using List.lookup_eq_none_iff.1 hlookup entry hentry
  | some entity =>
    obtain ⟨front, back, rfl, -⟩ := List.lookup_eq_some_iff.1 hlookup
    exact Or.inr (by simp)

/-- A character that is not in the table is written as it is. -/
theorem written_eq_self (h : c ∉ entities.map Prod.fst) : entities.written c = [c] :=
  (written_cases entities c).elim And.right fun hmem => absurd (List.mem_map_of_mem hmem) h

theorem flatMap_written_eq_self {s : List Char} (h : ∀ c ∈ s, c ∉ entities.map Prod.fst) :
    s.flatMap entities.written = s := by
  rw [List.flatMap_congr fun c hc => written_eq_self (h c hc), List.flatMap_singleton']

/-- **The passes come to writing each character on its own**, because none of them replaces anything
in what an earlier one wrote. -/
theorem passes_eq_flatMap (hkept : entities.Pairwise fun earlier later => later.1 ∉ earlier.2)
    (s : List Char) : entities.passes s = s.flatMap entities.written := by
  -- on the table: the first pass writes nothing that a later one replaces
  induction entities generalizing s with
  | nil => exact (flatMap_written_eq_self fun _ _ => List.not_mem_nil).symm
  | cons first others ih =>
    obtain ⟨c, entity⟩ := first
    obtain ⟨hfirst, hothers⟩ := List.pairwise_cons.1 hkept
    have hlater : ∀ text, others.foldl (fun s entry => replace [([entry.1], entry.2)] s) text
        = text.flatMap (written others) := ih hothers
    rw [passes, List.foldl_cons, hlater, replace_single, List.flatMap_assoc]
    refine List.flatMap_congr fun d _ => ?_
    -- the character of this pass, or one that is left to the later ones
    by_cases hd : d = c
    · have hentity : ∀ x ∈ entity, x ∉ others.map Prod.fst := by
        intro x hx hmem
        obtain ⟨other, hother, rfl⟩ := List.mem_map.1 hmem
        exact hfirst other hother hx
      rw [if_pos hd, flatMap_written_eq_self hentity]
      simp [written, hd]
    · rw [if_neg hd, List.flatMap_singleton]
      simp [written, List.lookup_cons, beq_eq_false_iff_ne.2 hd]

namespace IsEscaping

variable (h : entities.IsEscaping)
include h

/-- Every entity begins with an ampersand, and has no other one in it. -/
theorem exists_name {entry : Char × List Char} (hentry : entry ∈ entities) :
    ∃ name, entry.2 = '&' :: name ∧ '&' ∉ name := by
  obtain ⟨name, hname⟩ := List.head?_eq_some_iff.1 (h.head entry hentry)
  have htail := h.tail entry hentry
  rw [hname] at htail
  exact ⟨name, hname, htail⟩

/-- Of the characters with entities only the ampersand is left. -/
theorem not_mem_flatMap {d : Char} (hd : d ∈ entities.map Prod.fst) (hampersand : d ≠ '&')
    (s : List Char) : d ∉ s.flatMap entities.written := by
  intro hmem
  obtain ⟨c, -, hc⟩ := List.mem_flatMap.1 hmem
  obtain ⟨other, hother, rfl⟩ := List.mem_map.1 hd
  rcases written_cases entities c with ⟨hnone, hself⟩ | hentry
  · rw [hself, List.mem_singleton] at hc
    exact hnone (hc ▸ hd)
  · exact hampersand (h.plain _ hentry other hother hc)

/-- **Every ampersand is the beginning of an entity.** Characters that are written as themselves are
no ampersands, as the table has an entry for these. -/
theorem exists_entity {s front back : List Char}
    (hsplit : s.flatMap entities.written = front ++ '&' :: back) :
    ∃ entry ∈ entities, entry.2 <+: '&' :: back := by
  induction s generalizing front with
  | nil => simp at hsplit
  | cons c rest ih =>
    rw [List.flatMap_cons] at hsplit
    rcases List.append_eq_append_iff.1 hsplit with ⟨more, -, hrest⟩ | ⟨more, hwritten, hmore⟩
    -- the ampersand stands in the rest
    · exact ih hrest
    · cases more with
      | nil =>
        have hrest : rest.flatMap entities.written = [] ++ '&' :: back := hmore.symm
        exact ih hrest
      | cons x more =>
        obtain ⟨rfl, rfl⟩ := List.cons.inj hmore
        rcases written_cases entities c with ⟨hnone, hself⟩ | hentry
        · -- the ampersand itself is not written as it is
          have hmem : '&' ∈ [c] := hself ▸ hwritten ▸ by simp
          exact absurd h.ampersand (List.mem_singleton.1 hmem ▸ hnone)
        · refine ⟨_, hentry, ?_⟩
          obtain ⟨name, hname, hplain⟩ := h.exists_name hentry
          cases front with
          | nil => exact ⟨_, by rw [hwritten]; rfl⟩
          -- it stands in what the first character is written as, and there only at the beginning
          | cons y front =>
            rw [hwritten, List.cons_append] at hname
            exact absurd ((List.cons.inj hname).2 ▸ by simp) hplain

/-- A text that begins with an entity begins with no other one. So reading entities back in one pass
takes the one that was written. -/
theorem entry?_of_mem {entry : Char × List Char} (hentry : entry ∈ entities) (rest : List Char) :
    Table.entry? (entities.map fun entry => (entry.2, [entry.1])) (entry.2 ++ rest)
      = some (entry.2, [entry.1]) := by
  rw [Table.entry?]
  cases hfind : (entities.map fun entry => (entry.2, [entry.1])).find?
      fun other => other.1.isPrefixOf (entry.2 ++ rest) with
  | none =>
    have hmissed := List.find?_eq_none.1 hfind _ (List.mem_map_of_mem hentry)
    simp at hmissed
  | some found =>
    obtain ⟨other, hother, rfl⟩ := List.mem_map.1 (List.mem_of_find?_eq_some hfind)
    have hbegins : other.2 <+: entry.2 ++ rest := by simpa using List.find?_some hfind
    rcases List.prefix_or_prefix_of_prefix hbegins (List.prefix_append entry.2 rest) with hle | hle
    · rw [h.apart other hother entry hentry hle]
    · rw [h.apart entry hentry other hother hle]

theorem entry?_of_ne {c : Char} (hc : c ≠ '&') (rest : List Char) :
    Table.entry? (entities.map fun entry => (entry.2, [entry.1])) (c :: rest) = none := by
  refine List.find?_eq_none.2 fun found hfound => ?_
  obtain ⟨entry, hentry, rfl⟩ := List.mem_map.1 hfound
  obtain ⟨name, hname, -⟩ := h.exists_name hentry
  simp [hname, Ne.symm hc]

/-- **One pass in the other direction gives the text back.** By induction on the text: what a
character is written as is read at once, and no entity begins within another one. -/
theorem read_flatMap (s : List Char) : entities.read (s.flatMap entities.written) = s := by
  unfold read
  induction s with
  | nil => simp
  | cons c rest ih =>
    rw [List.flatMap_cons]
    rcases written_cases entities c with ⟨hnone, hself⟩ | hentry
    · have hc : c ≠ '&' := fun heq => hnone (heq ▸ h.ampersand)
      rw [hself, List.singleton_append, replace_of_entry?_eq_none (h.entry?_of_ne hc _), ih]
    · have hne : entities.written c ≠ [] := by
        obtain ⟨name, hname : entities.written c = '&' :: name, -⟩ := h.exists_name hentry
        simp [hname]
      rw [replace_of_entry?_eq_some hne (h.entry?_of_mem hentry _), ih, List.singleton_append]

end IsEscaping

/-- A way of writing texts in which some characters are written as entities, and no text is lost. -/
structure Escapes (entities : Entities) (write : String → String) : Prop where
  passes : ∀ s, (write s).toList = entities.passes s.toList
  flatMap : ∀ s, (write s).toList = s.toList.flatMap entities.written
  /-- Every ampersand begins an entity. -/
  entity : ∀ s front back, (write s).toList = front ++ '&' :: back →
    ∃ entry ∈ entities, entry.2 <+: '&' :: back
  read : ∀ s, String.ofList (entities.read (write s).toList) = s
  injective : Function.Injective write
  append : ∀ s t, write (s ++ t) = write s ++ write t

/-- A table that is an escaping makes a writer escape, if the writer goes by the table. What a table
has to have for this is decidable, and both tables have it. -/
theorem IsEscaping.escapes (h : entities.IsEscaping) {write : String → String}
    (hwrite : ∀ s, (write s).toList = s.toList.flatMap entities.written) :
    entities.Escapes write := by
  have hread : ∀ s, String.ofList (entities.read (write s).toList) = s := by
    intro s
    rw [hwrite, h.read_flatMap, String.ofList_toList]
  refine ⟨fun s => ?_, hwrite, fun s front back hsplit => ?_, hread, fun s t heq => ?_,
    fun s t => ?_⟩
  · rw [hwrite, passes_eq_flatMap h.kept]
  · exact h.exists_entity ((hwrite s).symm.trans hsplit)
  · rw [← hread s, heq, hread]
  · rw [← String.toList_inj, String.toList_append, hwrite, hwrite, hwrite, String.toList_append,
      List.flatMap_append]

/-! ## Character data and attribute values -/

/-- The entities of character data. -/
def ofData : Entities := [('&', "&amp;".toList), ('<', "&lt;".toList), ('>', "&gt;".toList)]

/-- The entities of attribute values, which stand between double quotes. -/
def ofAttribute : Entities :=
  [('&', "&amp;".toList), (Char.ofNat 34, "&quot;".toList), ('<', "&lt;".toList),
    ('>', "&gt;".toList)]

theorem isEscaping_ofData : ofData.IsEscaping := by
  constructor <;> decide

theorem isEscaping_ofAttribute : ofAttribute.IsEscaping := by
  constructor <;> decide

theorem dataChar_eq_written (c : Char) : dataChar c = ofData.written c := by
  unfold dataChar
  split
  · decide
  · decide
  · decide
  · next hampersand hless hgreater =>
    refine (written_eq_self ?_).symm
    simpa [ofData] using ⟨hampersand, hless, hgreater⟩

/-- Values of attributes are written by the second table, which has the double quote as well. -/
theorem attributeChar_eq_written (c : Char) : attributeChar c = ofAttribute.written c := by
  unfold attributeChar
  split
  · next hquote =>
    obtain rfl : c = Char.ofNat 34 := by rw [← hquote, Char.ofNat_toNat]
    decide
  · next hquote =>
    have hne : (c == Char.ofNat 34) = false := by
      refine beq_eq_false_iff_ne.2 fun heq => hquote ?_
      rw [heq]
      rfl
    rw [dataChar_eq_written]
    simp only [written, ofData, ofAttribute, List.lookup_cons, hne]

end Entities

open Entities in
/-- **Escaping is safe, and nothing is lost.** Character data hold no angle brackets, and attribute
values no double quote either. Both are written as if each character that has an entity had been
replaced in the whole text, one after the other, which comes to writing each character on its own.
Every ampersand begins one of the entities, and replacing these in one pass gives the text back. -/
theorem escapes_data_attributeValue :
    ofData.Escapes data ∧ ofAttribute.Escapes attributeValue
      ∧ (∀ s, '<' ∉ (data s).toList ∧ '>' ∉ (data s).toList)
      ∧ ∀ s, '<' ∉ (attributeValue s).toList ∧ '>' ∉ (attributeValue s).toList
        ∧ Char.ofNat 34 ∉ (attributeValue s).toList := by
  -- what the program writes, character by character, is what the table of the escape says
  have hdata : ∀ s, (data s).toList = s.toList.flatMap ofData.written := by
    intro s
    rw [data, String.toList_ofList]
    exact List.flatMap_congr fun c _ => dataChar_eq_written c
  have hattribute : ∀ s, (attributeValue s).toList = s.toList.flatMap ofAttribute.written := by
    intro s
    rw [attributeValue, String.toList_ofList]
    exact List.flatMap_congr fun c _ => attributeChar_eq_written c
  refine ⟨isEscaping_ofData.escapes hdata, isEscaping_ofAttribute.escapes hattribute,
    fun s => ?_, fun s => ?_⟩
  · have hclean := fun {d} => isEscaping_ofData.not_mem_flatMap (d := d)
    rw [hdata]
    exact ⟨hclean (by decide) (by decide) _, hclean (by decide) (by decide) _⟩
  · have hclean := fun {d} => isEscaping_ofAttribute.not_mem_flatMap (d := d)
    rw [hattribute]
    exact ⟨hclean (by decide) (by decide) _, hclean (by decide) (by decide) _,
      hclean (by decide) (by decide) _⟩

end BlockTheme.Text.Escape
