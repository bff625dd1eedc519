import BlockTheme.Proofs.Php.Tokens
import BlockTheme.Proofs.Text.Words

/-!
# Functions that a PHP text declares

The name of a function stands behind the word `function` in the code of a text, outside its literals
and comments (`Php.declared`). Code without that word declares nothing
(`Php.declaredIn_silent_append`), so that the declarations of a text can be read off its parts.
-/

namespace BlockTheme.Php

/-! ## Names -/

/-- Letters, digits and underscores, of which the first is no digit. -/
def IsIdentifier (name : List Char) : Prop :=
  (∃ c ∈ name.head?, c.isAlpha = true ∨ c = '_') ∧ ∀ c ∈ name, c.isAlphanum = true ∨ c = '_'

/-! ## Declarations -/

/-- The code of a text, with a blank for everything else. -/
def codeOf (tokens : List Token) : List Char :=
  tokens.flatMap fun
    | .code c => [c]
    | _ => [' ']

/-- The word that declares a function. -/
def keyword : List Char := "function".toList

/-- The names that words declare: what stands behind the keyword up to the bracket. -/
def declaredNames : List (List Char) → List (List Char)
  | word :: name :: rest =>
    if word = keyword then name.takeWhile (· != '(') :: declaredNames rest
    else declaredNames (name :: rest)
  | _ => []

/-- The names that code declares. -/
def declaredIn (code : List Char) : List (List Char) := declaredNames (Text.words code)

/-- The names of the functions that a text declares. -/
def declared (text : List Char) : List (List Char) := declaredIn (codeOf (read text))

@[simp] theorem codeOf_append (a b : List Token) : codeOf (a ++ b) = codeOf a ++ codeOf b :=
  List.flatMap_append

@[simp] theorem codeOf_code (s : String) : codeOf (code s) = s.toList := by
  rw [codeOf, code, List.flatMap_map]
  exact List.flatMap_singleton' _

@[simp] theorem codeOf_literal (s : String) : codeOf (literal s) = [' '] := rfl

@[simp] theorem codeOf_comment (words : String) : codeOf (comment words) = [' '] := rfl

/-- Words without the one that declares declare nothing. -/
theorem declaredNames_append {front rest : List (List Char)} (h : keyword ∉ front) :
    declaredNames (front ++ rest) = declaredNames rest := by
  induction front with
  | nil => rfl
  | cons word front ih =>
    rw [List.mem_cons, not_or] at h
    have hword : word ≠ keyword := Ne.symm h.1
    rw [List.cons_append, ← ih h.2]
    cases front ++ rest with
    | nil => rfl
    | cons name more => rw [declaredNames, if_neg hword]

/-- Code that declares nothing, before whatever code: the keyword is none of its words, and it ends in
a blank. -/
def Silent (code : List Char) : Prop :=
  keyword ∉ Text.words code ∧ Text.startsWith Text.isBlank code.reverse = true

instance (code : List Char) : Decidable (Silent code) := inferInstanceAs (Decidable (_ ∧ _))

/-- Silent code ends in a blank, so that its last word does not run into what follows, and the words
of both parts can be taken one by one. -/
theorem words_append_of_silent {code : List Char} (h : Silent code) (rest : List Char) :
    Text.words (code ++ rest) = Text.words code ++ Text.words rest := by
  have hlast := h.2
  cases hreverse : code.reverse with
  | nil => simp [hreverse, Text.startsWith] at hlast
  | cons c front =>
    rw [hreverse] at hlast
    have hc : Text.isBlank c = true := hlast
    obtain rfl : code = front.reverse ++ [c] := by
      rw [← List.reverse_reverse code, hreverse, List.reverse_cons]
    rw [List.append_assoc, List.singleton_append, Text.words_append_cons hc,
      Text.words_append_cons hc, Text.words, List.append_nil]

theorem Silent.append {a b : List Char} (ha : Silent a) (hb : Silent b) : Silent (a ++ b) := by
  refine ⟨?_, ?_⟩
  · rw [words_append_of_silent ha, List.mem_append, not_or]
    exact ⟨ha.1, hb.1⟩
  · have hlast := hb.2
    rw [List.reverse_append]
    cases hreverse : b.reverse with
    | nil => simp [hreverse, Text.startsWith] at hlast
    | cons c front =>
      rw [hreverse] at hlast
      exact hlast

/-- What follows declares what it would declare alone. -/
theorem declaredIn_silent_append {code : List Char} (h : Silent code) (rest : List Char) :
    declaredIn (code ++ rest) = declaredIn rest := by
  rw [declaredIn, words_append_of_silent h, declaredNames_append h.1, declaredIn]

/-- The head of a function declares its name, whether that is an identifier or not. The name is what
stands between the keyword and the bracket. -/
theorem declaredIn_head {name : List Char} (hname : ∀ c ∈ name, Text.isBlank c = false ∧ c ≠ '(')
    (rest : List Char) :
    declaredIn ("function ".toList ++ (name ++ ("() \x7b\n".toList ++ rest)))
      = name :: declaredIn rest := by
  -- the head is three words: the keyword, the name with its brackets, and the brace
  have hkeyword : ∀ after, Text.words ("function ".toList ++ after) = keyword :: Text.words after :=
    fun after => Text.words_append_cons (by decide) keyword after
  have hword : Text.words ((name ++ ['(', ')']) ++ (" \x7b\n".toList ++ rest))
      = (name ++ ['(', ')']) :: Text.words (" \x7b\n".toList ++ rest) := by
    refine Text.words_append (by simp) (List.forall_mem_append.2 ⟨?_, by decide⟩) rfl
    exact fun c hc => (hname c hc).1
  have hbrace : Text.words (" \x7b\n".toList ++ rest) = ['\x7b'] :: Text.words rest :=
    Text.words_append_cons (by decide) [' ', '\x7b'] rest
  have hcut : name ++ ("() \x7b\n".toList ++ rest)
      = (name ++ ['(', ')']) ++ (" \x7b\n".toList ++ rest) := by
    rw [List.append_assoc]
    rfl
  -- the name ends at the bracket
  have htake : (name ++ ['(', ')']).takeWhile (· != '(') = name := by
    rw [List.takeWhile_append_of_pos fun c hc => by simpa using (hname c hc).2]
    simp
  have hbare : keyword ∉ [['\x7b']] := by decide
  have hskip : declaredNames (['\x7b'] :: Text.words rest) = declaredIn rest :=
    declaredNames_append hbare
  rw [declaredIn, hkeyword, hcut, hword, hbrace, declaredNames, if_pos rfl, htake, hskip]

end BlockTheme.Php
