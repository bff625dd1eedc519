import BlockTheme.Text.Quoted
import Mathlib.Data.List.Basic

/-!
# Tokens of PHP

A reader of PHP goes through a text from left to right and tells code, literals and comments apart
(`Php.read`). Its tokens are the whole text (`Php.writeAll_read`). A literal ends at the first quote
of its kind with no backslash of its own, so the writer of a text has to see to it that this is the
quote that it wrote: the reader finds the tokens of the writer exactly if every literal contains its
words (`Php.read_writeAll_iff`).
-/

namespace BlockTheme.Php

open Text.Quoted (apostrophe doubleQuote backslash)

inductive Token where
  | code (c : Char)
  /-- A literal, by the quote at its two ends and what is between them. -/
  | literal (quote : Char) (content : List Char)
  /-- A comment with its ends. -/
  | comment (text : List Char)
  /-- A literal or a comment that has a beginning and no end. -/
  | unfinished (text : List Char)
  deriving DecidableEq, Repr

/-! ## Reading -/

/-- Goes over one character of a literal: whether the next one stands behind a backslash of its own,
or nothing if the literal is over. -/
def advance (quote : Char) : Bool → Char → Option Bool
  | true, _ => some false
  | false, c => if c = quote then none else some (c = backslash)

def advanceAll (quote : Char) (escaped : Bool) (s : List Char) : Option Bool :=
  s.foldlM (advance quote) escaped

mutual

/-- The tokens of a text that begins in code. -/
def read : List Char → List Token
  | [] => []
  | '/' :: '*' :: rest => readBlock ['*', '/'] rest
  | '/' :: '/' :: rest => readLine ['/', '/'] rest
  | c :: rest =>
    if c = apostrophe ∨ c = doubleQuote then readLiteral c false [] rest
    else if c = '#' then readLine ['#'] rest
    else .code c :: read rest

/-- The tokens of a text that begins in a literal. What was seen of that stands in reverse. -/
def readLiteral (quote : Char) (escaped : Bool) (seen : List Char) : List Char → List Token
  | [] => [.unfinished (quote :: seen.reverse)]
  | c :: rest =>
    match advance quote escaped c with
    | none => .literal quote seen.reverse :: read rest
    | some escaped => readLiteral quote escaped (c :: seen) rest

/-- The tokens of a text that begins in a comment of several lines. -/
def readBlock (seen : List Char) : List Char → List Token
  | [] => [.unfinished seen.reverse]
  | '*' :: '/' :: rest => .comment (seen.reverse ++ ['*', '/']) :: read rest
  | c :: rest => readBlock (c :: seen) rest

/-- The tokens of a text that begins in a comment of one line. -/
def readLine (seen : List Char) : List Char → List Token
  | [] => [.comment seen.reverse]
  | c :: rest =>
    if c = '\n' then .comment seen.reverse :: .code c :: read rest else readLine (c :: seen) rest

end

/-! ## Writing -/

def Token.write : Token → List Char
  | .code c => [c]
  | .literal quote content => quote :: (content ++ [quote])
  | .comment text => text
  | .unfinished text => text

def writeAll (tokens : List Token) : List Char := tokens.flatMap Token.write

/-- No tokens are no text. Writing goes through the tokens from left to right, as these three lemmas
say. -/
@[simp] theorem writeAll_nil : writeAll [] = [] := rfl

@[simp] theorem writeAll_cons (token : Token) (rest : List Token) :
    writeAll (token :: rest) = token.write ++ writeAll rest := rfl

@[simp] theorem writeAll_append (a b : List Token) : writeAll (a ++ b) = writeAll a ++ writeAll b :=
  List.flatMap_append

/-- A literal is over exactly at its quote, unless that stands behind a backslash of its own. -/
theorem advance_eq_none_iff {quote c : Char} {escaped : Bool} :
    advance quote escaped c = none ↔ escaped = false ∧ c = quote := by
  cases escaped <;> simp [advance]

mutual

/-- **The tokens that are read are the text.** Nothing is dropped or added, so that each character
of the text is in exactly one token. By induction on the length of what is left to read, together
with the three functions for what begins inside a literal or a comment. -/
theorem writeAll_read (text : List Char) : writeAll (read text) = text := by
  unfold read
  split
  · rfl
  · next rest => rw [writeAll_readBlock]; rfl
  · next rest => rw [writeAll_readLine]; rfl
  · next c rest _ _ =>
    -- a quote, the hash of a comment, or code
    split_ifs with hquote hline
    · rw [writeAll_readLiteral]; rfl
    · rw [writeAll_readLine, hline]; rfl
    · rw [writeAll_cons, writeAll_read rest]; rfl
termination_by text.length

/-- Inside a literal, with what was seen of it in reverse: writing what is read gives its quote,
what was seen and the rest. Together with the same law outside of literals it says that the scanner
loses nothing. -/
theorem writeAll_readLiteral (quote : Char) (escaped : Bool) (seen text : List Char) :
    writeAll (readLiteral quote escaped seen text) = quote :: (seen.reverse ++ text) := by
  unfold readLiteral
  split
  · simp [Token.write]
  · next c rest =>
    split
    · next hclose =>
      obtain ⟨-, rfl⟩ := advance_eq_none_iff.1 hclose
      rw [writeAll_cons, writeAll_read rest]
      simp [Token.write]
    · rw [writeAll_readLiteral quote _ (c :: seen) rest]
      simp
termination_by text.length

theorem writeAll_readBlock (seen text : List Char) :
    writeAll (readBlock seen text) = seen.reverse ++ text := by
  unfold readBlock
  split
  · simp [Token.write]
  · next rest =>
    rw [writeAll_cons, writeAll_read rest]
    simp [Token.write]
  · next c rest _ =>
    rw [writeAll_readBlock (c :: seen) rest]
    simp
termination_by text.length

/-- Inside a comment of one line, which ends before the line break. -/
theorem writeAll_readLine (seen text : List Char) :
    writeAll (readLine seen text) = seen.reverse ++ text := by
  unfold readLine
  split
  · simp [Token.write]
  · next c rest =>
    split_ifs
    · rw [writeAll_cons, writeAll_cons, writeAll_read rest]
      simp [Token.write]
    · rw [writeAll_readLine (c :: seen) rest]
      simp
termination_by text.length

end

/-! ## Literals -/

/-- Words that a literal holds to their end: no quote among them ends it, and no backslash at their
end takes the quote that does. -/
def Contained (quote : Char) (content : List Char) : Prop :=
  advanceAll quote false content = some false

/-- Words with a quote that ends a literal. -/
def BreaksOut (quote : Char) (content : List Char) : Prop := advanceAll quote false content = none

instance (quote : Char) (content : List Char) : Decidable (Contained quote content) :=
  inferInstanceAs (Decidable (_ = _))

instance (quote : Char) (content : List Char) : Decidable (BreaksOut quote content) :=
  inferInstanceAs (Decidable (_ = _))

variable {quote : Char} {escaped next : Bool} {content : List Char}

/-- Going over a text and another one behind it. If the first one ends the literal, the second one
is not looked at. -/
theorem advanceAll_append (quote : Char) (escaped : Bool) (a b : List Char) :
    advanceAll quote escaped (a ++ b)
      = (advanceAll quote escaped a).bind fun next => advanceAll quote next b :=
  List.foldlM_append

theorem advanceAll_cons (quote : Char) (escaped : Bool) (c : Char) (rest : List Char) :
    advanceAll quote escaped (c :: rest)
      = (advance quote escaped c).bind fun next => advanceAll quote next rest :=
  List.foldlM_cons

/-- Words without quotes of the kind and without backslashes are held by a literal to their end. -/
theorem contained_of_forall (h : ∀ c ∈ content, c ≠ quote ∧ c ≠ backslash) :
    Contained quote content := by
  induction content with
  | nil => rfl
  | cons c rest ih =>
    obtain ⟨⟨hquote, hslash⟩, hrest⟩ := List.forall_mem_cons.1 h
    have hc : advance quote false c = some false := by simp [advance, hquote, hslash]
    rw [Contained, advanceAll_cons, hc]
    exact ih hrest

/-- Words that end a literal are not held by it. There is a third case, of words with a backslash at
their end that takes the next character. -/
theorem BreaksOut.not_contained (h : BreaksOut quote content) : ¬Contained quote content := by
  intro hcontained
  rw [BreaksOut, show advanceAll quote false content = some false from hcontained] at h
  exact absurd h (Option.some_ne_none false)

/-- Words that end a literal or are held by it, with others behind them: the literal holds all of
them exactly if it holds each part. Without the condition two parts could fail together, and yet
each hold by itself: a backslash at the end of one changes what the other one begins with. -/
theorem contained_append_iff {a : List Char} (ha : Contained quote a ∨ BreaksOut quote a)
    (b : List Char) : Contained quote (a ++ b) ↔ Contained quote a ∧ Contained quote b := by
  rcases ha with ha | ha
  · have happend : Contained quote (a ++ b) ↔ Contained quote b := by
      rw [Contained, advanceAll_append, ha]
      rfl
    rw [happend, iff_true_intro ha, true_and]
  · have hout : BreaksOut quote (a ++ b) := by
      rw [BreaksOut, advanceAll_append, ha]
      rfl
    exact iff_of_false hout.not_contained fun h => ha.not_contained h.1

/-- Parts with a separator between them, and a rest behind them, are contained exactly if each of
these is. The hypothesis that every part is settled keeps escapes from crossing a joint. -/
theorem contained_intercalate_append_iff {separator : List Char} (hs : Contained quote separator)
    {parts : List (List Char)} (h : ∀ part ∈ parts, Contained quote part ∨ BreaksOut quote part)
    (rest : List Char) :
    Contained quote (separator.intercalate parts ++ rest)
      ↔ (∀ part ∈ parts, Contained quote part) ∧ Contained quote rest := by
  induction parts with
  | nil => simp
  | cons part more ih =>
    obtain ⟨hpart, hmore⟩ := List.forall_mem_cons.1 h
    -- after the last part there is no separator
    cases more with
    | nil =>
      rw [List.intercalate_singleton, contained_append_iff hpart, List.forall_mem_singleton]
    | cons next more =>
      rw [List.intercalate_cons_cons, List.append_assoc, List.append_assoc,
        contained_append_iff hpart, contained_append_iff (Or.inl hs), ih hmore, iff_true_intro hs,
        true_and, ← and_assoc, ← List.forall_mem_cons]

/-- Words that no quote ends are passed over, and the scanner remembers whether the last of them was
a backslash. -/
theorem readLiteral_append (h : advanceAll quote escaped content = some next)
    (seen rest : List Char) :
    readLiteral quote escaped seen (content ++ rest)
      = readLiteral quote next (content.reverse ++ seen) rest := by
  induction content generalizing escaped seen with
  | nil =>
    obtain rfl : escaped = next := Option.some.inj h
    rfl
  | cons c more ih =>
    rw [advanceAll_cons] at h
    -- no quote ends the words, so there is a next state
    cases hc : advance quote escaped c with
    | none => simp [hc] at h
    | some state =>
      rw [hc, Option.bind_some] at h
      rw [List.cons_append, readLiteral, hc]
      simpa using ih h (c :: seen)

/-- At its quote a literal is over, and the reader is back in code. -/
theorem readLiteral_quote (quote : Char) (seen rest : List Char) :
    readLiteral quote false seen (quote :: rest) = .literal quote seen.reverse :: read rest := by
  rw [readLiteral, advance_eq_none_iff.2 ⟨rfl, rfl⟩]

/-- What a literal is found to hold is no less than what was seen of it. -/
theorem le_length_of_readLiteral {seen text : List Char} {tail : List Token}
    (h : readLiteral quote escaped seen text = .literal quote content :: tail) :
    seen.length ≤ content.length := by
  induction text generalizing escaped seen with
  | nil => simp [readLiteral] at h
  | cons c rest ih =>
    rw [readLiteral] at h
    split at h
    · obtain ⟨hsame, -⟩ := List.cons.inj h
      obtain ⟨-, rfl⟩ := Token.literal.inj hsame
      simp
    · have hle := ih h
      rw [List.length_cons] at hle
      omega

/-- Words with a quote that ends the literal are not read to their end. What the scanner finds is
shorter than what was written. -/
theorem exists_readLiteral (h : advanceAll quote escaped content = none)
    (seen rest : List Char) :
    ∃ found tail, readLiteral quote escaped seen (content ++ rest) = .literal quote found :: tail
      ∧ found.length < seen.length + content.length := by
  induction content generalizing escaped seen with
  | nil => simp [advanceAll] at h
  | cons c more ih =>
    rw [advanceAll_cons] at h
    rw [List.cons_append, readLiteral, List.length_cons]
    cases hc : advance quote escaped c with
    | none => exact ⟨seen.reverse, read (more ++ rest), rfl, by simp⟩
    | some state =>
      rw [hc, Option.bind_some] at h
      obtain ⟨found, tail, hread, hlength⟩ := ih h (c :: seen)
      rw [List.length_cons] at hlength
      exact ⟨found, tail, hread, by omega⟩

/-- Words that a literal contains are read as this literal. -/
theorem Contained.readLiteral (h : Contained quote content) (rest : List Char) :
    readLiteral quote false [] (content ++ quote :: rest) = .literal quote content :: read rest := by
  rw [readLiteral_append h, readLiteral_quote, List.append_nil, List.reverse_reverse]

/-- Only a literal that contains its words is read to its end and no further. Words that end early
would be found shorter, and words that escape the last quote longer. -/
theorem contained_of_readLiteral {rest : List Char} {tail : List Token}
    (h : readLiteral quote false [] (content ++ quote :: rest) = .literal quote content :: tail) :
    Contained quote content := by
  -- the words end the literal, or they do not, and then they may end in a backslash
  cases hstate : advanceAll quote false content with
  | none =>
    obtain ⟨found, after, hread, hlength⟩ := exists_readLiteral hstate [] (quote :: rest)
    rw [hread] at h
    obtain ⟨hliteral, -⟩ := List.cons.inj h
    obtain ⟨-, rfl⟩ := Token.literal.inj hliteral
    simp at hlength
  | some next =>
    cases next with
    | false => exact hstate
    | true =>
      -- the backslash at the end takes the quote, so that more is read than was written
      rw [readLiteral_append hstate, List.append_nil] at h
      have hle : (quote :: content.reverse).length ≤ content.length := le_length_of_readLiteral h
      rw [List.length_cons, List.length_reverse] at hle
      omega

/-! ## Tokens -/

/-- The characters that literals and comments begin with. -/
def marks : List Char := ['/', '#', apostrophe, doubleQuote]

/-- A token that the reader knows by its first characters, and a comment that ends where it should. -/
def Token.Regular : Token → Prop
  | .code c => c ∉ marks
  | .literal quote _ => quote = apostrophe ∨ quote = doubleQuote
  | .comment text => ∃ words, '/' ∉ words ∧ text = '/' :: '*' :: (words ++ ['*', '/'])
  | .unfinished _ => False

/-- A literal that contains its words, or no literal. -/
def Token.Sealed : Token → Prop
  | .literal quote content => Contained quote content
  | _ => True

/-- A comment without a slash is read up to its end: no character before that can be the second one
of a closing. -/
theorem readBlock_append {words : List Char} (h : '/' ∉ words) (seen rest : List Char) :
    readBlock seen (words ++ '*' :: '/' :: rest)
      = .comment (seen.reverse ++ (words ++ ['*', '/'])) :: read rest := by
  induction words generalizing seen with
  | nil => rw [List.nil_append, readBlock]; rfl
  | cons c words ih =>
    rw [List.mem_cons, not_or] at h
    -- no slash comes after a star among the words, so none of their stars ends the comment
    have hnext : ∀ after, c = '*' → words ++ '*' :: '/' :: rest ≠ '/' :: after := by
      intro after _ hstarts
      cases words with
      | nil => simp at hstarts
      | cons d words =>
        obtain ⟨rfl, -⟩ := List.cons.inj hstarts
        exact h.2 List.mem_cons_self
    rw [List.cons_append, readBlock, ih h.2]
    · simp
    · exact hnext

/-- A character that begins neither a literal nor a comment is code. -/
theorem read_code {c : Char} (h : c ∉ marks) (rest : List Char) :
    read (c :: rest) = .code c :: read rest := by
  obtain ⟨hslash, hline, hsingle, hdouble⟩ : c ≠ '/' ∧ c ≠ '#' ∧ c ≠ apostrophe ∧ c ≠ doubleQuote := by
    simpa [marks] using h
  rw [read, if_neg (not_or.2 ⟨hsingle, hdouble⟩), if_neg hline]
  · exact fun after hc => absurd hc hslash
  · exact fun after hc => absurd hc hslash

theorem read_quote (h : quote = apostrophe ∨ quote = doubleQuote) (rest : List Char) :
    read (quote :: rest) = readLiteral quote false [] rest := by
  have hslash : quote ≠ '/' := by
    rintro rfl
    exact absurd h (by decide)
  rw [read, if_pos h]
  · exact fun after hc => absurd hc hslash
  · exact fun after hc => absurd hc hslash

/-- A literal that was written is read from its quote on. -/
theorem read_literal (h : (Token.literal quote content).Regular) (rest : List Char) :
    read (Token.write (.literal quote content) ++ rest)
      = readLiteral quote false [] (content ++ quote :: rest) := by
  rw [Token.write, List.cons_append, read_quote h, List.append_assoc, List.singleton_append]

/-- A regular token that is sealed is found in front of whatever text. A character of code is
regular if neither literals nor comments begin with it; and only literals have to be sealed. -/
theorem read_append {token : Token} (h : token.Regular) (hsealed : token.Sealed)
    (rest : List Char) : read (token.write ++ rest) = token :: read rest := by
  cases token with
  | code c => exact read_code h rest
  | literal quote content =>
    rw [read_literal h]
    exact hsealed.readLiteral rest
  | comment text =>
    obtain ⟨words, hwords, rfl⟩ := h
    have hread : read (Token.write (.comment ('/' :: '*' :: (words ++ ['*', '/']))) ++ rest)
        = readBlock ['*', '/'] (words ++ '*' :: '/' :: rest) := by
      simp [Token.write, read]
    rw [hread, readBlock_append hwords]
    rfl
  | unfinished text => exact h.elim

/-- A regular token that is found where it was written is sealed. -/
theorem sealed_of_read {token : Token} (h : token.Regular) {rest : List Char} {tail : List Token}
    (hread : read (token.write ++ rest) = token :: tail) : token.Sealed := by
  -- only a literal can be anything but sealed
  cases token with
  | literal quote content =>
    rw [read_literal h] at hread
    exact contained_of_readLiteral hread
  | code c => exact trivial
  | comment text => exact trivial
  | unfinished text => exact trivial

variable {tokens : List Token}

/-- Regular tokens that are sealed are found one after the other, in front of whatever text. -/
theorem read_writeAll_append (h : ∀ token ∈ tokens, token.Regular)
    (hsealed : ∀ token ∈ tokens, token.Sealed) (rest : List Char) :
    read (writeAll tokens ++ rest) = tokens ++ read rest := by
  induction tokens with
  | nil => rfl
  | cons token more ih =>
    obtain ⟨htoken, hmore⟩ := List.forall_mem_cons.1 h
    obtain ⟨htoken', hmore'⟩ := List.forall_mem_cons.1 hsealed
    rw [writeAll_cons, List.append_assoc, read_append htoken htoken', ih hmore hmore']
    rfl

/-- **The reader finds the tokens that were written exactly if every literal contains its words.**
If one does not, the reader is still in it where the program wrote code. -/
theorem read_writeAll_iff (h : ∀ token ∈ tokens, token.Regular) :
    read (writeAll tokens) = tokens ↔ ∀ token ∈ tokens, token.Sealed := by
  constructor
  · intro hread
    -- the first token is found, so it is sealed, so the others are found behind it
    induction tokens with
    | nil => simp
    | cons token more ih =>
      obtain ⟨htoken, hmore⟩ := List.forall_mem_cons.1 h
      rw [writeAll_cons] at hread
      have hsealed : token.Sealed := sealed_of_read htoken hread
      rw [read_append htoken hsealed] at hread
      exact List.forall_mem_cons.2 ⟨hsealed, ih hmore (List.cons.inj hread).2⟩
  · intro hsealed
    have hread := read_writeAll_append h hsealed []
    rwa [List.append_nil, read, List.append_nil] at hread

/-! ## Tokens of strings -/

/-- The tokens of a string that is code. -/
def code (s : String) : List Token := s.toList.map .code

/-- A string between apostrophes. -/
def literal (s : String) : List Token := [.literal apostrophe s.toList]

/-- A comment of several lines. -/
def comment (words : String) : List Token :=
  [.comment ('/' :: '*' :: (words.toList ++ ['*', '/']))]

/-- The text of tokens. -/
def text (tokens : List Token) : String := String.ofList (writeAll tokens)

/-- The text of tokens is what is written for them. With the next lemmas texts and tokens can be
exchanged: code is its string, a literal has its apostrophes, a comment its ends. -/
@[simp] theorem toList_text (tokens : List Token) : (text tokens).toList = writeAll tokens := by
  rw [text, String.toList_ofList]

@[simp] theorem text_append (a b : List Token) : text (a ++ b) = text a ++ text b := by
  rw [text, writeAll_append, String.ofList_append]
  rfl

@[simp] theorem text_code (s : String) : text (code s) = s := by
  have hwrite : writeAll (s.toList.map Token.code) = s.toList := by
    rw [writeAll, List.flatMap_map]
    exact List.flatMap_singleton' _
  rw [text, code, hwrite, String.ofList_toList]

/-- A literal is written between apostrophes, without any escaping of its words. -/
@[simp] theorem text_literal (s : String) : text (literal s) = "'" ++ s ++ "'" := by
  rw [← String.toList_inj, toList_text, String.toList_append, String.toList_append]
  simp [literal, Token.write, apostrophe]

@[simp] theorem text_comment (words : String) : text (comment words) = "/*" ++ words ++ "*/" := by
  rw [← String.toList_inj, toList_text, String.toList_append, String.toList_append]
  simp [comment, Token.write]

variable {s : String}

/-- A string without the characters that begin literals and comments is regular code. -/
theorem regular_code (h : ∀ c ∈ s.toList, c ∉ marks) : ∀ token ∈ code s, token.Regular :=
  List.forall_mem_map.2 h

/-- A literal is regular. Whether it contains its words is another question (`sealed_literal_iff`).
-/
theorem regular_literal (s : String) : ∀ token ∈ literal s, token.Regular :=
  List.forall_mem_singleton.2 (Or.inl rfl)

/-- A comment without a slash in its words is regular. -/
theorem regular_comment (h : '/' ∉ s.toList) : ∀ token ∈ comment s, token.Regular :=
  List.forall_mem_singleton.2 ⟨s.toList, h, rfl⟩

@[simp] theorem sealed_code_iff : (∀ token ∈ code s, token.Sealed) ↔ True :=
  iff_true_intro (List.forall_mem_map.2 fun _ _ => trivial)

/-- A literal is sealed exactly if it contains its words. This is the one condition that a writer
has to see to. -/
@[simp] theorem sealed_literal_iff :
    (∀ token ∈ literal s, token.Sealed) ↔ Contained apostrophe s.toList :=
  List.forall_mem_singleton

@[simp] theorem sealed_comment_iff : (∀ token ∈ comment s, token.Sealed) ↔ True :=
  iff_true_intro (List.forall_mem_singleton.2 trivial)

end BlockTheme.Php
