import BlockTheme.Proofs.Json.Numbers
import BlockTheme.Proofs.Json.Parts

/-!
# Reading written values

A value that is written without blanks is strict JSON exactly if its numbers are finite
(`Json.isStrict_compact_iff`), and it always stands on one line (`Json.not_mem_compact`). The reader
gives it back, if every object in it has each key once and its integers are not too long
(`Json.read?_compact`).
-/

namespace BlockTheme.Json

open Text (hexDigit hexDigit? hexDigits)

/-! ## Strings -/

/-- What the reader takes for an escape is one in the grammar, too: its letter is one of the eight.
-/
theorem mem_escapeLetters {c d : Char} (h : escaped? d = some c) : d ∈ escapeLetters := by
  unfold escaped? at h
  split at h
  · decide
  · decide
  · decide
  · decide
  · decide
  · decide
  -- the last branch is for the quote and the backslash, which stand for themselves
  · split at h
    · next hself =>
      rcases Bool.or_eq_true_iff.1 hself with hquote | hslash
      · have hd : d = Char.ofNat 34 := Char.toNat_inj.1 (of_decide_eq_true hquote)
        simp [escapeLetters, hd]
      · have hd : d = Char.ofNat 92 := Char.toNat_inj.1 (of_decide_eq_true hslash)
        simp [escapeLetters, hd]
    · simp at h

/-- The escape of a code unit, digit by digit. -/
theorem escapeUnit_eq (n : Nat) :
    escapeUnit n = [Char.ofNat 92, 'u', hexDigit (n / 16 / 16 / 16 % 16),
      hexDigit (n / 16 / 16 % 16), hexDigit (n / 16 % 16), hexDigit (n % 16)] := rfl

/-- Whatever a character becomes inside a string is one character of a string in the grammar:
itself, a letter behind a backslash, or a code of four digits. -/
theorem isCharacter_escapeChar (c : Char) : IsCharacter (escapeChar false c) := by
  rcases escapeChar_cases c with ⟨htext, hcontrol, hquote, hslash⟩ | ⟨d, -, hd, htext⟩ | ⟨-, htext⟩
  · rw [htext]
    exact .plain hcontrol hquote hslash
  · rw [htext]
    exact .escape (mem_escapeLetters hd)
  · have hdigits : ∀ k < 16, (hexDigit? (hexDigit k)).isSome = true := by decide
    have hdigit : ∀ k, (hexDigit? (hexDigit (k % 16))).isSome = true :=
      fun k => hdigits _ (Nat.mod_lt k (by decide))
    -- what is left are control characters, each with four digits
    rw [htext, escapeUnit_eq]
    refine .unit ?_
    simp only [List.forall_mem_cons]
    exact ⟨hdigit _, hdigit _, hdigit _, hdigit _, List.forall_mem_nil _⟩

/-- **A string is written as strict JSON**, whatever characters are in it: quotes, backslashes and
control characters are escaped. -/
theorem isString_writeString (s : String) : IsString (writeString false s) := by
  have hcharacters : ∀ chars : List Char, IsCharacters (chars.flatMap (escapeChar false)) := by
    intro chars
    induction chars with
    | nil => exact .nil
    | cons c rest ih => exact .append (isCharacter_escapeChar c) ih
  exact .mk (hcharacters s.toList)

/-- A letter after a backslash is read as the character that it stands for. -/
theorem readString_escape {c d : Char} (h : escaped? d = some c) (rest : List Char) :
    readString (Char.ofNat 92 :: d :: rest)
      = (readString rest).map fun found => (c :: found.1, found.2) := by
  show readString ('\\' :: d :: rest) = _
  -- the escape of a code unit, which the reader looks for first, has another letter
  have hletter : d ≠ 'u' := by
    have hnone : escaped? 'u' = none := by decide
    rintro rfl
    simp [hnone] at h
  rw [readString, h]
  exact fun _ _ _ _ _ hd _ => hletter hd

/-- The escape of a code unit of a control character is read as the character. There are 32 of them,
and none is half of a pair. -/
theorem readString_unit {c : Char} (h : c.toNat < 32) (rest : List Char) :
    readString (escapeUnit c.toNat ++ rest)
      = (readString rest).map fun found => (c :: found.1, found.2) := by
  -- there are only 32 of these, so that one can go through them all
  have hunits : ∀ n < 32, unit? (hexDigit (n / 16 / 16 / 16 % 16)) (hexDigit (n / 16 / 16 % 16))
      (hexDigit (n / 16 % 16)) (hexDigit (n % 16)) = some n := by decide
  have hhigh : ¬(0xd800 ≤ c.toNat ∧ c.toNat < 0xdc00) := by omega
  have hlow : ¬(0xdc00 ≤ c.toNat ∧ c.toNat < 0xe000) := by omega
  rw [escapeUnit_eq]
  show readString ('\\' :: 'u' :: _ :: _ :: _ :: _ :: rest) = _
  rw [readString, hunits _ h]
  dsimp only
  rw [if_neg hhigh, if_neg hlow, Char.ofNat_toNat]

/-- **What stands for a character is read as the character.** One case for each way of writing it.
-/
theorem readString_escapeChar (c : Char) (rest : List Char) :
    readString (escapeChar false c ++ rest)
      = (readString rest).map fun found => (c :: found.1, found.2) := by
  -- one of the three things that the writer makes of a character
  rcases escapeChar_cases c with ⟨htext, hcontrol, hquote, hslash⟩ | ⟨d, -, hd, htext⟩
    | ⟨hcontrol, htext⟩
  · have hc : c ≠ '\\' := by
      rintro rfl
      exact hslash rfl
    rw [htext, List.singleton_append, readString, if_neg hquote, if_neg (by omega)]
    · exact fun _ _ _ _ _ heq _ => hc heq
    · exact fun _ _ heq _ => hc heq
  · rw [htext]
    exact readString_escape hd rest
  · rw [htext]
    exact readString_unit hcontrol rest

/-- **A string is read as it was written.** By induction on its characters, up to the quote behind
it. -/
theorem readString_writeString (s : List Char) (rest : List Char) :
    readString (s.flatMap (escapeChar false) ++ Char.ofNat 34 :: rest) = some (s, rest) := by
  induction s with
  | nil =>
    -- the quote is no backslash, so the reader gets to the branch for it
    have hquote : Char.ofNat 34 ≠ '\\' := by decide
    rw [List.flatMap_nil, List.nil_append, readString]
    · rfl
    · exact fun _ _ _ _ _ heq _ => hquote heq
    · exact fun _ _ heq _ => hquote heq
  | cons c chars ih =>
    rw [List.flatMap_cons, List.append_assoc, readString_escapeChar, ih]
    rfl

/-! ## Written values -/

/-- An array is written as its items, without the comma before the first one. -/
theorem writeAt_array (level : Nat) (items : List Json) :
    writeAt flat level (.array items)
      = '[' :: ((writeItems flat (level + 1) items).tail ++ [']']) := by
  cases items with
  | nil => rfl
  | cons v rest => rw [writeAt_array_cons, writeItems_cons, List.tail_cons]

/-- An object is written as its members, without the comma before the first one. -/
theorem writeAt_object (level : Nat) (members : List (String × Json)) :
    writeAt flat level (.object members)
      = Char.ofNat 123 :: ((writeMembers flat (level + 1) members).tail ++ [Char.ofNat 125]) := by
  cases members with
  | nil => rfl
  | cons member rest =>
    obtain ⟨key, v⟩ := member
    rw [writeAt_object_cons, writeMembers_cons, List.tail_cons]
    simp only [List.append_assoc, List.cons_append]

/-! ## Strictness -/

mutual

/-- **A value with finite numbers is written as strict JSON.** By induction on the value, along with
items and members. -/
theorem strict_writeAt :
    ∀ (v : Json) (level : Nat), (∀ n ∈ numbers v, n.IsFinite) → Strict .value (writeAt flat level v)
  | .null, _, _ => .word (w := "null") (by simp)
  | .bool true, _, _ => .word (w := "true") (by simp)
  | .bool false, _, _ => .word (w := "false") (by simp)
  | .number n, _, h => .number (isNumber_writeNumber (h n (by simp)))
  | .string s, _, _ => .string (isString_writeString s)
  | .array [], _, _ => .emptyArray (s := []) (List.forall_mem_nil _)
  | .object [], _, _ => .emptyObject (s := []) (List.forall_mem_nil _)
  | .array (v :: rest), level, h => by
    rw [writeAt_array]
    exact .array (strict_writeItems (v :: rest) (level + 1) h (by simp))
  | .object (member :: rest), level, h => by
    rw [writeAt_object]
    exact .object (strict_writeMembers (member :: rest) (level + 1) h (by simp))

/-- The items of an array, as they stand between the brackets: separated by commas, with none at the
ends. -/
theorem strict_writeItems :
    ∀ (items : List Json) (level : Nat), (∀ n ∈ numbersOfItems items, n.IsFinite) → items ≠ [] →
      Strict .items (writeItems flat level items).tail
  | [], _, _, hne => absurd rfl hne
  | v :: rest, level, h, _ => by
    obtain ⟨hv, hrest⟩ := List.forall_mem_append.1 h
    have hvalue := strict_writeAt v level hv
    rw [writeItems_cons, List.tail_cons]
    cases rest with
    | nil => exact .lastItem (a := []) (b := []) (List.forall_mem_nil _) hvalue (List.forall_mem_nil _)
    | cons w more =>
      have hitems := strict_writeItems (w :: more) level hrest (by simp)
      exact .item (a := []) (b := []) (List.forall_mem_nil _) hvalue (List.forall_mem_nil _) hitems

theorem strict_writeMembers :
    ∀ (members : List (String × Json)) (level : Nat),
      (∀ n ∈ numbersOfMembers members, n.IsFinite) → members ≠ [] →
        Strict .members (writeMembers flat level members).tail
  | [], _, _, hne => absurd rfl hne
  | (key, v) :: rest, level, h, _ => by
    obtain ⟨hv, hrest⟩ := List.forall_mem_append.1 h
    have hvalue := strict_writeAt v level hv
    have hkey := isString_writeString key
    -- flat text has no blanks around a key or a value
    have hblank : IsBlank [] := List.forall_mem_nil _
    rw [writeMembers_cons, List.tail_cons]
    cases rest with
    | nil =>
      exact .lastMember (a := []) (b := []) (c := []) (d := []) hblank hkey hblank hblank hvalue hblank
    | cons member more =>
      have hmembers := strict_writeMembers (member :: more) level hrest (by simp)
      exact .member (a := []) (b := []) (c := []) (d := []) hblank hkey hblank hblank hvalue hblank
        hmembers

end

/-! ### Numbers that are not finite -/

/-- After strict JSON the scanner is outside of strings again, so it goes on as if that had not been
there. -/
theorem Quiet.advanceAll_append {a : List Char} (h : Quiet a) (b : List Char) :
    advanceAll .outside (a ++ b) = advanceAll .outside b := by
  rw [Json.advanceAll_append, h]
  rfl

/-- Once something stands outside strings that belongs into one, nothing behind it mends that. -/
theorem advanceAll_append_of_none {a : List Char} (h : advanceAll .outside a = none)
    (b : List Char) : advanceAll .outside (a ++ b) = none := by
  rw [advanceAll_append, h]
  rfl

mutual

/-- **The word for a number that is not finite stands outside strings.** By induction on the value:
what is before the number is strict JSON, which the scanner passes over, and at the word it stops.
-/
theorem advanceAll_writeAt :
    ∀ (v : Json) (level : Nat), (∃ n ∈ numbers v, ¬n.IsFinite) →
      advanceAll .outside (writeAt flat level v) = none
  | .number n, _, h => by
    have hn : ¬n.IsFinite := by simpa using h
    show advanceAll .outside (writeNumber n) = none
    cases n with
    | int n => exact absurd trivial hn
    | float x =>
      -- the three words are `NaN`, `Infinity` and `-Infinity`
      cases x with
      | nan => decide
      | infinity negative => cases negative <;> decide
      | finite => exact absurd trivial hn
  | .null, _, h | .bool true, _, h | .bool false, _, h | .string _, _, h => by simp [numbers] at h
  | .array items, level, h => by
    have hopen : Quiet ['['] := rfl
    rw [writeAt_array, ← List.singleton_append, hopen.advanceAll_append]
    exact advanceAll_append_of_none (advanceAll_writeItems items (level + 1) h) _
  | .object members, level, h => by
    have hopen : Quiet [Char.ofNat 123] := rfl
    rw [writeAt_object, ← List.singleton_append, hopen.advanceAll_append]
    exact advanceAll_append_of_none (advanceAll_writeMembers members (level + 1) h) _

/-- The scan over the items of an array breaks off at a number that is not finite, be it in the
first of them or in another one. -/
theorem advanceAll_writeItems :
    ∀ (items : List Json) (level : Nat), (∃ n ∈ numbersOfItems items, ¬n.IsFinite) →
      advanceAll .outside (writeItems flat level items).tail = none
  | [], _, h => by simp [numbersOfItems] at h
  | v :: rest, level, h => by
    rw [writeItems_cons, List.tail_cons]
    by_cases hv : ∀ n ∈ numbers v, n.IsFinite
    · -- the number is in one of the items after the first
      obtain ⟨n, hmem, hn⟩ := h
      have hrest : n ∈ numbersOfItems rest :=
        (List.mem_append.1 hmem).resolve_left fun hin => hn (hv n hin)
      rw [(strict_writeAt v level hv).quiet.advanceAll_append]
      cases rest with
      | nil => simp [numbersOfItems] at hrest
      | cons w more => exact advanceAll_writeItems (w :: more) level ⟨n, hrest, hn⟩
    · exact advanceAll_append_of_none (advanceAll_writeAt v level (by simpa using hv)) _

/-- So it does in the members of an object. Their keys are strings, so that only their values count.
-/
theorem advanceAll_writeMembers :
    ∀ (members : List (String × Json)) (level : Nat),
      (∃ n ∈ numbersOfMembers members, ¬n.IsFinite) →
        advanceAll .outside (writeMembers flat level members).tail = none
  | [], _, h => by simp [numbersOfMembers] at h
  | (key, v) :: rest, level, h => by
    have hcolon : ∀ s, advanceAll .outside (':' :: s) = advanceAll .outside s := fun _ => rfl
    rw [writeMembers_cons, List.tail_cons, (isString_writeString key).quiet.advanceAll_append,
      hcolon]
    -- the offending number is in this value or in a later one
    by_cases hv : ∀ n ∈ numbers v, n.IsFinite
    · obtain ⟨n, hmem, hn⟩ := h
      have hrest : n ∈ numbersOfMembers rest :=
        (List.mem_append.1 hmem).resolve_left fun hin => hn (hv n hin)
      rw [(strict_writeAt v level hv).quiet.advanceAll_append]
      cases rest with
      | nil => simp [numbersOfMembers] at hrest
      | cons member more => exact advanceAll_writeMembers (member :: more) level ⟨n, hrest, hn⟩
    · exact advanceAll_append_of_none (advanceAll_writeAt v level (by simpa using hv)) _

end

/-- The compact text of a value is what the writer makes of it in the flat style, on level zero. -/
theorem toList_compact (v : Json) : (compact v).toList = writeAt flat 0 v := by
  simp [compact, write, flat]

/-- **A value is written as strict JSON exactly if its numbers are finite.** In one direction it is
derived by the grammar, in the other one a word for a number breaks off the scan that strict texts
pass. -/
theorem isStrict_compact_iff (v : Json) :
    IsStrict (compact v).toList ↔ ∀ n ∈ numbers v, n.IsFinite := by
  rw [toList_compact]
  constructor
  · intro hstrict
    -- a scanner that goes over strict JSON does not stop
    by_contra hnot
    have hnone := advanceAll_writeAt v 0 (by simpa using hnot)
    rw [hstrict.quiet] at hnone
    simp at hnone
  · intro h
    have hblank : IsBlank [] := List.forall_mem_nil _
    exact ⟨[], writeAt flat 0 v, [], by simp, hblank, strict_writeAt v 0 h, hblank⟩

/-! ## Lines -/

/-- No escape has a control character in it, as the letters and digits of escapes are none. -/
theorem le_toNat_of_mem_escapeChar (c : Char) : ∀ d ∈ escapeChar false c, 32 ≤ d.toNat := by
  rcases escapeChar_cases c with ⟨hself, hcontrol, -⟩ | ⟨d, hd, hletter, hpair⟩ | ⟨hn, hunit⟩
  · rw [hself, List.forall_mem_singleton]
    exact hcontrol
  · have hletters : ∀ d ∈ escapeLetters, 32 ≤ d.toNat := by decide
    rw [hpair]
    simpa using hletters d (mem_escapeLetters hletter)
  · have hunits : ∀ n < 32, ∀ d ∈ escapeUnit n, 32 ≤ d.toNat := by decide
    rw [hunit]
    exact hunits c.toNat hn

theorem le_toNat_of_mem_writeString (s : String) : ∀ c ∈ writeString false s, 32 ≤ c.toNat := by
  intro c hc
  rw [writeString, List.mem_cons, List.mem_append, List.mem_singleton, List.mem_flatMap] at hc
  rcases hc with rfl | ⟨d, -, hd⟩ | rfl
  · decide
  · exact le_toNat_of_mem_escapeChar d c hd
  · decide

theorem le_toNat_of_isDigit {c : Char} (h : c.isDigit = true) : 32 ≤ c.toNat := by
  have hzero : 32 ≤ '0'.toNat := by decide
  exact hzero.trans (Char.isDigit_iff_toNat.1 h).1

/-- Neither a number nor a word for one has a control character in it, so flat text of a value
stands on one line. -/
theorem le_toNat_of_mem_writeNumber (n : Number) : ∀ c ∈ writeNumber n, 32 ≤ c.toNat := by
  intro c hc
  cases n with
  | int n =>
    rcases Number.mem_digits hc with hdigit | rfl
    · exact le_toNat_of_isDigit hdigit
    · decide
  | float x =>
    have hmarks : ∀ c ∈ ['-', '+', '.', 'e'] ++ (layout.infinity.toList ++ layout.notANumber.toList),
        32 ≤ c.toNat := by decide
    rcases Binary64.isNumberChar_of_mem_text hc with hdigit | hmark
    · exact le_toNat_of_isDigit hdigit
    · exact hmarks c (by simpa only [List.mem_append] using hmark)

mutual

/-- **A value is written on one line,** without control characters of any kind. In strings these are
escaped. -/
theorem le_toNat_of_mem_writeAt :
    ∀ (v : Json) (level : Nat), ∀ c ∈ writeAt flat level v, 32 ≤ c.toNat
  | .null, _ => show ∀ c ∈ "null".toList, 32 ≤ c.toNat by decide
  | .bool true, _ => show ∀ c ∈ "true".toList, 32 ≤ c.toNat by decide
  | .bool false, _ => show ∀ c ∈ "false".toList, 32 ≤ c.toNat by decide
  | .number n, _ => le_toNat_of_mem_writeNumber n
  | .string s, _ => le_toNat_of_mem_writeString s
  -- brackets and braces are no control characters either
  | .array items, level => by
    intro c hc
    rw [writeAt_array, List.mem_cons, List.mem_append, List.mem_singleton] at hc
    rcases hc with rfl | hitems | rfl
    · decide
    · exact le_toNat_of_mem_writeItems items _ c (List.mem_of_mem_tail hitems)
    · decide
  | .object members, level => by
    intro c hc
    rw [writeAt_object, List.mem_cons, List.mem_append, List.mem_singleton] at hc
    rcases hc with rfl | hmembers | rfl
    · decide
    · exact le_toNat_of_mem_writeMembers members _ c (List.mem_of_mem_tail hmembers)
    · decide

/-- No control character is written for items, nor is one between them. -/
theorem le_toNat_of_mem_writeItems :
    ∀ (items : List Json) (level : Nat), ∀ c ∈ writeItems flat level items, 32 ≤ c.toNat
  | [], _ => List.forall_mem_nil _
  | v :: rest, level => by
    intro c hc
    rw [writeItems_cons, List.mem_cons, List.mem_append] at hc
    rcases hc with rfl | hv | hrest
    · decide
    · exact le_toNat_of_mem_writeAt v level c hv
    · exact le_toNat_of_mem_writeItems rest level c hrest

theorem le_toNat_of_mem_writeMembers :
    ∀ (members : List (String × Json)) (level : Nat),
      ∀ c ∈ writeMembers flat level members, 32 ≤ c.toNat
  | [], _ => List.forall_mem_nil _
  | (key, v) :: rest, level => by
    intro c hc
    rw [writeMembers_cons, List.mem_cons, List.mem_append, List.mem_cons, List.mem_append] at hc
    rcases hc with rfl | hkey | rfl | hv | hrest
    · decide
    · exact le_toNat_of_mem_writeString key c hkey
    · decide
    · exact le_toNat_of_mem_writeAt v level c hv
    · exact le_toNat_of_mem_writeMembers rest level c hrest

end

/-- **No control character stands in the compact text of a value**, and so no line break. -/
theorem not_mem_compact {c : Char} (hc : c.toNat < 32) (v : Json) : c ∉ (compact v).toList := by
  intro hmem
  rw [toList_compact] at hmem
  exact absurd (le_toNat_of_mem_writeAt v 0 c hmem) (Nat.not_le_of_lt hc)

/-! ## Reading -/

variable {repeats : Repeats}

/-- A member with a new key goes to the end, whatever is kept of others. This is why the two ways of
reading do not differ on what the writer makes: there no key is written twice. -/
theorem Repeats.add_of_new {before : Fields} {key : String} (h : before.get? key = none) (v : Json) :
    repeats.add before key v = before ++ [(key, v)] := by
  cases repeats with
  | last => exact Fields.set_eq_append h v
  | all => rfl

/-- The first character of a written value is no blank, and closes nothing. -/
def Opens (c : Char) : Prop := isSpace c = false ∧ c ≠ ']' ∧ c.toNat ≠ 125

instance (c : Char) : Decidable (Opens c) := inferInstanceAs (Decidable (_ ∧ _ ∧ _))

theorem opens_of_isDigit {c : Char} (h : c.isDigit = true) : Opens c := by
  have hne : ∀ d : Char, d.isDigit = false → c ≠ d := by
    rintro d hd rfl
    simp [hd] at h
  refine ⟨?_, hne _ (by decide), fun heq => ?_⟩
  · simp [isSpace, hne ' ' (by decide), hne '\t' (by decide), hne '\n' (by decide),
      hne '\r' (by decide)]
  · exact hne (Char.ofNat 125) (by decide) (Char.toNat_inj.1 heq)

/-- A number begins with a digit, a sign or the first letter of a word. None of these is a blank or
begins another kind of value. -/
theorem head_writeNumber (n : Number) :
    ∃ c rest, writeNumber n = c :: rest ∧ (c.isDigit = true ∨ c ∈ ['-', 'N', 'I']) := by
  -- a number that is not finite is written as one of three words
  by_cases hfinite : n.IsFinite
  · obtain ⟨negative, body, value, htext, hspelled, -⟩ := exists_spelled hfinite
    obtain ⟨c, rest, rfl, hc⟩ := hspelled.head_isDigit
    cases negative with
    | true => exact ⟨'-', c :: rest, htext, by simp⟩
    | false => exact ⟨c, rest, htext, Or.inl hc⟩
  · cases n with
    | int n => exact absurd trivial hfinite
    | float x =>
      cases x with
      | nan => exact ⟨'N', _, rfl, by simp⟩
      | infinity negative =>
        cases negative with
        | true => exact ⟨'-', _, rfl, by simp⟩
        | false => exact ⟨'I', _, rfl, by simp⟩
      | finite => exact absurd trivial hfinite

/-- **Every written value begins with a character that opens one.** So the reader neither skips it
as a blank nor takes it for the end of an array or object. -/
theorem head_writeAt (v : Json) (level : Nat) :
    ∃ c rest, writeAt flat level v = c :: rest ∧ Opens c := by
  cases v with
  | null => exact ⟨'n', _, rfl, by decide⟩
  | bool b =>
    cases b with
    | true => exact ⟨'t', _, rfl, by decide⟩
    | false => exact ⟨'f', _, rfl, by decide⟩
  | number n =>
    obtain ⟨c, rest, htext, hc⟩ := head_writeNumber n
    have hmarks : ∀ c ∈ ['-', 'N', 'I'], Opens c := by decide
    exact ⟨c, rest, htext, hc.elim opens_of_isDigit (hmarks c)⟩
  | string s => exact ⟨Char.ofNat 34, _, rfl, by decide⟩
  | array items => exact ⟨'[', _, writeAt_array level items, by decide⟩
  | object members => exact ⟨Char.ofNat 123, _, writeAt_object level members, by decide⟩

/-- Nothing is skipped in front of what is no blank. -/
theorem skip_cons {c : Char} (h : isSpace c = false) (rest : List Char) :
    skip (c :: rest) = c :: rest := by
  simp [skip, h]

/-- Nothing is skipped in front of a written value. -/
theorem skip_writeAt (v : Json) (level : Nat) (rest : List Char) :
    skip (writeAt flat level v ++ rest) = writeAt flat level v ++ rest := by
  obtain ⟨c, more, htext, hspace, -⟩ := head_writeAt v level
  rw [htext, List.cons_append, skip_cons hspace]

/-- A number is read, because none of the characters that it can begin with opens another kind of
value. -/
theorem readValue_number {n : Number} (hfits : n.Fits) {rest : List Char} (hrest : EndsNumber rest)
    (fuel room : Nat) :
    readValue repeats (fuel + 1) room (writeNumber n ++ rest) = some (.number n, rest) := by
  have hread := readScalar_writeNumber hfits hrest
  obtain ⟨c, more, htext, hc⟩ := head_writeNumber n
  have hne : ∀ d : Char, d.isDigit = false → d ∉ ['-', 'N', 'I'] → c ≠ d := by
    rintro d hdigit hmark rfl
    exact hc.elim (fun h => by simp [hdigit] at h) hmark
  have hbrace : c.toNat ≠ 123 := fun h =>
    hne (Char.ofNat 123) (by decide) (by decide) (Char.toNat_inj.1 h)
  have hquote : c.toNat ≠ 34 := fun h =>
    hne (Char.ofNat 34) (by decide) (by decide) (Char.toNat_inj.1 h)
  rw [htext, List.cons_append] at hread ⊢
  -- past the branches for arrays, objects and strings
  unfold readValue
  dsimp only
  rw [if_neg (hne '[' (by decide) (by decide)), if_neg hbrace, if_neg hquote, hread]

/-- Items that are there are read one by one. -/
theorem readValue_items {s : List Char} (h : ∃ c rest, s = c :: rest ∧ Opens c) (fuel room : Nat) :
    readValue repeats (fuel + 1) (room + 1) ('[' :: s)
      = (readItems repeats fuel room s).map fun found => (.array found.1, found.2) := by
  obtain ⟨c, rest, rfl, hspace, hclose, -⟩ := h
  rw [readValue, if_pos rfl]
  dsimp only
  rw [skip_cons hspace]
  split
  · next heq => exact absurd (List.cons.inj heq).1 hclose
  · rfl

/-- Members that are there are read one by one. -/
theorem readValue_members {s : List Char} (h : ∃ c rest, s = c :: rest ∧ Opens c)
    (fuel room : Nat) :
    readValue repeats (fuel + 1) (room + 1) (Char.ofNat 123 :: s)
      = (readMembers repeats fuel room [] s).map fun found => (.object found.1, found.2) := by
  obtain ⟨c, rest, rfl, hspace, -, hclose⟩ := h
  rw [readValue, if_neg (by decide), if_pos (by decide)]
  dsimp only
  rw [skip_cons hspace]
  dsimp only
  rw [if_neg hclose]

/-- What is read after a member: more of them after a comma, or the end. -/
def readMembersFrom (repeats : Repeats) (fuel room : Nat) (found : Fields) :
    List Char → Option (Fields × List Char)
  | ',' :: rest => readMembers repeats fuel room found (skip rest)
  | c :: rest => if c.toNat = 125 then some (found, rest) else none
  | [] => none

/-- A written key, a colon and a value are read as a member. How to go on behind it, with a comma or
a brace, is left to `readMembersFrom`. -/
theorem readMembers_member {key : String} {v : Json} {c : Char} {text rest : List Char}
    {fuel room : Nat} (before : Fields) (hskip : skip text = text)
    (hvalue : readValue repeats fuel room text = some (v, c :: rest)) (hspace : isSpace c = false) :
    readMembers repeats (fuel + 1) room before (writeString false key ++ ':' :: text)
      = readMembersFrom repeats fuel room (repeats.add before key v) (c :: rest) := by
  have hstring := readString_writeString key.toList (':' :: text)
  show readMembers repeats (fuel + 1) room before
    (Char.ofNat 34 :: (key.toList.flatMap (escapeChar false) ++ [Char.ofNat 34] ++ ':' :: text)) = _
  -- the key is read back, then the colon, and the value as the reader of values says
  rw [readMembers, if_neg (by decide), List.append_assoc, List.singleton_append, hstring]
  dsimp only
  rw [skip_cons (by decide)]
  split
  · next heq =>
    obtain rfl := (List.cons.inj heq).2
    rw [hskip, hvalue]
    dsimp only
    rw [skip_cons hspace, String.ofList_toList]
    rfl
  · next hno => exact absurd rfl (hno text)

/-- A number ends in front of a character that cannot belong to one, such as a comma or a bracket.
-/
theorem endsNumber_cons {c : Char} (h : c.isDigit = false ∧ c ∉ ['.', 'e', 'E'])
    (rest : List Char) : EndsNumber (c :: rest) := by
  rintro d ⟨⟩
  exact h

mutual

/-- **A written value is read as that value**, with enough fuel and room. By induction on the value.
Every call of the reader takes one step of fuel, and at least every second call a character of the
text. -/
theorem readValue_writeAt :
    ∀ (v : Json) (level fuel room : Nat) (rest : List Char), Keyed v → (∀ n ∈ numbers v, n.Fits) →
      2 * (writeAt flat level v).length ≤ fuel → depth v ≤ room → EndsNumber rest →
        readValue repeats fuel room (writeAt flat level v ++ rest) = some (v, rest)
  | v, level, 0, _, _, _, _, hfuel, _, _ => by
    obtain ⟨c, more, htext, -⟩ := head_writeAt v level
    rw [htext, List.length_cons] at hfuel
    omega
  | .null, _, _ + 1, _, _, _, _, _, _, _ => rfl
  | .bool true, _, _ + 1, _, _, _, _, _, _, _ => rfl
  | .bool false, _, _ + 1, _, _, _, _, _, _, _ => rfl
  | .number n, _, fuel + 1, room, rest, _, hfits, _, _, hrest =>
    readValue_number (hfits n (by simp)) hrest fuel room
  | .string s, _, fuel + 1, room, rest, _, _, _, _, _ => by
    have hread := readString_writeString s.toList rest
    show readValue repeats (fuel + 1) room
      (Char.ofNat 34 :: (s.toList.flatMap (escapeChar false) ++ [Char.ofNat 34] ++ rest)) = _
    unfold readValue
    dsimp only
    rw [if_neg (by decide), if_neg (by decide), if_pos (by decide), List.append_assoc,
      List.singleton_append, hread]
    simp
  -- there is room for all levels of the value
  | .array items, level, fuel + 1, 0, rest, hkeyed, hfits, hfuel, hroom, _ => by
    exact absurd hroom (Nat.not_succ_le_zero _)
  | .array [], level, fuel + 1, room + 1, rest, hkeyed, hfits, hfuel, hroom, _ => rfl
  -- an array that is not empty begins with its first item, so that the reader does not take it for
  -- an empty one
  | .array (v :: more), level, fuel + 1, room + 1, rest, hkeyed, hfits, hfuel, hroom, _ => by
    rw [writeAt_array] at hfuel ⊢
    rw [List.length_cons, List.length_append, List.length_singleton] at hfuel
    have hread := readItems_writeItems (v :: more) (level + 1) fuel room rest hkeyed hfits (by omega)
      (Nat.le_of_succ_le_succ hroom) (by simp)
    obtain ⟨c, s, htext, hopens⟩ := head_writeAt v (level + 1)
    have hhead : ∃ c s, (writeItems flat (level + 1) (v :: more)).tail ++ ']' :: rest = c :: s
        ∧ Opens c := by
      rw [writeItems_cons, List.tail_cons, htext]
      exact ⟨c, _, rfl, hopens⟩
    rw [List.cons_append, List.append_assoc, List.singleton_append, readValue_items hhead, hread]
    rfl
  | .object members, level, fuel + 1, 0, rest, hkeyed, hfits, hfuel, hroom, _ => by
    exact absurd hroom (Nat.not_succ_le_zero _)
  | .object [], level, fuel + 1, room + 1, rest, hkeyed, hfits, hfuel, hroom, _ => rfl
  | .object ((key, v) :: more), level, fuel + 1, room + 1, rest, hkeyed, hfits, hfuel, hroom, _ => by
    rw [writeAt_object] at hfuel ⊢
    rw [List.length_cons, List.length_append, List.length_singleton] at hfuel
    have hread := readMembers_writeMembers ((key, v) :: more) (level + 1) fuel room [] rest hkeyed
      (fun _ _ => rfl) hfits (by omega) (Nat.le_of_succ_le_succ hroom) (by simp)
    have hhead : ∃ c s, (writeMembers flat (level + 1) ((key, v) :: more)).tail
        ++ Char.ofNat 125 :: rest = c :: s ∧ Opens c := ⟨Char.ofNat 34, _, rfl, by decide⟩
    rw [List.cons_append, List.append_assoc, List.singleton_append, readValue_members hhead, hread]
    rfl

/-- Items are read up to the bracket, if there are any. The fuel is twice the length of the text,
since a step of this reader and one of the reader of values may take one character together. -/
theorem readItems_writeItems :
    ∀ (items : List Json) (level fuel room : Nat) (rest : List Char), KeyedItems items →
      (∀ n ∈ numbersOfItems items, n.Fits) → 2 * (writeItems flat level items).tail.length < fuel →
        depthItems items ≤ room → items ≠ [] →
          readItems repeats fuel room ((writeItems flat level items).tail ++ ']' :: rest)
            = some (items, rest)
  | [], _, _, _, _, _, _, _, _, hne => absurd rfl hne
  | _ :: _, _, 0, _, _, _, _, hfuel, _, _ => absurd hfuel (Nat.not_lt_zero _)
  | v :: more, level, fuel + 1, room, rest, ⟨hv, hmore⟩, hfits, hfuel, hroom, _ => by
    obtain ⟨hfitsValue, hfitsMore⟩ := List.forall_mem_append.1 hfits
    obtain ⟨hroomValue, hroomMore⟩ := Nat.max_le.1 hroom
    rw [writeItems_cons, List.tail_cons, List.length_append] at hfuel
    have hvalue := fun after => readValue_writeAt v level fuel room after hv hfitsValue (by omega)
      hroomValue
    rw [writeItems_cons, List.tail_cons, List.append_assoc, readItems]
    -- after an item comes either the bracket or a comma and another item
    cases more with
    | nil =>
      rw [writeItems, List.nil_append, hvalue _ (endsNumber_cons (by decide) rest)]
      rfl
    | cons w others =>
      have hread := readItems_writeItems (w :: others) level fuel room rest hmore hfitsMore
        (by rw [writeItems_cons, List.length_cons] at hfuel
            rw [writeItems_cons, List.tail_cons]
            omega) hroomMore (by simp)
      have hskip := skip_writeAt w level (writeItems flat level others ++ ']' :: rest)
      rw [writeItems_cons, List.tail_cons, List.append_assoc] at hread
      rw [writeItems_cons, List.cons_append, List.append_assoc,
        hvalue _ (endsNumber_cons (by decide) _)]
      dsimp only
      rw [skip_cons (by decide)]
      show (readItems repeats fuel room (skip _)).map (fun found => (v :: found.1, found.2)) = _
      rw [hskip, hread]
      rfl

/-- **Members are read up to the brace, behind those that were read before**, if their keys are
different from each other and from those before them. -/
theorem readMembers_writeMembers :
    ∀ (members : List (String × Json)) (level fuel room : Nat) (before : Fields)
      (rest : List Char), KeyedMembers members →
      (∀ key ∈ Fields.keys members, before.get? key = none) →
      (∀ n ∈ numbersOfMembers members, n.Fits) →
        2 * (writeMembers flat level members).tail.length < fuel → depthMembers members ≤ room →
          members ≠ [] →
            readMembers repeats fuel room before
                ((writeMembers flat level members).tail ++ Char.ofNat 125 :: rest)
              = some (before ++ members, rest)
  | [], _, _, _, _, _, _, _, _, _, _, hne => absurd rfl hne
  | _ :: _, _, 0, _, _, _, _, _, _, hfuel, _, _ => absurd hfuel (Nat.not_lt_zero _)
  | (key, v) :: more, level, fuel + 1, room, before, rest, ⟨hkey, hv, hmore⟩, hnew, hfits, hfuel,
      hroom, _ => by
    obtain ⟨hfitsValue, hfitsMore⟩ := List.forall_mem_append.1 hfits
    obtain ⟨hroomValue, hroomMore⟩ := Nat.max_le.1 hroom
    obtain ⟨hnewKey, hnewMore⟩ := List.forall_mem_cons.1 hnew
    rw [writeMembers_cons, List.tail_cons, List.length_append, List.length_cons,
      List.length_append] at hfuel
    have hvalue := fun after => readValue_writeAt v level fuel room after hv hfitsValue (by omega)
      hroomValue
    have hadd : repeats.add before key v = before ++ [(key, v)] := Repeats.add_of_new hnewKey v
    rw [writeMembers_cons, List.tail_cons, List.append_assoc, List.cons_append, List.append_assoc]
    cases more with
    | nil =>
      have hread := hvalue (Char.ofNat 125 :: rest) (endsNumber_cons (by decide) rest)
      rw [writeMembers, List.nil_append, readMembers_member before (skip_writeAt v level _) hread
        (by decide), hadd]
      rfl
    | cons member others =>
      -- the keys of the others are still new when this member has been read
      have hnewAfter : ∀ other ∈ Fields.keys (member :: others),
          Fields.get? (before ++ [(key, v)]) other = none := by
        intro other hother
        have hne : other ≠ key := fun heq => hkey (heq ▸ hother)
        rw [← Fields.set_eq_append hnewKey v, Fields.get?_set, if_neg hne]
        exact hnewMore other hother
      have hread := readMembers_writeMembers (member :: others) level fuel room
        (before ++ [(key, v)]) rest hmore hnewAfter hfitsMore
        (by
          obtain ⟨name, w⟩ := member
          rw [writeMembers_cons, List.length_cons] at hfuel
          rw [writeMembers_cons, List.tail_cons]
          omega) hroomMore (by simp)
      obtain ⟨name, w⟩ := member
      have hskip : ∀ s, skip (writeString false name ++ s) = writeString false name ++ s :=
        fun s => skip_cons (by decide) _
      rw [writeMembers_cons, List.tail_cons, List.append_assoc, List.append_assoc] at hread
      rw [writeMembers_cons, List.cons_append, readMembers_member before (skip_writeAt v level _)
        (hvalue (',' :: _) (endsNumber_cons (by decide) _)) (by decide), hadd]
      show readMembers repeats fuel room _ (skip _) = _
      rw [List.append_assoc, hskip, hread]
      simp

end

mutual

/-- No value nests deeper than its text is long. -/
theorem depth_le_length : ∀ (v : Json) (level : Nat), depth v ≤ (writeAt flat level v).length
  | .null, _ | .bool _, _ | .number _, _ | .string _, _ => Nat.zero_le _
  | .array items, level => by
    have hitems := depthItems_le_length items (level + 1)
    rw [writeAt_array, depth, List.length_cons, List.length_append, List.length_singleton]
    omega
  | .object members, level => by
    have hmembers := depthMembers_le_length members (level + 1)
    rw [writeAt_object, depth, List.length_cons, List.length_append, List.length_singleton]
    omega

theorem depthItems_le_length :
    ∀ (items : List Json) (level : Nat),
      depthItems items ≤ (writeItems flat level items).tail.length
  | [], _ => Nat.zero_le _
  | v :: rest, level => by
    have hvalue := depth_le_length v level
    have hrest := depthItems_le_length rest level
    rw [List.length_tail] at hrest
    rw [writeItems_cons, List.tail_cons, List.length_append, depthItems]
    omega

theorem depthMembers_le_length :
    ∀ (members : List (String × Json)) (level : Nat),
      depthMembers members ≤ (writeMembers flat level members).tail.length
  | [], _ => Nat.zero_le _
  | (key, v) :: rest, level => by
    have hvalue := depth_le_length v level
    have hrest := depthMembers_le_length rest level
    rw [List.length_tail] at hrest
    rw [writeMembers_cons, List.tail_cons, List.length_append, List.length_cons, List.length_append,
      depthMembers]
    omega

end

/-- **A value that is written without blanks is read as that value**, if every object in it has each
key once, no integer is too long, and it does not nest deeper than is read. -/
theorem read?_compact {v : Json} (hkeyed : Keyed v) (hfits : ∀ n ∈ numbers v, n.Fits)
    {limit : Option Nat} (hdepth : ∀ room ∈ limit, depth v ≤ room) :
    read? repeats limit (compact v) = some v := by
  -- without a limit the length of the text is one, and it is large enough
  have hroom : depth v ≤ limit.getD (writeAt flat 0 v).length := by
    cases limit with
    | none => exact depth_le_length v 0
    | some room => exact hdepth room rfl
  have hskip := skip_writeAt v 0 []
  have hread : readValue repeats _ _ _ = _ := readValue_writeAt v 0
    (2 * (writeAt flat 0 v).length + 2) _ [] hkeyed hfits (by omega) hroom (by simp [EndsNumber])
  rw [List.append_nil] at hskip hread
  unfold read?
  rw [toList_compact]
  dsimp only
  rw [hskip, hread]
  rfl

end BlockTheme.Json
