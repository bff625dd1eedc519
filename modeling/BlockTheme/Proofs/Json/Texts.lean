import BlockTheme.Json.Display
import BlockTheme.Json.Reader
import BlockTheme.Json.Writer
import BlockTheme.Proofs.Markup.Scan

/-!
# Texts in JSON values

A value holds texts, and its objects have keys. Written without blanks, a value ends a comment
exactly if one of these does (`Json.infix_compact`): the writer keeps the characters of `-->` as
they are, and puts between two strings only characters that are not among them. Cleaning drops no
text but empty ones (`Fields.mem_texts_clean`), and setting a member adds the texts of its value
(`Fields.mem_texts_set`).
-/

namespace BlockTheme

/-! ## The characters of numbers -/

/-- An integer is written with digits and at most a minus sign in front of them. So no character of
it belongs to the end of a comment but the sign, and one sign alone ends nothing. -/
theorem Number.mem_digits {n : Int} {c : Char} (h : c ∈ Number.digits n) :
    c.isDigit = true ∨ c = '-' := by
  unfold Number.digits at h
  rcases List.mem_append.1 h with hsign | hdigits
  · split at hsign
    · exact Or.inr (by simpa using hsign)
    · simp at hsign
  · exact Or.inl (Nat.isDigit_of_mem_toDigits (by decide) (by decide) hdigits)

namespace Binary64

/-- A number is written with digits, signs, a point and an `e`, or with the words of the layout. -/
def IsNumberChar (layout : Layout) (c : Char) : Prop :=
  c.isDigit = true ∨ c ∈ ['-', '+', '.', 'e'] ∨ c ∈ layout.infinity.toList
    ∨ c ∈ layout.notANumber.toList

/-- The significant digits of a number are digits. They come out of the digits of an integer by
dropping zeros at its end, for which the list is turned around twice. -/
theorem isDigit_of_mem_significant {n : Nat} {c : Char} (h : c ∈ significant n) :
    c.isDigit = true := by
  have hmem := (List.dropWhile_sublist _).subset (List.mem_reverse.1 h)
  exact Nat.isDigit_of_mem_toDigits (by decide) (by decide) (List.mem_reverse.1 hmem)

/-- In positional notation nothing is added to the digits of a number but zeros and the point. So a
number cannot end a comment. -/
theorem mem_positional {digits : List Char} {lead : Int} {c : Char}
    (h : c ∈ positional digits lead) : c ∈ digits ∨ c = '0' ∨ c = '.' := by
  unfold positional at h
  split at h
  · grind
  · dsimp only at h
    split at h
    · grind
    · rcases List.mem_append.1 h with htake | hdrop
      · exact Or.inl (List.mem_of_mem_take htake)
      · rcases List.mem_cons.1 hdrop with rfl | hdrop
        · exact Or.inr (Or.inr rfl)
        · exact Or.inl (List.mem_of_mem_drop hdrop)

/-- In scientific notation a point, an `e`, a sign and the digits of the power are added. The power
is filled up with zeros to a certain width. -/
theorem mem_scientific {width : Nat} {digits : List Char} {lead : Int} {c : Char}
    (h : c ∈ scientific width digits lead) :
    c ∈ digits ∨ c.isDigit = true ∨ c ∈ ['-', '+', '.', 'e'] := by
  unfold scientific at h
  simp only [List.mem_append, List.mem_cons] at h
  -- first digit, the others behind a point, `e`, the sign of the power, zeros in front of it, the
  -- power
  rcases h with (htake | hfraction) | rfl | hsign | hzero | hpower
  · exact Or.inl (List.mem_of_mem_take htake)
  · split at hfraction
    · simp at hfraction
    · rcases List.mem_cons.1 hfraction with rfl | hdrop
      · simp
      · exact Or.inl (List.mem_of_mem_drop hdrop)
  · simp
  · split at hsign <;> simp [hsign]
  · exact Or.inr (Or.inl ((List.eq_of_mem_replicate hzero) ▸ rfl))
  · exact Or.inr (Or.inl (Nat.isDigit_of_mem_toDigits (by decide) (by decide) hpower))

/-- **The characters of a written number.** This is all that is needed of the notation to see that a
number ends no comment, holds no control character and is no text of an integer. -/
theorem isNumberChar_of_mem_text {layout : Layout} {x : Binary64} {c : Char}
    (h : c ∈ x.text layout) : IsNumberChar layout c := by
  unfold IsNumberChar
  have hsign : ∀ s : Bool, c ∈ (if s then ['-'] else []) → c = '-' := by
    intro s hc
    split at hc
    · simpa using hc
    · simp at hc
  -- the cases are those of the writer: not a number, infinite, zero, and any other number
  unfold text at h
  split at h
  · exact Or.inr (Or.inr (Or.inr h))
  · rcases List.mem_append.1 h with hc | hc
    · simp [hsign _ hc]
    · exact Or.inr (Or.inr (Or.inl hc))
  · dsimp only at h
    split at h
    · rcases List.mem_append.1 h with hc | hc
      · simp [hsign _ hc]
      · have hzero : c = '0' ∨ c = '.' ∨ c = '0' := by simpa using hc
        rcases hzero with rfl | rfl | rfl
        · exact Or.inl rfl
        · exact Or.inr (Or.inl (by decide))
        · exact Or.inl rfl
    · rcases List.mem_append.1 h with hc | hc
      · simp [hsign _ hc]
      · split at hc
        · rcases mem_positional hc with hdigit | rfl | rfl
          · exact Or.inl (isDigit_of_mem_significant hdigit)
          · exact Or.inl rfl
          · exact Or.inr (Or.inl (by decide))
        · rcases mem_scientific hc with hdigit | hdigit | hmark
          · exact Or.inl (isDigit_of_mem_significant hdigit)
          · exact Or.inl hdigit
          · exact Or.inr (Or.inl hmark)

/-- Positional notation always has a point, if need be with a zero after it. -/
theorem point_mem_positional (digits : List Char) (lead : Int) : '.' ∈ positional digits lead := by
  unfold positional
  split
  · simp
  · dsimp only
    split <;> simp

/-- In either notation there is a character that no integer is written with. -/
theorem exists_mark_mem (isPositional : Bool) (width : Nat) (digits : List Char) (lead : Int) :
    ∃ c ∈ (if isPositional then positional digits lead else scientific width digits lead),
      c.isDigit = false ∧ c ≠ '-' := by
  cases isPositional with
  | true => exact ⟨'.', point_mem_positional digits lead, by decide, by decide⟩
  | false => exact ⟨'e', by simp [scientific], by decide, by decide⟩

/-- A floating-point number is shown with a point or an `e`, or as a word. -/
theorem exists_mark_mem_text (x : Binary64) :
    ∃ c ∈ x.text Json.displayLayout, c.isDigit = false ∧ c ≠ '-' := by
  unfold text
  split
  · exact ⟨'n', by simp [Json.displayLayout], by decide, by decide⟩
  · exact ⟨'i', by simp [Json.displayLayout], by decide, by decide⟩
  · dsimp only
    split
    · exact ⟨'.', by simp, by decide, by decide⟩
    · obtain ⟨c, hc, hmark⟩ := exists_mark_mem _ _ _ _
      exact ⟨c, List.mem_append_right _ hc, hmark⟩

end Binary64

namespace Json

/-- A floating-point number is not shown like any integer. -/
theorem displayText_float_ne_int (x : Binary64) (n : Int) :
    displayText (.number (.float x)) ≠ displayText (.int n) := by
  intro hsame
  have htexts : x.text displayLayout = Number.digits n := String.ofList_injective hsame
  -- a point or a letter, which would have to be a digit or a sign of the integer
  obtain ⟨c, hc, hdigit, hsign⟩ := Binary64.exists_mark_mem_text x
  rcases Number.mem_digits (htexts ▸ hc) with hother | hother
  · simp [hdigit] at hother
  · exact hsign hother

/-! ## Texts and keys -/

mutual

/-- The texts in a value. -/
def texts : Json → List String
  | .string s => [s]
  | .array items => textsOfItems items
  | .object members => textsOfMembers members
  | _ => []

def textsOfItems : List Json → List String
  | [] => []
  | v :: rest => texts v ++ textsOfItems rest

def textsOfMembers : List (String × Json) → List String
  | [] => []
  | (_, v) :: rest => texts v ++ textsOfMembers rest

end

mutual

/-- The keys of the objects in a value. -/
def names : Json → List String
  | .array items => namesOfItems items
  | .object members => namesOfMembers members
  | _ => []

def namesOfItems : List Json → List String
  | [] => []
  | v :: rest => names v ++ namesOfItems rest

/-- The keys of an object and of the objects in its members. -/
def namesOfMembers : List (String × Json) → List String
  | [] => []
  | (key, v) :: rest => key :: (names v ++ namesOfMembers rest)

end

/-! ## Writing -/

/-- What a character inside a string becomes: itself, a backslash and a letter or itself, or the
escape of its code unit. -/
theorem escapeChar_cases (c : Char) :
    (escapeChar false c = [c] ∧ 32 ≤ c.toNat ∧ c.toNat ≠ 34 ∧ c.toNat ≠ 92)
      ∨ (∃ d, (d = c ∨ d ∈ ['n', 'r', 't', 'b', 'f']) ∧ escaped? d = some c
        ∧ escapeChar false c = [Char.ofNat 92, d])
      ∨ (c.toNat < 32 ∧ escapeChar false c = escapeUnit c.toNat) := by
  have hnat : ∀ n : Nat, c.toNat = n → some (Char.ofNat n) = some c := by
    rintro n rfl
    rw [Char.ofNat_toNat]
  unfold escapeChar
  dsimp only
  -- one case for each branch of the writer: quote and backslash, the five letters, other control
  -- characters, and what stands for itself
  by_cases hself : (decide (c.toNat = 34) || decide (c.toNat = 92)) = true
  · have hletter : escaped? c = some c := by
      rcases Bool.or_eq_true_iff.1 hself with h | h
      · rw [← Option.some.inj (hnat 34 (of_decide_eq_true h))]
        decide
      · rw [← Option.some.inj (hnat 92 (of_decide_eq_true h))]
        decide
    exact Or.inr (Or.inl ⟨c, Or.inl rfl, hletter, if_pos hself⟩)
  rw [if_neg hself]
  by_cases hn : c = '\n'
  · exact Or.inr (Or.inl ⟨'n', by simp, by simp [escaped?, hn], if_pos hn⟩)
  rw [if_neg hn]
  by_cases hr : c = '\r'
  · exact Or.inr (Or.inl ⟨'r', by simp, by simp [escaped?, hr], if_pos hr⟩)
  rw [if_neg hr]
  by_cases ht : c = '\t'
  · exact Or.inr (Or.inl ⟨'t', by simp, by simp [escaped?, ht], if_pos ht⟩)
  rw [if_neg ht]
  by_cases hb : c.toNat = 8
  · exact Or.inr (Or.inl ⟨'b', by simp, hnat 8 hb, if_pos hb⟩)
  rw [if_neg hb]
  by_cases hf : c.toNat = 12
  · exact Or.inr (Or.inl ⟨'f', by simp, hnat 12 hf, if_pos hf⟩)
  rw [if_neg hf]
  by_cases hunit : c.toNat < 32
  · exact Or.inr (Or.inr ⟨hunit, if_pos hunit⟩)
  · rw [if_neg hunit]
    have hmarks : c.toNat ≠ 34 ∧ c.toNat ≠ 92 := by simpa using hself
    exact Or.inl ⟨rfl, Nat.le_of_not_lt hunit, hmarks⟩

/-- The escape of a string keeps the characters of `-->` and makes none of them. Hence the end of a
comment is in an escaped text exactly if it is in the text (`infix_flatMap`). -/
theorem escapeChar_closing :
    (∀ c ∈ Comment.closing, escapeChar false c = [c])
      ∧ ∀ c ∉ Comment.closing, escapeChar false c ≠ []
        ∧ ∀ d ∈ escapeChar false c, d ∉ Comment.closing := by
  refine ⟨by simp [Comment.closing, escapeChar], fun c hc => ?_⟩
  -- a character is kept, written with a backslash, or written by its number
  rcases escapeChar_cases c with ⟨hself, -⟩ | ⟨d, hd, -, hpair⟩ | ⟨hn, hunit⟩
  · simpa [hself] using hc
  · have hslash : Char.ofNat 92 ∉ Comment.closing := by decide
    have hd' : d ∉ Comment.closing := by
      rcases hd with rfl | hletter
      · exact hc
      · have hletters : ['n', 'r', 't', 'b', 'f'].all (· ∉ Comment.closing) = true := by decide
        simpa using List.all_eq_true.1 hletters d hletter
    rw [hpair]
    exact ⟨by simp, by simpa using ⟨hslash, hd'⟩⟩
  · have hunits : ∀ n < 32, (escapeUnit n).all (· ∉ Comment.closing) = true := by decide
    rw [hunit]
    exact ⟨by simp [escapeUnit], fun d hd => by simpa using List.all_eq_true.1 (hunits _ hn) d hd⟩

/-- **A string that is written ends a comment exactly if the text does.** The quotes around it are
no part of an end, and between them the escapes neither break an end up nor make one. -/
theorem infix_writeString (s : String) :
    Comment.closing <:+: writeString false s ↔ Comment.closing <:+: s.toList := by
  have hquote : Char.ofNat 34 ∉ Comment.closing := by decide
  have hmark : Comment.closing ≠ [] := by decide
  obtain ⟨hkeep, hout⟩ := escapeChar_closing
  rw [writeString, Text.infix_cons hquote hmark, Text.infix_append_cons hquote hmark,
    Text.infix_flatMap hkeep hout hmark]
  simp [hmark]

/-- A number ends no comment: there is no `>` in it, in whatever notation it is written. -/
theorem not_infix_writeNumber (n : Number) : ¬Comment.closing <:+: writeNumber n := by
  refine Text.not_infix_of_not_mem (c := '>') (by decide) fun hmem => ?_
  cases n with
  | int n => simpa using Number.mem_digits hmem
  | float x => simpa [Binary64.IsNumberChar, layout] using Binary64.isNumberChar_of_mem_text hmem

/-- Everything on one line without blanks. -/
def flat : Style := ⟨.compact, false⟩

/-- What the writer makes of an array with items, in the flat style: no line is broken and nothing
is indented, so that its empty separators can be dropped. The lemmas up to `writeMembers_cons` say
this for every form that the induction below meets. -/
theorem writeAt_array_cons (level : Nat) (v : Json) (rest : List Json) :
    writeAt flat level (.array (v :: rest))
      = '[' :: (writeAt flat (level + 1) v ++ writeItems flat (level + 1) rest ++ [']']) := by
  have hwrite : writeAt flat level (.array (v :: rest))
      = '[' :: ([] ++ writeAt flat (level + 1) v ++ writeItems flat (level + 1) rest ++ []
        ++ [']']) := rfl
  rw [hwrite, List.nil_append, List.append_nil]

theorem writeAt_object_cons (level : Nat) (key : String) (v : Json)
    (rest : List (String × Json)) :
    writeAt flat level (.object ((key, v) :: rest))
      = Char.ofNat 123 :: (writeString false key ++ ':' :: (writeAt flat (level + 1) v
        ++ writeMembers flat (level + 1) rest ++ [Char.ofNat 125])) := by
  have hwrite : writeAt flat level (.object ((key, v) :: rest))
      = Char.ofNat 123 :: ([] ++ writeString false key ++ [':'] ++ writeAt flat (level + 1) v
        ++ writeMembers flat (level + 1) rest ++ [] ++ [Char.ofNat 125]) := rfl
  rw [hwrite]
  simp only [List.nil_append, List.append_nil, List.append_assoc, List.cons_append]

/-- Items come one after the other, each with a comma before it. The first one loses it in
`writeAt_array_cons`, where it is written by itself. -/
theorem writeItems_cons (level : Nat) (v : Json) (rest : List Json) :
    writeItems flat level (v :: rest)
      = ',' :: (writeAt flat level v ++ writeItems flat level rest) := rfl

theorem writeMembers_cons (level : Nat) (key : String) (v : Json) (rest : List (String × Json)) :
    writeMembers flat level ((key, v) :: rest)
      = ',' :: (writeString false key ++ ':' :: (writeAt flat level v
        ++ writeMembers flat level rest)) := by
  have hwrite : writeMembers flat level ((key, v) :: rest)
      = [','] ++ writeString false key ++ [':'] ++ writeAt flat level v
        ++ writeMembers flat level rest := rfl
  rw [hwrite]
  simp only [List.nil_append, List.append_assoc, List.cons_append]

/-- What follows an item begins with a comma, if there is anything, and so with nothing that could
continue the end of a comment. -/
theorem head?_writeItems {items : List Json} {level : Nat} {c : Char}
    (h : (writeItems flat level items).head? = some c) : c ∉ Comment.closing := by
  cases items with
  | nil => simp [writeItems] at h
  | cons v rest =>
    obtain rfl : ',' = c := by simpa [writeItems_cons] using h
    decide

theorem head?_writeMembers {members : List (String × Json)} {level : Nat} {c : Char}
    (h : (writeMembers flat level members).head? = some c) : c ∉ Comment.closing := by
  cases members with
  | nil => simp [writeMembers] at h
  | cons member rest =>
    obtain ⟨key, v⟩ := member
    obtain rfl : ',' = c := by simpa [writeMembers_cons] using h
    decide

/-- A key and the colon after it cut an end of a comment off from what comes next, since neither
quote nor colon can be a part of one. -/
theorem infix_writeString_colon (key : String) (rest : List Char) :
    Comment.closing <:+: writeString false key ++ ':' :: rest
      ↔ Comment.EndsIn key ∨ Comment.closing <:+: rest := by
  rw [Text.infix_append_cons (by decide) (by decide), infix_writeString, Comment.EndsIn]

/-- The texts of two parts end a comment if those of one part do. -/
theorem exists_endsIn_append (a b : List String) :
    (∃ s ∈ a ++ b, Comment.EndsIn s)
      ↔ (∃ s ∈ a, Comment.EndsIn s) ∨ ∃ s ∈ b, Comment.EndsIn s := by
  simp only [List.mem_append, or_and_right, exists_or]

theorem exists_endsIn_cons (s : String) (rest : List String) :
    (∃ t ∈ s :: rest, Comment.EndsIn t) ↔ Comment.EndsIn s ∨ ∃ t ∈ rest, Comment.EndsIn t := by
  simp only [List.mem_cons, exists_eq_or_imp]

/-- A value without keys and texts, which is written as one word or a pair of brackets, ends no
comment. These are the leaves of the induction. -/
theorem infix_constant {text : List Char} (h : ¬Comment.closing <:+: text) {v : Json}
    (hnames : names v = []) (htexts : texts v = []) :
    Comment.closing <:+: text
      ↔ (∃ key ∈ names v, Comment.EndsIn key) ∨ ∃ s ∈ texts v, Comment.EndsIn s := by
  simp [h, hnames, htexts]

mutual

/-- **A value that is written without blanks ends a comment exactly if one of its keys and texts
does.** By induction on the value. An end of a comment cannot reach from one part of a value into
the next one, because quotes, brackets, commas and colons stand between them. -/
theorem infix_writeAt :
    ∀ (v : Json) (level : Nat), Comment.closing <:+: writeAt flat level v
      ↔ (∃ key ∈ names v, Comment.EndsIn key) ∨ ∃ s ∈ texts v, Comment.EndsIn s
  | .null, _ => infix_constant (show ¬Comment.closing <:+: "null".toList by decide) rfl rfl
  | .bool true, _ => infix_constant (show ¬Comment.closing <:+: "true".toList by decide) rfl rfl
  | .bool false, _ => infix_constant (show ¬Comment.closing <:+: "false".toList by decide) rfl rfl
  | .number n, _ => infix_constant (not_infix_writeNumber n) rfl rfl
  | .string s, level => by
    have hwrite : writeAt flat level (.string s) = writeString false s := rfl
    have hnames : names (.string s) = [] := rfl
    have htexts : texts (.string s) = [s] := rfl
    rw [hwrite, infix_writeString, hnames, htexts]
    simp [Comment.EndsIn]
  | .array [], _ => infix_constant (show ¬Comment.closing <:+: ['[', ']'] by decide) rfl rfl
  | .object [], _ =>
    infix_constant (show ¬Comment.closing <:+: [Char.ofNat 123, Char.ofNat 125] by decide) rfl rfl
  | .array (v :: rest), level => by
    have hnames : names (.array (v :: rest)) = names v ++ namesOfItems rest := rfl
    have htexts : texts (.array (v :: rest)) = texts v ++ textsOfItems rest := rfl
    have hstop : ¬Comment.closing <:+: [] := by decide
    -- brackets and commas are no part of an end, so every item stands for itself
    rw [writeAt_array_cons, Text.infix_cons (by decide) (by decide),
      Text.infix_append_cons (by decide) (by decide), or_iff_left hstop,
      Text.infix_append_of_head fun _ => head?_writeItems, infix_writeAt v, infix_writeItems rest,
      hnames, htexts, exists_endsIn_append, exists_endsIn_append]
    exact or_or_or_comm
  | .object ((key, v) :: rest), level => by
    have hnames : names (.object ((key, v) :: rest)) = key :: (names v ++ namesOfMembers rest) :=
      rfl
    have htexts : texts (.object ((key, v) :: rest)) = texts v ++ textsOfMembers rest := rfl
    have hstop : ¬Comment.closing <:+: [] := by decide
    -- an object differs from an array only in its keys, which are strings too
    rw [writeAt_object_cons, Text.infix_cons (by decide) (by decide), infix_writeString_colon,
      Text.infix_append_cons (by decide) (by decide), or_iff_left hstop,
      Text.infix_append_of_head fun _ => head?_writeMembers, infix_writeAt v,
      infix_writeMembers rest, hnames, htexts, exists_endsIn_cons, exists_endsIn_append,
      exists_endsIn_append]
    exact (or_congr_right or_or_or_comm).trans or_assoc.symm

/-- The items of an array, from any of them on, end a comment exactly if one of their texts or keys
does. -/
theorem infix_writeItems :
    ∀ (items : List Json) (level : Nat), Comment.closing <:+: writeItems flat level items
      ↔ (∃ key ∈ namesOfItems items, Comment.EndsIn key)
        ∨ ∃ s ∈ textsOfItems items, Comment.EndsIn s
  | [], _ => infix_constant (show ¬Comment.closing <:+: [] by decide) (v := .array []) rfl rfl
  | v :: rest, level => by
    have hnames : namesOfItems (v :: rest) = names v ++ namesOfItems rest := rfl
    have htexts : textsOfItems (v :: rest) = texts v ++ textsOfItems rest := rfl
    rw [writeItems_cons, Text.infix_cons (by decide) (by decide),
      Text.infix_append_of_head fun _ => head?_writeItems, infix_writeAt v, infix_writeItems rest,
      hnames, htexts, exists_endsIn_append, exists_endsIn_append]
    exact or_or_or_comm

theorem infix_writeMembers :
    ∀ (members : List (String × Json)) (level : Nat),
      Comment.closing <:+: writeMembers flat level members
        ↔ (∃ key ∈ namesOfMembers members, Comment.EndsIn key)
          ∨ ∃ s ∈ textsOfMembers members, Comment.EndsIn s
  | [], _ => infix_constant (show ¬Comment.closing <:+: [] by decide) (v := .object []) rfl rfl
  | (key, v) :: rest, level => by
    have hnames : namesOfMembers ((key, v) :: rest) = key :: (names v ++ namesOfMembers rest) :=
      rfl
    have htexts : textsOfMembers ((key, v) :: rest) = texts v ++ textsOfMembers rest := rfl
    rw [writeMembers_cons, Text.infix_cons (by decide) (by decide), infix_writeString_colon,
      Text.infix_append_of_head fun _ => head?_writeMembers, infix_writeAt v,
      infix_writeMembers rest, hnames, htexts, exists_endsIn_cons, exists_endsIn_append,
      exists_endsIn_append]
    exact (or_congr_right or_or_or_comm).trans or_assoc.symm

end

/-- What is written for a value ends a comment exactly if one of its texts or keys does. This is the
form in which block delimiters need it. -/
theorem infix_compact (v : Json) :
    Comment.closing <:+: (compact v).toList
      ↔ (∃ key ∈ names v, Comment.EndsIn key) ∨ ∃ s ∈ texts v, Comment.EndsIn s := by
  have hflat : (compact v).toList = writeAt flat 0 v := by simp [compact, write, flat]
  rw [hflat, infix_writeAt]

end Json

/-! ## Fields -/

namespace Fields

/-- The texts in the values of fields. -/
def texts (fields : Fields) : List String := Json.textsOfMembers fields

/-- The keys of fields and of the objects in their values. -/
def names (fields : Fields) : List String := Json.namesOfMembers fields

@[simp] theorem texts_nil : texts [] = [] := rfl

@[simp] theorem texts_cons (key : String) (v : Json) (rest : Fields) :
    texts ((key, v) :: rest) = v.texts ++ texts rest := rfl

@[simp] theorem names_nil : names [] = [] := rfl

@[simp] theorem names_cons (key : String) (v : Json) (rest : Fields) :
    names ((key, v) :: rest) = key :: (v.names ++ names rest) := rfl

end Fields

@[simp] theorem Json.texts_string (s : String) : (Json.string s).texts = [s] := rfl

@[simp] theorem Json.texts_object (members : Fields) :
    (Json.object members).texts = Fields.texts members := rfl

@[simp] theorem Json.texts_number (n : Number) : (Json.number n).texts = [] := rfl

@[simp] theorem Json.texts_bool (b : Bool) : (Json.bool b).texts = [] := rfl

theorem Json.mem_texts_array {items : List Json} {s : String} :
    s ∈ (Json.array items).texts ↔ ∃ item ∈ items, s ∈ item.texts := by
  show s ∈ Json.textsOfItems items ↔ _
  induction items with
  | nil => simp [Json.textsOfItems]
  | cons v rest ih => simp [Json.textsOfItems, ih]

@[simp] theorem Json.names_string (s : String) : (Json.string s).names = [] := rfl

@[simp] theorem Json.names_object (members : Fields) :
    (Json.object members).names = Fields.names members := rfl

@[simp] theorem Json.names_number (n : Number) : (Json.number n).names = [] := rfl

@[simp] theorem Json.names_bool (b : Bool) : (Json.bool b).names = [] := rfl

namespace Fields

/-- The texts of fields are those of their values. Keys are counted apart (`mem_names`). -/
theorem mem_texts {fields : Fields} {s : String} :
    s ∈ fields.texts ↔ ∃ member ∈ fields, s ∈ member.2.texts := by
  induction fields with
  | nil => simp
  | cons member rest ih =>
    obtain ⟨key, v⟩ := member
    simp [ih]

/-- The keys in fields are their own and those in their values. -/
theorem mem_names {fields : Fields} {name : String} :
    name ∈ fields.names ↔ ∃ member ∈ fields, name = member.1 ∨ name ∈ member.2.names := by
  induction fields with
  | nil => simp
  | cons member rest ih =>
    obtain ⟨key, v⟩ := member
    simp [ih, or_assoc]

/-! ### Cleaning -/

/-- A value that says nothing has no text but the empty one. -/
theorem not_mem_texts_of_isVoid {v : Json} (h : v.isVoid = true) {s : String} (hs : s ≠ "") :
    s ∉ v.texts := by
  cases v with
  | string t =>
    have ht : t = "" := String.isEmpty_iff.1 h
    simpa [ht] using hs
  | object members => simp [List.isEmpty_iff.1 h]
  | _ => simp [Json.isVoid, Json.texts] at h ⊢

mutual

/-- Cleaning drops no text but empty ones. -/
theorem mem_texts_cleanValue {s : String} (hs : s ≠ "") :
    ∀ v : Json, s ∈ v.clean.texts ↔ s ∈ v.texts
  | .object members => by
    rw [Json.clean, Json.texts_object, Json.texts_object]
    exact mem_texts_cleanMembers hs members
  | .null | .bool _ | .number _ | .string _ | .array _ => by simp [Json.clean]

/-- Cleaning members keeps their texts: a member that is dropped says nothing, so it has no text to
lose but the empty one. -/
theorem mem_texts_cleanMembers {s : String} (hs : s ≠ "") :
    ∀ members : List (String × Json),
      s ∈ texts (Json.cleanMembers members) ↔ s ∈ texts members
  | [] => by simp [Json.cleanMembers]
  | (key, v) :: rest => by
    have hvalue := mem_texts_cleanValue hs v
    have hrest := mem_texts_cleanMembers hs rest
    rw [Json.cleanMembers, texts_cons, List.mem_append, ← hvalue, ← hrest]
    split
    · next hvoid => simp [not_mem_texts_of_isVoid hvoid hs]
    · simp

end

mutual

/-- Cleaning makes no keys. -/
theorem names_cleanValue_sublist : ∀ v : Json, (v.clean.names).Sublist v.names
  | .object members => by
    rw [Json.clean, Json.names_object, Json.names_object]
    exact names_cleanMembers_sublist members
  | .null | .bool _ | .number _ | .string _ | .array _ => by simp [Json.clean]

/-- Cleaning members adds no key. Dropping a member drops its key along with those in its value. -/
theorem names_cleanMembers_sublist :
    ∀ members : List (String × Json), (names (Json.cleanMembers members)).Sublist (names members)
  | [] => by simp [Json.cleanMembers]
  | (key, v) :: rest => by
    have hvalue := names_cleanValue_sublist v
    have hrest := names_cleanMembers_sublist rest
    rw [Json.cleanMembers, names_cons]
    split
    · exact (hrest.trans (List.sublist_append_right _ _)).cons _
    · exact (hvalue.append hrest).cons_cons _

end

/-- **Cleaning drops no text but empty ones.** What can be dangerous in a text is therefore
dangerous after cleaning exactly if it was before. -/
theorem mem_texts_clean {s : String} (hs : s ≠ "") (fields : Fields) :
    s ∈ fields.clean.texts ↔ s ∈ fields.texts := mem_texts_cleanMembers hs fields

/-- Cleaning makes no keys: what holds of all keys holds of those that are left. -/
theorem mem_names_of_clean {fields : Fields} {key : String} (h : key ∈ fields.clean.names) :
    key ∈ fields.names := (names_cleanMembers_sublist fields).subset h

/-! ### Setting a member -/

/-- What a key finds in fields with one more in front. -/
theorem get?_cons (name : String) (v : Json) (rest : Fields) (key : String) :
    get? ((name, v) :: rest) key = if key = name then some v else get? rest key := by
  simp only [get?, List.lookup_cons]
  by_cases h : key = name
  · simp [h]
  · have hne : (key == name) = false := by simpa using h
    simp [h, hne]

theorem mem_of_get? {fields : Fields} {key : String} {v : Json} (h : fields.get? key = some v) :
    (key, v) ∈ fields := by
  induction fields with
  | nil => simp [get?] at h
  | cons member rest ih =>
    obtain ⟨name, w⟩ := member
    rw [get?_cons] at h
    split at h
    · next hkey => simp [hkey, Option.some.inj h]
    · exact List.mem_cons_of_mem _ (ih h)

theorem get?_eq_none_of_forall {fields : Fields} {key : String}
    (h : ∀ field ∈ fields, field.1 ≠ key) : fields.get? key = none := by
  induction fields with
  | nil => rfl
  | cons field rest ih =>
    obtain ⟨hfield, hrest⟩ := List.forall_mem_cons.1 h
    rw [get?_cons, if_neg fun heq => hfield heq.symm, ih hrest]

/-- **After a field is set it is found, and every other one as before.** Nothing is said about the
order, which setting keeps as well. -/
theorem get?_set (fields : Fields) (key : String) (v : Json) (other : String) :
    (fields.set key v).get? other = if other = key then some v else fields.get? other := by
  induction fields with
  | nil => simp [set, get?_cons]
  | cons member rest ih =>
    obtain ⟨name, w⟩ := member
    rw [set]
    by_cases hname : name = key
    · rw [if_pos hname, get?_cons, get?_cons]
      grind
    · rw [if_neg hname, get?_cons, get?_cons, ih]
      grind

/-- Setting a member adds the texts of its value, if these take over those that stood there. The
condition is needed because the old value goes; in a style a group is replaced by itself with one
more property. -/
theorem mem_texts_set {fields : Fields} {key : String} {v : Json}
    (h : ∀ old, fields.get? key = some old → old.texts ⊆ v.texts) (s : String) :
    s ∈ (fields.set key v).texts ↔ s ∈ fields.texts ∨ s ∈ v.texts := by
  induction fields with
  | nil => simp [set]
  | cons member rest ih =>
    obtain ⟨name, w⟩ := member
    simp only [get?_cons] at h
    rw [set]
    by_cases hname : name = key
    · subst hname
      -- the value that stood here gives way to one with all its texts
      have hw := h w (by simp)
      have hmem : s ∈ w.texts → s ∈ v.texts := fun hs => hw hs
      rw [if_pos rfl, texts_cons, texts_cons, List.mem_append, List.mem_append]
      tauto
    · have hrest : ∀ old, get? rest key = some old → old.texts ⊆ v.texts :=
        fun old hold => h old (by rw [if_neg fun heq => hname heq.symm, hold])
      rw [if_neg hname, texts_cons, texts_cons, List.mem_append, List.mem_append, ih hrest,
        or_assoc]

/-- A member of what setting makes is an old one or the new one. All that is said about the texts,
names and numbers of a changed object comes from this. -/
theorem mem_of_set {fields : Fields} {key : String} {v : Json} {member : String × Json}
    (h : member ∈ fields.set key v) : member ∈ fields ∨ member = (key, v) := by
  induction fields with
  | nil => exact Or.inr (List.mem_singleton.1 h)
  | cons first rest ih =>
    obtain ⟨k, old⟩ := first
    rw [set] at h
    split at h
    · next hkey =>
      rcases List.mem_cons.1 h with rfl | hrest
      · exact Or.inr (by rw [hkey])
      · exact Or.inl (List.mem_cons_of_mem _ hrest)
    · rcases List.mem_cons.1 h with rfl | hrest
      · exact Or.inl List.mem_cons_self
      · exact (ih hrest).imp_left (List.mem_cons_of_mem _)

/-- Without a condition on the value that is replaced, texts can still only come from the old fields
and the new value. -/
theorem mem_texts_of_set {fields : Fields} {key : String} {v : Json} {s : String}
    (h : s ∈ (fields.set key v).texts) : s ∈ fields.texts ∨ s ∈ v.texts := by
  obtain ⟨member, hmember, hs⟩ := mem_texts.1 h
  rcases mem_of_set hmember with hold | rfl
  · exact Or.inl (mem_texts.2 ⟨member, hold, hs⟩)
  · exact Or.inr hs

theorem mem_names_of_set {fields : Fields} {key : String} {v : Json} {name : String}
    (h : name ∈ (fields.set key v).names) : name ∈ fields.names ∨ name = key ∨ name ∈ v.names := by
  obtain ⟨member, hmember, hname⟩ := mem_names.1 h
  rcases mem_of_set hmember with hold | rfl
  · exact Or.inl (mem_names.2 ⟨member, hold, hname⟩)
  · exact Or.inr hname

end Fields

/-! ### Looking up -/

/-- What stands in a value at the end of a path of keys. -/
def Json.at? (v : Json) (path : List String) : Option Json :=
  path.foldlM (fun v key => v.fields?.bind (Fields.get? · key)) v

/-- A path into an object goes through the member with its first key. -/
theorem Json.at?_object_cons (members : Fields) (key : String) (rest : List String) :
    (Json.object members).at? (key :: rest) = (members.get? key).bind (Json.at? · rest) := rfl

theorem Json.at?_object_singleton (members : Fields) (key : String) :
    (Json.object members).at? [key] = members.get? key := by
  rw [Json.at?_object_cons]
  cases members.get? key <;> rfl

end BlockTheme
