import BlockTheme.Json.Reader
import BlockTheme.Proofs.Text.Margins

/-!
# The grammar of strict JSON

`Json.Strict` derives the texts that are JSON in the strict sense, without the words for numbers that
are not finite which the reader also takes. Outside its strings such a text holds none of the capital
letters with which these words begin (`Json.IsStrict.quiet`).
-/

namespace BlockTheme.Json

/-! ## Texts without parts -/

/-- Spaces, tabs and line ends, or nothing. -/
def IsBlank (s : List Char) : Prop := ∀ c ∈ s, isSpace c = true

/-- At least one digit, and nothing else. -/
def IsDigits (s : List Char) : Prop := s ≠ [] ∧ ∀ c ∈ s, c.isDigit = true

/-- The digits before the point, with no zero in front of others. -/
inductive IsWhole : List Char → Prop
  | zero : IsWhole ['0']
  | nonzero {c : Char} {rest : List Char} (hdigit : c.isDigit = true) (hc : c ≠ '0')
      (hrest : ∀ d ∈ rest, d.isDigit = true) : IsWhole (c :: rest)

/-- A point with digits after it, or nothing. -/
inductive IsFraction : List Char → Prop
  | absent : IsFraction []
  | present {digits : List Char} (h : IsDigits digits) : IsFraction ('.' :: digits)

/-- A mark with the digits of a power of ten, which may have a sign, or nothing. -/
inductive IsExponent : List Char → Prop
  | absent : IsExponent []
  | present {mark : Char} {sign digits : List Char} (hmark : mark ∈ ['e', 'E'])
      (hsign : sign ∈ [[], ['-'], ['+']]) (h : IsDigits digits) :
      IsExponent (mark :: (sign ++ digits))

/-- A number: a sign, the digits before the point, those after it, and a power of ten. -/
inductive IsNumber : List Char → Prop
  | mk {sign whole fraction exponent : List Char} (hsign : sign ∈ [[], ['-']])
      (hwhole : IsWhole whole) (hfraction : IsFraction fraction)
      (hexponent : IsExponent exponent) : IsNumber (sign ++ (whole ++ (fraction ++ exponent)))

/-- The letters that may stand after a backslash: a quote, a backslash, a slash and five others. -/
def escapeLetters : List Char :=
  [Char.ofNat 34, Char.ofNat 92, '/', 'b', 'f', 'n', 'r', 't']

/-- What stands for one character of a string. -/
inductive IsCharacter : List Char → Prop
  | plain {c : Char} (hcontrol : 32 ≤ c.toNat) (hquote : c.toNat ≠ 34) (hslash : c.toNat ≠ 92) :
      IsCharacter [c]
  | escape {c : Char} (h : c ∈ escapeLetters) : IsCharacter [Char.ofNat 92, c]
  | unit {a b c d : Char} (h : ∀ digit ∈ [a, b, c, d], (Text.hexDigit? digit).isSome = true) :
      IsCharacter [Char.ofNat 92, 'u', a, b, c, d]

/-- Characters of a string, one behind the other. -/
inductive IsCharacters : List Char → Prop
  | nil : IsCharacters []
  | append {c rest : List Char} (h : IsCharacter c) (hrest : IsCharacters rest) :
      IsCharacters (c ++ rest)

/-- A string in its quotes. -/
inductive IsString : List Char → Prop
  | mk {s : List Char} (h : IsCharacters s) :
      IsString (Char.ofNat 34 :: (s ++ [Char.ofNat 34]))

/-! ## Values -/

/-- The parts of a text: a value, the items of an array, and the members of an object. -/
inductive Part where
  | value
  | items
  | members

/-- The texts of strict JSON. -/
inductive Strict : Part → List Char → Prop
  | word {w : String} (h : w ∈ ["null", "true", "false"]) : Strict .value w.toList
  | number {s : List Char} (h : IsNumber s) : Strict .value s
  | string {s : List Char} (h : IsString s) : Strict .value s
  | emptyArray {s : List Char} (h : IsBlank s) : Strict .value ('[' :: (s ++ [']']))
  | array {s : List Char} (h : Strict .items s) : Strict .value ('[' :: (s ++ [']']))
  | emptyObject {s : List Char} (h : IsBlank s) :
      Strict .value (Char.ofNat 123 :: (s ++ [Char.ofNat 125]))
  | object {s : List Char} (h : Strict .members s) :
      Strict .value (Char.ofNat 123 :: (s ++ [Char.ofNat 125]))
  | lastItem {a v b : List Char} (ha : IsBlank a) (h : Strict .value v) (hb : IsBlank b) :
      Strict .items (a ++ (v ++ b))
  | item {a v b rest : List Char} (ha : IsBlank a) (h : Strict .value v) (hb : IsBlank b)
      (hrest : Strict .items rest) : Strict .items (a ++ (v ++ (b ++ ',' :: rest)))
  | lastMember {a key b c v d : List Char} (ha : IsBlank a) (hkey : IsString key) (hb : IsBlank b)
      (hc : IsBlank c) (h : Strict .value v) (hd : IsBlank d) :
      Strict .members (a ++ (key ++ (b ++ ':' :: (c ++ (v ++ d)))))
  | member {a key b c v d rest : List Char} (ha : IsBlank a) (hkey : IsString key)
      (hb : IsBlank b) (hc : IsBlank c) (h : Strict .value v) (hd : IsBlank d)
      (hrest : Strict .members rest) :
      Strict .members (a ++ (key ++ (b ++ ':' :: (c ++ (v ++ (d ++ ',' :: rest))))))

/-- A text of one value, with blanks around it. -/
def IsStrict (text : List Char) : Prop :=
  ∃ a v b, text = a ++ (v ++ b) ∧ IsBlank a ∧ Strict .value v ∧ IsBlank b

/-! ## What stands outside strings -/

/-- Where in a text one is. -/
inductive Place where
  | outside
  | inside
  /-- In a string, after a backslash. -/
  | escaped
  deriving DecidableEq

/-- The place after one more character; none after a capital letter outside strings with which a word
for a number begins. -/
def advance : Place → Char → Option Place
  | .outside, c =>
    if c.toNat = 34 then some .inside else if c ∈ ['N', 'I'] then none else some .outside
  | .inside, c =>
    if c.toNat = 34 then some .outside else if c.toNat = 92 then some .escaped else some .inside
  | .escaped, _ => some .inside

/-- The place after a text. -/
def advanceAll (place : Place) (s : List Char) : Option Place := s.foldlM advance place

theorem advanceAll_append (place : Place) (a b : List Char) :
    advanceAll place (a ++ b) = (advanceAll place a).bind fun next => advanceAll next b :=
  List.foldlM_append

theorem advanceAll_cons (place : Place) (c : Char) (rest : List Char) :
    advanceAll place (c :: rest) = (advance place c).bind fun next => advanceAll next rest :=
  List.foldlM_cons

/-- A text that begins and ends outside strings, with no such capital letter between them. -/
def Quiet (s : List Char) : Prop := advanceAll .outside s = some .outside

/-- Quiet texts behind one another are quiet: the first one ends outside strings, where the next one
begins. -/
theorem Quiet.append {a b : List Char} (ha : Quiet a) (hb : Quiet b) : Quiet (a ++ b) := by
  rw [Quiet, advanceAll_append, ha]
  exact hb

/-- A character that may stand outside strings changes nothing. -/
theorem Quiet.cons {c : Char} (hc : advance .outside c = some .outside) {rest : List Char}
    (h : Quiet rest) : Quiet (c :: rest) := by
  rw [Quiet, advanceAll_cons, hc]
  exact h

theorem quiet_of_forall {s : List Char} (h : ∀ c ∈ s, advance .outside c = some .outside) :
    Quiet s := by
  induction s with
  | nil => rfl
  | cons c rest ih =>
    obtain ⟨hc, hrest⟩ := List.forall_mem_cons.1 h
    exact .cons hc (ih hrest)

theorem advance_of_isDigit {c : Char} (h : c.isDigit = true) :
    advance .outside c = some .outside := by
  have hquote : c.toNat ≠ 34 := by
    intro heq
    rw [Char.toNat_inj.1 (heq.trans (show 34 = (Char.ofNat 34).toNat by decide))] at h
    exact absurd h (by decide)
  have hwords : c ∉ ['N', 'I'] := by
    intro hmem
    have hall : ∀ d ∈ ['N', 'I'], d.isDigit = false := by decide
    exact absurd h (by simp [hall c hmem])
  rw [advance, if_neg hquote, if_neg hwords]

theorem IsBlank.quiet {s : List Char} (h : IsBlank s) : Quiet s := by
  refine quiet_of_forall fun c hc => ?_
  have hspace := h c hc
  simp only [isSpace, Bool.or_eq_true, beq_iff_eq] at hspace
  rcases hspace with ((rfl | rfl) | rfl) | rfl <;> decide

theorem IsDigits.quiet {s : List Char} (h : IsDigits s) : Quiet s :=
  quiet_of_forall fun c hc => advance_of_isDigit (h.2 c hc)

theorem IsWhole.isDigits {s : List Char} (h : IsWhole s) : IsDigits s := by
  cases h with
  | zero => exact ⟨by simp, by decide⟩
  | nonzero hdigit _ hrest => exact ⟨by simp, List.forall_mem_cons.2 ⟨hdigit, hrest⟩⟩

theorem IsFraction.quiet {s : List Char} (h : IsFraction s) : Quiet s := by
  cases h with
  | absent => rfl
  | present h => exact .cons (by decide) h.quiet

/-- A power of ten is quiet: both letters for it may stand outside strings, unlike those of the
words for numbers that are not finite. -/
theorem IsExponent.quiet {s : List Char} (h : IsExponent s) : Quiet s := by
  cases h with
  | absent => rfl
  | present hmark hsign h =>
    have hmarks : ∀ mark ∈ ['e', 'E'], advance .outside mark = some .outside := by decide
    have hsigns : ∀ sign ∈ [[], ['-'], ['+']], advanceAll .outside sign = some .outside := by decide
    exact .cons (hmarks _ hmark) (.append (hsigns _ hsign) h.quiet)

/-- All parts of a number are quiet. Not so the words for numbers that are not finite. -/
theorem IsNumber.quiet {s : List Char} (h : IsNumber s) : Quiet s := by
  cases h with
  | mk hsign hwhole hfraction hexponent =>
    have hsigns : ∀ sign ∈ [[], ['-']], advanceAll .outside sign = some .outside := by decide
    exact .append (hsigns _ hsign)
      (.append hwhole.isDigits.quiet (.append hfraction.quiet hexponent.quiet))

/-- A character of a string leaves off inside it, be it written as itself, with a backslash, or by
its code. So a string in quotes is passed over as a whole when a text is searched for what stands
outside of strings. -/
theorem IsCharacter.advanceAll {s : List Char} (h : IsCharacter s) :
    advanceAll .inside s = some .inside := by
  cases h with
  | plain _ hquote hslash =>
    rw [advanceAll_cons, advance, if_neg hquote, if_neg hslash]
    rfl
  -- whatever letter is escaped, the string goes on behind it
  | escape _ => rfl
  | @unit a b c d h =>
    -- no hexadecimal digit ends the string or begins an escape
    have hdigit : ∀ x : Char, (Text.hexDigit? x).isSome = true →
        advance .inside x = some .inside := by
      intro x hx
      have hquote : x.toNat ≠ 34 := by
        intro heq
        rw [Char.toNat_inj.1 (heq.trans (show 34 = (Char.ofNat 34).toNat by decide))] at hx
        exact absurd hx (by decide)
      have hslash : x.toNat ≠ 92 := by
        intro heq
        rw [Char.toNat_inj.1 (heq.trans (show 92 = (Char.ofNat 92).toNat by decide))] at hx
        exact absurd hx (by decide)
      rw [advance, if_neg hquote, if_neg hslash]
    have hslash : advance .inside (Char.ofNat 92) = some .escaped := by decide
    have hletter : advance .escaped 'u' = some .inside := rfl
    simp only [List.forall_mem_cons] at h
    obtain ⟨ha, hb, hc, hd, -⟩ := h
    simp only [advanceAll_cons, hslash, hletter, Option.bind_some, hdigit _ ha, hdigit _ hb,
      hdigit _ hc, hdigit _ hd]
    rfl

/-- Characters leave off inside the string, by induction on how many there are. -/
theorem IsCharacters.advanceAll {s : List Char} (h : IsCharacters s) :
    advanceAll .inside s = some .inside := by
  induction h with
  | nil => rfl
  | append h _ ih =>
    rw [advanceAll_append, h.advanceAll]
    exact ih

/-- A string begins and ends outside strings, with anything inside. -/
theorem IsString.quiet {s : List Char} (h : IsString s) : Quiet s := by
  cases h with
  | mk h =>
    have hopen : advance .outside (Char.ofNat 34) = some .inside := by decide
    have hclose : advanceAll .inside [Char.ofNat 34] = some .outside := by decide
    rw [Quiet, advanceAll_cons, hopen, Option.bind_some, advanceAll_append, h.advanceAll,
      Option.bind_some, hclose]

/-- **Outside its strings, strict JSON holds no capital letter with which a word for a number
begins.** By induction on the grammar, with quiet texts put together by `Quiet.append`. -/
theorem Strict.quiet {part : Part} {s : List Char} (h : Strict part s) : Quiet s := by
  -- brackets and braces around a quiet text
  have hclosed : ∀ {first last : Char}, first ∈ ['[', Char.ofNat 123] →
      last ∈ [']', Char.ofNat 125] → ∀ {s : List Char}, Quiet s → Quiet (first :: (s ++ [last])) := by
    intro first last hfirst hlast s hs
    have hopen : ∀ c ∈ ['[', Char.ofNat 123], advance .outside c = some .outside := by decide
    have hclose : ∀ c ∈ [']', Char.ofNat 125], advance .outside c = some .outside := by decide
    exact .cons (hopen _ hfirst) (hs.append (.cons (hclose _ hlast) rfl))
  have hcomma : ∀ {s : List Char}, Quiet s → Quiet (',' :: s) := .cons (by decide)
  have hcolon : ∀ {s : List Char}, Quiet s → Quiet (':' :: s) := .cons (by decide)
  induction h with
  | word h =>
    have hwords : ∀ w ∈ ["null", "true", "false"], advanceAll .outside w.toList = some .outside := by
      decide
    exact hwords _ h
  | number h => exact h.quiet
  | string h => exact h.quiet
  | emptyArray h => exact hclosed (by simp) (by simp) h.quiet
  | array _ ih => exact hclosed (by simp) (by simp) ih
  | emptyObject h => exact hclosed (by simp) (by simp) h.quiet
  | object _ ih => exact hclosed (by simp) (by simp) ih
  | lastItem ha _ hb ih => exact ha.quiet.append (ih.append hb.quiet)
  | item ha _ hb _ ih ihrest =>
    exact ha.quiet.append (ih.append (hb.quiet.append (hcomma ihrest)))
  | lastMember ha hkey hb hc _ hd ih =>
    exact ha.quiet.append
      (hkey.quiet.append (hb.quiet.append (hcolon (hc.quiet.append (ih.append hd.quiet)))))
  | member ha hkey hb hc _ hd _ ih ihrest =>
    exact ha.quiet.append (hkey.quiet.append (hb.quiet.append
      (hcolon (hc.quiet.append (ih.append (hd.quiet.append (hcomma ihrest)))))))

/-- A text of strict JSON is quiet. A text that is not quiet is shown not to be strict with this. -/
theorem IsStrict.quiet {text : List Char} (h : IsStrict text) : Quiet text := by
  obtain ⟨a, v, b, rfl, ha, hv, hb⟩ := h
  exact ha.quiet.append (hv.quiet.append hb.quiet)

end BlockTheme.Json
