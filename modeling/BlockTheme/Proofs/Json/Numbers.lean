import BlockTheme.Proofs.Binary64.Shortest
import BlockTheme.Proofs.Json.Grammar
import BlockTheme.Proofs.Json.Texts
import BlockTheme.Proofs.Text.Margins

/-!
# The texts of numbers

A number is written as a sign and one of three forms: digits, digits around a point, and digits with a
power of ten (`Json.Spelled`). All of them are strict JSON, and the reader takes each of them as the
number that was written (`Json.readScalar_writeNumber`); with the words for infinities and for what is
not a number it takes all numbers, but for integers that are too long.
-/

namespace BlockTheme

/-- A number that is neither an infinity nor not a number. -/
def Number.IsFinite : Number → Prop
  | .int _ => True
  | .float (.finite ..) => True
  | .float _ => False

instance : DecidablePred Number.IsFinite
  | .int _ => .isTrue trivial
  | .float (.finite ..) => .isTrue trivial
  | .float .nan => .isFalse id
  | .float (.infinity _) => .isFalse id

/-- A number that is not too long to be read: only integers can be. -/
def Number.Fits : Number → Prop
  | .int n => (Nat.toDigits 10 n.natAbs).length ≤ Text.maxDigits
  | .float _ => True

instance : DecidablePred Number.Fits
  | .int _ => inferInstanceAs (Decidable (_ ≤ _))
  | .float _ => .isTrue trivial

namespace Json

open Binary64 (significant positional scientific shortest signed)
open Text (digitsValue)

/-! ## Forms -/

/-- A number without its sign as it is written, and what it is with each of the two signs. -/
inductive Spelled : List Char → (Bool → Number) → Prop
  | integer (n : Nat) :
      Spelled (Nat.toDigits 10 n) fun negative => .int (signed negative n)
  | positional {whole fraction : List Char} (hwhole : IsWhole whole)
      (hfraction : IsDigits fraction) :
      Spelled (whole ++ '.' :: fraction) fun negative =>
        .float (.ofDecimal negative (digitsValue (whole ++ fraction)) (0 - fraction.length))
  | scientific {whole fraction power : List Char} (hwhole : IsWhole whole)
      (hfraction : ∀ c ∈ fraction, c.isDigit = true) (minus : Bool) (hpower : IsDigits power) :
      Spelled (whole ++ ((if fraction.isEmpty then [] else '.' :: fraction)
          ++ 'e' :: (if minus then '-' else '+') :: power)) fun negative =>
        .float (.ofDecimal negative (digitsValue (whole ++ fraction))
          (signed minus (digitsValue power) - fraction.length))

/-- The sign in front of a number. -/
def signText (negative : Bool) : List Char := if negative then ['-'] else []

/-- A natural number is written without needless zeros in front. -/
theorem isWhole_toDigits (n : Nat) : IsWhole (Nat.toDigits 10 n) := by
  rcases Nat.eq_zero_or_pos n with rfl | hpos
  · rw [Nat.toDigits_zero]
    exact .zero
  · obtain ⟨c, rest, hdigits, hc⟩ := Text.toDigits_eq_cons hpos
    have hall := Text.isDigit_of_mem_toDigits (n := n)
    rw [hdigits] at hall ⊢
    obtain ⟨hdigit, hrest⟩ := List.forall_mem_cons.1 hall
    exact .nonzero hdigit hc hrest

/-- Every form is strict JSON, with or without a sign. The three forms are the ones in which numbers
are written; the grammar has more. -/
theorem Spelled.isNumber {body : List Char} {value : Bool → Number} (h : Spelled body value)
    (negative : Bool) : IsNumber (signText negative ++ body) := by
  have hsign : signText negative ∈ [[], ['-']] := by cases negative <;> simp [signText]
  cases h with
  -- neither fraction nor exponent
  | integer n =>
    have hnumber := IsNumber.mk hsign (isWhole_toDigits n) .absent .absent
    rwa [List.append_nil, List.append_nil] at hnumber
  -- a fraction and no exponent
  | positional hwhole hfraction =>
    have hnumber := IsNumber.mk hsign hwhole (.present hfraction) .absent
    rwa [List.append_nil] at hnumber
  | @scientific whole fraction power hwhole hfraction minus hpower =>
    -- an exponent, with a fraction only if there are more digits than one
    have hpoint : IsFraction (if fraction.isEmpty then [] else '.' :: fraction) := by
      split
      · exact .absent
      · next hne => exact .present ⟨by simpa using hne, hfraction⟩
    have hexponent : IsExponent ('e' :: (if minus then '-' else '+') :: power) := by
      cases minus
      · exact @IsExponent.present 'e' ['+'] power (by simp) (by simp) hpower
      · exact @IsExponent.present 'e' ['-'] power (by simp) (by simp) hpower
    exact .mk hsign hwhole hpoint hexponent

/-! ## Reading -/

/-- A text that does not go on a number in front of it. -/
def EndsNumber (rest : List Char) : Prop :=
  ∀ c ∈ rest.head?, c.isDigit = false ∧ c ∉ ['.', 'e', 'E']

theorem EndsNumber.isDigit {rest : List Char} (h : EndsNumber rest) :
    ∀ c ∈ rest.head?, c.isDigit = false := fun c hc => (h c hc).1

/-- The digits after a point, if there is one. -/
def readFraction : List Char → Option (List Char) × List Char
  | '.' :: rest => (some (rest.span Char.isDigit).1, (rest.span Char.isDigit).2)
  | rest => (none, rest)

/-- The number that digits before and after a point and a power of ten make up. -/
def numberOf? (negative : Bool) (whole : List Char) (fraction : Option (List Char))
    (power : Option Int) : Option Number :=
  if fraction.isNone && power.isNone then
    if Text.maxDigits < whole.length then none
    else some (.int (signed negative (digitsValue whole)))
  else
    some (.float (.ofDecimal negative (digitsValue (whole ++ fraction.getD []))
      (power.getD 0 - (fraction.getD []).length)))

/-- Whether digits have no zero in front of others. -/
def isWhole : List Char → Bool
  | [] => false
  | '0' :: _ :: _ => false
  | _ => true

/-- The reader's test for needless zeros agrees with the grammar. -/
theorem IsWhole.isWhole {s : List Char} (h : IsWhole s) : isWhole s = true := by
  cases h with
  | zero => rfl
  | nonzero _ hc _ =>
    unfold Json.isWhole
    split
    · next h => simp at h
    · next h => exact absurd (List.cons.inj h).1 hc
    · rfl

/-- **Reading a number, part by part.** The digits before the point, those behind it, and the power
of ten are read one after the other, and each part ends where the next one begins. -/
theorem readUnsigned_eq (negative : Bool) (s : List Char) :
    readUnsigned negative s
      = if !isWhole (s.span Char.isDigit).1 then none
        else if (readFraction (s.span Char.isDigit).2).1 == some [] then none
        else (readExponent (readFraction (s.span Char.isDigit).2).2).bind fun found =>
          (numberOf? negative (s.span Char.isDigit).1 (readFraction (s.span Char.isDigit).2).1
            found.1).map fun n => (n, found.2) := by
  show (if !isWhole (s.span Char.isDigit).1 then none
        else if (readFraction (s.span Char.isDigit).2).1 == some [] then none
        else _) = _
  -- both refuse what has no whole part, or a point with nothing behind it
  refine if_congr Iff.rfl rfl (if_congr Iff.rfl rfl ?_)
  split
  · next hnone =>
    have hpower : readExponent (readFraction (s.span Char.isDigit).2).2 = none := hnone
    rw [hpower]
    rfl
  -- with neither fraction nor exponent it is an integer, whose length is limited
  · next power rest hsome =>
    have hpower : readExponent (readFraction (s.span Char.isDigit).2).2 = some (power, rest) := hsome
    rw [hpower, Option.bind_some, numberOf?]
    show (if (readFraction (s.span Char.isDigit).2).1.isNone && power.isNone then _ else _) = _
    split
    · show (if Text.maxDigits < (s.span Char.isDigit).1.length then _ else _) = _
      split <;> rfl
    · rfl

/-- Reading a number that is well-formed up to the point. -/
theorem readUnsigned_whole (negative : Bool) {whole rest : List Char} (hwhole : IsWhole whole)
    (hrest : ∀ c ∈ rest.head?, c.isDigit = false) :
    readUnsigned negative (whole ++ rest)
      = if (readFraction rest).1 == some [] then none
        else (readExponent (readFraction rest).2).bind fun found =>
          (numberOf? negative whole (readFraction rest).1 found.1).map fun n => (n, found.2) := by
  rw [readUnsigned_eq, Text.span_append hwhole.isDigits.2 hrest, hwhole.isWhole]
  rfl

theorem readFraction_of_endsNumber {rest : List Char} (h : EndsNumber rest) :
    readFraction rest = (none, rest) := by
  unfold readFraction
  split
  · exact absurd (h '.' rfl).2 (by simp)
  · rfl

/-- A point with digits behind it is read up to the last of them. -/
theorem readFraction_point {digits rest : List Char} (hdigits : ∀ c ∈ digits, c.isDigit = true)
    (hrest : ∀ c ∈ rest.head?, c.isDigit = false) :
    readFraction ('.' :: (digits ++ rest)) = (some digits, rest) := by
  rw [readFraction, Text.span_append hdigits hrest]

/-- Where a number ends there is no power of ten either. -/
theorem readExponent_of_endsNumber {rest : List Char} (h : EndsNumber rest) :
    readExponent rest = some (none, rest) := by
  cases rest with
  | nil => rfl
  | cons c rest =>
    have hc := (h c rfl).2
    simp only [List.mem_cons, List.not_mem_nil, or_false, not_or] at hc
    simp [readExponent, hc]

theorem readExponent_power {power rest : List Char} (hpower : IsDigits power)
    (hrest : EndsNumber rest) (minus : Bool) :
    readExponent ('e' :: (if minus then '-' else '+') :: (power ++ rest))
      = some (some (signed minus (digitsValue power)), rest) := by
  have hspan := Text.span_append hpower.2 hrest.isDigit
  have hsign : Text.readSign ((if minus then '-' else '+') :: (power ++ rest))
      = (minus, power ++ rest) := by
    cases minus <;> rfl
  have hne : power.isEmpty = false := by simpa using hpower.1
  simp only [readExponent, hsign, hspan, hne]
  rfl

/-- **Each form is read as the number that it spells.** Three forms: a whole number, one with a
point, and one with a power of ten. -/
theorem Spelled.readUnsigned {body : List Char} {value : Bool → Number} (h : Spelled body value)
    {negative : Bool} (hfits : (value negative).Fits) {rest : List Char} (hrest : EndsNumber rest) :
    readUnsigned negative (body ++ rest) = some (value negative, rest) := by
  cases h with
  | integer n =>
    have hlength : (Nat.toDigits 10 (signed negative n).natAbs).length ≤ Text.maxDigits := hfits
    have habs : (signed negative n).natAbs = n := by cases negative <;> simp [signed]
    rw [habs] at hlength
    rw [readUnsigned_whole negative (isWhole_toDigits n) hrest.isDigit,
      readFraction_of_endsNumber hrest, readExponent_of_endsNumber hrest]
    simp [numberOf?, Nat.not_lt.2 hlength, Text.digitsValue_toDigits]
  | positional hwhole hfraction =>
    rw [List.append_assoc, List.cons_append,
      readUnsigned_whole negative hwhole (by simp),
      readFraction_point hfraction.2 hrest.isDigit, readExponent_of_endsNumber hrest]
    simp [numberOf?, hfraction.1]
  -- the digits behind the point may be missing, and then the point is as well
  | @scientific whole fraction power hwhole hfraction minus hpower =>
    have hexponent := readExponent_power hpower hrest minus
    rw [List.append_assoc, List.append_assoc, List.cons_append, List.cons_append]
    cases fraction with
    | nil =>
      have hnone : readFraction ('e' :: (if minus then '-' else '+') :: (power ++ rest))
          = (none, 'e' :: (if minus then '-' else '+') :: (power ++ rest)) := rfl
      rw [List.isEmpty_nil, if_pos rfl, List.nil_append,
        readUnsigned_whole negative hwhole (by simp), hnone, hexponent]
      simp [numberOf?]
    | cons d more =>
      rw [List.isEmpty_cons, if_neg (by simp), List.cons_append,
        readUnsigned_whole negative hwhole (by simp),
        readFraction_point hfraction (by simp), hexponent]
      simp [numberOf?]

/-! ## Writing -/

theorem signed_natAbs (n : Int) : signed (decide (n < 0)) n.natAbs = n := by
  by_cases h : n < 0
  · rw [decide_eq_true h, signed, if_pos rfl]
    omega
  · rw [decide_eq_false h, signed, if_neg (by simp)]
    omega

section Digits

variable {digits : List Char} (hwhole : IsWhole digits) (hne : digits.head? ≠ some '0')
  {lead : Int} {x : Bool → Binary64}
  (hx : ∀ negative,
    Binary64.ofDecimal negative (digitsValue digits) (lead + 1 - digits.length) = x negative)

include hwhole hne hx

/-- Digits in positional notation are one of the forms. By cases on where the point comes to stand:
before the digits, between them, or behind them, with zeros to fill the gap. -/
theorem spelled_positional :
    ∃ value, Spelled (positional digits lead) value
      ∧ ∀ negative, value negative = .float (x negative) := by
  have hdigits := hwhole.isDigits
  unfold positional
  split
  · next hlead =>
    -- zeros between the point and the digits
    refine ⟨_, @Spelled.positional ['0'] _ .zero ⟨?_, ?_⟩, fun negative => ?_⟩
    · simp [hdigits.1]
    · rw [List.forall_mem_append]
      exact ⟨fun c hc => List.eq_of_mem_replicate hc ▸ rfl, hdigits.2⟩
    · have hvalue : digitsValue (['0'] ++ (List.replicate (-lead - 1).toNat '0' ++ digits))
          = digitsValue digits := by
        rw [← List.append_assoc, ← List.replicate_one, List.replicate_append_replicate,
          Text.digitsValue_zeros_append]
      have hexponent : (0 : Int) - (List.replicate (-lead - 1).toNat '0' ++ digits).length
          = lead + 1 - digits.length := by
        rw [List.length_append, List.length_replicate]
        omega
      rw [hvalue, hexponent, hx]
  · next hlead =>
    dsimp only
    split
    · next hlength =>
      -- zeros between the digits and the point
      have hzeros : IsWhole (digits ++ List.replicate (lead.toNat + 1 - digits.length) '0') := by
        cases hwhole with
        | zero => exact absurd rfl hne
        | nonzero hdigit hc hrest =>
          refine .nonzero hdigit hc (List.forall_mem_append.2 ⟨hrest, fun c hc => ?_⟩)
          exact List.eq_of_mem_replicate hc ▸ rfl
      refine ⟨_, @Spelled.positional _ ['0'] hzeros ⟨by simp, by decide⟩, fun negative => ?_⟩
      have hvalue : digitsValue (digits ++ List.replicate (lead.toNat + 1 - digits.length) '0'
          ++ ['0']) = digitsValue digits * 10 ^ (lead.toNat + 1 - digits.length + 1) := by
        rw [← List.replicate_one, List.append_assoc, List.replicate_append_replicate,
          Text.digitsValue_append_zeros]
      have hexponent : (0 : Int) - (['0'] : List Char).length
            + (lead.toNat + 1 - digits.length + 1 : Nat) = lead + 1 - digits.length := by
        rw [List.length_singleton]
        omega
      rw [hvalue, Binary64.ofDecimal_mul_pow, hexponent, hx]
    · next hlength =>
      have htake : IsWhole (digits.take (lead.toNat + 1)) := by
        cases hwhole with
        | zero => exact absurd rfl hne
        | nonzero hdigit hc hrest =>
          exact .nonzero hdigit hc fun d hd => hrest d (List.mem_of_mem_take hd)
      refine ⟨_, @Spelled.positional _ (digits.drop (lead.toNat + 1)) htake ⟨?_, ?_⟩,
        fun negative => ?_⟩
      · simpa using Nat.not_le.1 hlength
      · exact fun d hd => hdigits.2 d (List.mem_of_mem_drop hd)
      · have hexponent : (0 : Int) - (digits.drop (lead.toNat + 1)).length
            = lead + 1 - digits.length := by
          rw [List.length_drop]
          omega
        rw [List.take_append_drop, hexponent, hx]

/-- Digits with an exponent are one of the forms. The point stands behind the first digit, and is
left out if there is no second one. -/
theorem spelled_scientific (width : Nat) :
    ∃ value, Spelled (scientific width digits lead) value
      ∧ ∀ negative, value negative = .float (x negative) := by
  cases hwhole with
  | zero => exact absurd rfl hne
  | @nonzero c rest hdigit hc hrest =>
    -- the exponent has two digits at least, with a zero before a single one
    have hpower : IsDigits (List.replicate (width - (Nat.toDigits 10 lead.natAbs).length) '0'
        ++ Nat.toDigits 10 lead.natAbs) := by
      refine ⟨by simp [Nat.toDigits_ne_nil], List.forall_mem_append.2 ⟨fun d hd => ?_, ?_⟩⟩
      · exact List.eq_of_mem_replicate hd ▸ rfl
      · exact Text.isDigit_of_mem_toDigits
    have hform := @Spelled.scientific [c] _ _ (.nonzero hdigit hc (by simp)) hrest
      (decide (lead < 0)) hpower
    have htext : scientific width (c :: rest) lead
        = [c] ++ ((if rest.isEmpty then [] else '.' :: rest)
          ++ 'e' :: (if decide (lead < 0) then '-' else '+')
          :: (List.replicate (width - (Nat.toDigits 10 lead.natAbs).length) '0'
            ++ Nat.toDigits 10 lead.natAbs)) := by
      simp [scientific]
    rw [htext]
    refine ⟨_, hform, fun negative => ?_⟩
    -- the point stands after the first digit, so the places behind it count against the exponent
    have hexponent : signed (decide (lead < 0)) lead.natAbs - (rest.length : Int)
        = lead + 1 - (c :: rest).length := by
      rw [List.length_cons, signed_natAbs]
      omega
    rw [Text.digitsValue_zeros_append, Text.digitsValue_toDigits, hexponent]
    exact congrArg Number.float (hx negative)

/-- Digits in the notation that a layout has for them are one of the forms. -/
theorem spelled_layout (layout : Binary64.Layout) :
    ∃ value, Spelled (if layout.positionalFrom ≤ lead && lead < layout.positionalTo then
        positional digits lead else scientific layout.exponentWidth digits lead) value
      ∧ ∀ negative, value negative = .float (x negative) := by
  split
  · exact spelled_positional hwhole hne hx
  · exact spelled_scientific hwhole hne hx layout.exponentWidth

end Digits

/-- **A finite number is written as a sign and one of the forms.** Which of them depends on its
size. -/
theorem exists_spelled {n : Number} (h : n.IsFinite) :
    ∃ negative body value, writeNumber n = signText negative ++ body ∧ Spelled body value
      ∧ value negative = n := by
  cases n with
  | int n =>
    refine ⟨decide (n < 0), _, _, ?_, .integer n.natAbs, ?_⟩
    · simp [writeNumber, Number.digits, signText]
    · exact congrArg Number.int (signed_natAbs n)
  | float x =>
    cases x with
    | nan => exact absurd h id
    | infinity negative => exact absurd h id
    | finite negative m e hcanonical =>
      by_cases hm : m = 0
      -- zero has a spelling of its own
      · subst hm
        have hzero : e = -1074 := hcanonical.2.1.resolve_left (by decide)
        subst hzero
        refine ⟨negative, ['0', '.', '0'], _, rfl,
          @Spelled.positional ['0'] ['0'] .zero ⟨by simp, by decide⟩, rfl⟩
      -- any other number is laid out around the point, or with a power of ten
      · obtain ⟨c, rest, hsignificant, hc⟩ :=
          Binary64.significant_eq_cons (Binary64.shortest_fst_pos hcanonical hm)
        have hall : ∀ d ∈ significant (shortest m e).1, d.isDigit = true :=
          fun d hd => Binary64.isDigit_of_mem_significant hd
        have hwhole : IsWhole (significant (shortest m e).1) := by
          rw [hsignificant] at hall ⊢
          exact .nonzero (hall c List.mem_cons_self) hc fun d hd => hall d (List.mem_cons_of_mem c hd)
        have hne : (significant (shortest m e).1).head? ≠ some '0' := by
          rw [hsignificant]
          exact fun heq => hc (Option.some.inj heq)
        have hread : ∀ negative, Binary64.ofDecimal negative
            (digitsValue (significant (shortest m e).1))
            ((Binary64.digitCount (shortest m e).1 : Int) - 1 + (shortest m e).2 + 1
              - (significant (shortest m e).1).length) = .finite negative m e hcanonical := by
          intro negative
          rw [← Binary64.ofDecimal_significant hcanonical hm negative]
          congr 1
          omega
        obtain ⟨value, hspelled, hvalue⟩ := spelled_layout hwhole hne hread layout
        exact ⟨negative, _, value, if_neg hm, hspelled, hvalue negative⟩

/-- A finite number is written as strict JSON. -/
theorem isNumber_writeNumber {n : Number} (h : n.IsFinite) : IsNumber (writeNumber n) := by
  obtain ⟨negative, body, value, htext, hspelled, -⟩ := exists_spelled h
  rw [htext]
  exact hspelled.isNumber negative

/-- A form begins with a digit, and so the reader of values takes it for a number. -/
theorem Spelled.head_isDigit {body : List Char} {value : Bool → Number} (h : Spelled body value) :
    ∃ c rest, body = c :: rest ∧ c.isDigit = true := by
  have hbegin : ∀ {whole : List Char}, IsWhole whole → ∀ rest,
      ∃ c more, whole ++ rest = c :: more ∧ c.isDigit = true := by
    intro whole hwhole rest
    cases hwhole with
    | zero => exact ⟨'0', rest, rfl, rfl⟩
    | nonzero hdigit _ _ => exact ⟨_, _, rfl, hdigit⟩
  cases h with
  | integer n => simpa using hbegin (isWhole_toDigits n) []
  | positional hwhole _ => exact hbegin hwhole _
  | scientific hwhole _ _ _ => exact hbegin hwhole _

/-- No literal begins with a digit, also after a sign. The reader tries the literals first, and
among them is the negative infinity. -/
theorem findSome?_literals {c : Char} (hc : c.isDigit = true) (negative : Bool) (rest : List Char) :
    (literals.findSome? fun (word, v) =>
      (Text.dropStart? word (signText negative ++ c :: rest)).map fun rest => (v, rest)) = none := by
  have hne : ∀ d, d.isDigit = false → d ≠ c := by
    rintro d hd rfl
    exact absurd hc (by simp [hd])
  have hletters : ∀ d ∈ ['n', 't', 'f', 'N', 'I', '-'], d ≠ c := by
    intro d hd
    have hall : ∀ d ∈ ['n', 't', 'f', 'N', 'I', '-'], d.isDigit = false := by decide
    exact hne d (hall d hd)
  simp only [List.forall_mem_cons] at hletters
  obtain ⟨hn, ht, hf, hN, hI, hminus, -⟩ := hletters
  cases negative <;> simp [literals, signText, Text.dropStart?, hn, ht, hf, hN, hI, hminus]

/-- A digit begins a number, and so does a minus before it. This brings the reader of values down to
that of numbers. -/
theorem readScalar_digit {c : Char} (hc : c.isDigit = true) (negative : Bool) (rest : List Char) :
    readScalar (signText negative ++ c :: rest)
      = (readUnsigned negative (c :: rest)).map fun found => (.number found.1, found.2) := by
  have hnone := findSome?_literals hc negative rest
  unfold readScalar
  rw [hnone]
  cases negative with
  | true => rfl
  | false =>
    dsimp only [signText]
    split
    · next heq =>
      -- a minus is no digit
      rw [(List.cons.inj heq).1] at hc
      exact absurd hc (by decide)
    · rfl

/-- **A number is read as it was written**, whatever ends it. For numbers that are not finite there
are words, and the reader knows these too. -/
theorem readScalar_writeNumber {n : Number} (hfits : n.Fits) {rest : List Char}
    (hrest : EndsNumber rest) : readScalar (writeNumber n ++ rest) = some (.number n, rest) := by
  by_cases hfinite : n.IsFinite
  · obtain ⟨negative, body, value, htext, hspelled, rfl⟩ := exists_spelled hfinite
    have hread := hspelled.readUnsigned hfits hrest
    obtain ⟨c, more, rfl, hc⟩ := hspelled.head_isDigit
    rw [List.cons_append] at hread
    rw [htext, List.append_assoc, List.cons_append, readScalar_digit hc, hread]
    rfl
  · cases n with
    | int n => exact absurd trivial hfinite
    | float x =>
      cases x with
      | nan => rfl
      | infinity negative => cases negative <;> rfl
      | finite => exact absurd trivial hfinite

end Json

end BlockTheme
