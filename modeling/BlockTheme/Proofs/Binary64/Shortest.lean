import BlockTheme.Binary64.Shortest
import BlockTheme.Proofs.Rounding
import BlockTheme.Proofs.Text.Digits
import Mathlib.Data.List.TakeWhile

/-!
# Decimals that read back

A quotient is rounded by its value alone (`ofRatio_congr`), and one that is the value of a number of
the format is rounded to that number (`ofRatio_of_value`). So the digits that a number is written with
read back as the number (`ofDecimal_shortest`), also after the zeros at their end are dropped
(`ofDecimal_significant`).
-/

namespace BlockTheme.Binary64

/-! ## Rounding goes by the value -/

theorem roundHalfEven_mul_right (n d : Nat) {c : Nat} (hc : 0 < c) :
    roundHalfEven (n * c) (d * c) = roundHalfEven n d := by
  have hbelow : 2 * (n % d * c) < d * c ↔ 2 * (n % d) < d := by
    rw [← Nat.mul_assoc, Nat.mul_lt_mul_right hc]
  have habove : d * c < 2 * (n % d * c) ↔ d < 2 * (n % d) := by
    rw [← Nat.mul_assoc, Nat.mul_lt_mul_right hc]
  unfold roundHalfEven
  simp only [Nat.mul_div_mul_right _ _ hc, Nat.mul_mod_mul_right, hbelow, habove]

/-- Rounding a quotient depends on its value alone: both quotients are brought to one denominator.
-/
theorem roundHalfEven_congr {n d n' d' : Nat} (hd : 0 < d) (hd' : 0 < d')
    (h : (n : ℚ) / d = n' / d') : roundHalfEven n d = roundHalfEven n' d' := by
  have hcross : n * d' = n' * d := by
    have hpos : (d : ℚ) ≠ 0 := by exact_mod_cast hd.ne'
    have hpos' : (d' : ℚ) ≠ 0 := by exact_mod_cast hd'.ne'
    rw [div_eq_div_iff hpos hpos'] at h
    exact_mod_cast h
  calc roundHalfEven n d = roundHalfEven (n * d') (d * d') := (roundHalfEven_mul_right n d hd').symm
    _ = roundHalfEven (n' * d) (d' * d) := by rw [hcross, Nat.mul_comm d d']
    _ = roundHalfEven n' d' := roundHalfEven_mul_right n' d' hd

/-- The power of two below a quotient and the next one above it say what its logarithm is. -/
theorem floorLog2_eq {num den : Nat} (hnum : 0 < num) (hden : 0 < den) {e : Int}
    (hlow : (2 : ℚ) ^ e ≤ (num : ℚ) / den) (hhigh : (num : ℚ) / den < (2 : ℚ) ^ (e + 1)) :
    floorLog2 num den = e := by
  obtain ⟨hlow', hhigh'⟩ := floorLog2_spec hnum hden
  have hlt : e < floorLog2 num den + 1 :=
    (zpow_lt_zpow_iff_right₀ (by norm_num)).1 (hlow.trans_lt hhigh')
  have hlt' : floorLog2 num den < e + 1 :=
    (zpow_lt_zpow_iff_right₀ (by norm_num)).1 (hlow'.trans_lt hhigh)
  omega

section Congr

variable {num den num' den' : Nat} (hnum : 0 < num) (hden : 0 < den) (hnum' : 0 < num')
  (hden' : 0 < den') (h : (num : ℚ) / den = num' / den')

include hnum hden hnum' hden' h

/-- The last place of a quotient depends on its value. -/
theorem lastPlace_congr : lastPlace num den = lastPlace num' den' := by
  obtain ⟨hlow, hhigh⟩ := floorLog2_spec hnum' hden'
  rw [lastPlace, lastPlace, floorLog2_eq hnum hden (h ▸ hlow) (h ▸ hhigh)]

theorem mantissa_congr : mantissa num den = mantissa num' den' := by
  rw [mantissa, mantissa, lastPlace_congr hnum hden hnum' hden' h]
  refine roundHalfEven_congr (scale_snd_pos _ hden _) (scale_snd_pos _ hden' _) ?_
  rw [scale_eq, scale_eq, h]

end Congr

/-- **A quotient is rounded by its value.** Place and mantissa depend on it alone, by the lemmas
above. -/
theorem ofRatio_congr (negative : Bool) {num den num' den' : Nat} (hden : 0 < den) (hden' : 0 < den')
    (h : (num : ℚ) / den = num' / den') :
    ofRatio negative num den = ofRatio negative num' den' := by
  have hpos : (0 : ℚ) < den := by exact_mod_cast hden
  have hpos' : (0 : ℚ) < den' := by exact_mod_cast hden'
  rcases Nat.eq_zero_or_pos num with rfl | hnum
  · -- zero has one value only
    have hzero : num' = 0 := by
      rw [Nat.cast_zero, zero_div, eq_comm, div_eq_zero_iff] at h
      exact_mod_cast h.resolve_right hpos'.ne'
    rw [hzero, ofRatio, ofRatio, if_pos rfl, if_pos rfl]
  · have hnum' : 0 < num' := by
      refine Nat.pos_of_ne_zero fun hzero => ?_
      rw [hzero, Nat.cast_zero, zero_div, div_eq_zero_iff] at h
      exact hnum.ne' (by exact_mod_cast h.resolve_right hpos.ne')
    rw [ofRatio_eq negative hnum.ne', ofRatio_eq negative hnum'.ne',
      mantissa_congr hnum hden hnum' hden' h, lastPlace_congr hnum hden hnum' hden' h]

theorem magnitude_pos {m : Nat} (hm : m ≠ 0) (e : Int) : 0 < magnitude m e := by
  have hpos : (0 : ℚ) < m := by exact_mod_cast Nat.pos_of_ne_zero hm
  unfold magnitude
  positivity

/-- A quotient with the value of such a number is not zero either. -/
theorem pos_of_value {m : Nat} (hm : m ≠ 0) {e : Int} {num den : Nat}
    (h : (num : ℚ) / den = magnitude m e) : 0 < num := by
  refine Nat.pos_of_ne_zero fun hzero => ?_
  have hpos := magnitude_pos hm e
  rw [← h, hzero, Nat.cast_zero, zero_div] at hpos
  exact lt_irrefl _ hpos

/-- The last place of the value of a number is its exponent: a canonical mantissa has all its 53
places, or else the exponent is the least one. -/
theorem lastPlace_of_value {m : Nat} {e : Int} (hcanonical : Canonical m e) (hm : m ≠ 0)
    {num den : Nat} (hden : 0 < den) (h : (num : ℚ) / den = magnitude m e) :
    lastPlace num den = e := by
  obtain ⟨hlt, hfull, hleast, -⟩ := hcanonical
  have hnum := pos_of_value hm h
  have hlt' : (m : ℚ) < (2 : ℚ) ^ (53 : Int) := by
    rw [zpow_ofNat]
    exact_mod_cast hlt
  have hpow : (0 : ℚ) < (2 : ℚ) ^ e := by positivity
  have hhigh : (num : ℚ) / den < (2 : ℚ) ^ (53 + e) := by
    rw [h, magnitude, zpow_add₀ (by norm_num)]
    exact mul_lt_mul_of_pos_right hlt' hpow
  -- a mantissa is full, or the exponent is the least one
  rcases hfull with hfull | rfl
  · have hfull' : (2 : ℚ) ^ (52 : Int) ≤ m := by
      rw [zpow_ofNat]
      exact_mod_cast hfull
    have hlow : (2 : ℚ) ^ (52 + e) ≤ (num : ℚ) / den := by
      rw [h, magnitude, zpow_add₀ (by norm_num)]
      exact mul_le_mul_of_nonneg_right hfull' hpow.le
    have hsucc : (52 : Int) + e + 1 = 53 + e := by omega
    rw [lastPlace, floorLog2_eq hnum hden hlow (hsucc ▸ hhigh)]
    omega
  · -- below the full mantissa the least exponent is the place
    obtain ⟨hlow, -⟩ := floorLog2_spec hnum hden
    have hfloor : floorLog2 num den < 53 + -1074 :=
      (zpow_lt_zpow_iff_right₀ (by norm_num)).1 (hlow.trans_lt hhigh)
    rw [lastPlace]
    omega

/-- **The value of a number of the format is rounded to that number.** Its mantissa is a whole
number, so that rounding changes nothing. -/
theorem ofRatio_of_value {m : Nat} {e : Int} (hcanonical : Canonical m e) (hm : m ≠ 0)
    {num den : Nat} (hden : 0 < den) (h : (num : ℚ) / den = magnitude m e) (negative : Bool) :
    ofRatio negative num den = .finite negative m e hcanonical := by
  have hplace := lastPlace_of_value hcanonical hm hden h
  have hpow : (2 : ℚ) ^ e ≠ 0 := by positivity
  have hexact : ((scale num den e).1 : ℚ) / (scale num den e).2 = (m : ℚ) / (1 : Nat) := by
    rw [scale_eq, h, magnitude, mul_div_assoc, div_self hpow, mul_one, Nat.cast_one, div_one]
  have hround : roundHalfEven m 1 = m := by simp [roundHalfEven, Nat.mod_one]
  have hmantissa : mantissa num den = m := by
    rw [mantissa, hplace, roundHalfEven_congr (scale_snd_pos _ hden _) Nat.one_pos hexact, hround]
  have hlt : m ≠ 2 ^ 53 := hcanonical.1.ne
  rw [ofRatio_eq negative (pos_of_value hm h).ne', hmantissa, hplace, if_neg hlt, pack,
    dif_pos hcanonical]

/-! ## Signs -/

/-- A number with another sign. -/
def withSign (negative : Bool) : Binary64 → Binary64
  | .nan => .nan
  | .infinity _ => .infinity negative
  | .finite _ m e h => .finite negative m e h

theorem pack_withSign (negative : Bool) (m : Nat) (e : Int) :
    pack negative m e = (pack false m e).withSign negative := by
  unfold pack
  split <;> rfl

/-- A quotient is rounded to the same number with either sign. -/
theorem ofRatio_withSign (negative : Bool) (num den : Nat) :
    ofRatio negative num den = (ofRatio false num den).withSign negative := by
  by_cases hnum : num = 0
  · rw [ofRatio, ofRatio, if_pos hnum, if_pos hnum]
    rfl
  · rw [ofRatio_eq negative hnum, ofRatio_eq false hnum]
    split
    · exact pack_withSign negative _ _
    · exact pack_withSign negative _ _

/-! ## Decimals -/

/-- The value of digits with a power of ten. -/
def decimal (digits : Nat) (exponent : Int) : ℚ := digits * (10 : ℚ) ^ exponent

/-- Numerator and denominator of a decimal. -/
def decimalRatio (digits : Nat) (exponent : Int) : Nat × Nat :=
  if 0 ≤ exponent then (digits * Nat.pow 10 exponent.toNat, 1)
  else (digits, Nat.pow 10 (-exponent).toNat)

/-- The denominator of a decimal is a power of ten. -/
theorem decimalRatio_snd_pos (digits : Nat) (exponent : Int) :
    0 < (decimalRatio digits exponent).2 := by
  unfold decimalRatio
  split
  · exact Nat.one_pos
  · exact Nat.pow_pos (by decide)

theorem decimalRatio_eq (digits : Nat) (exponent : Int) :
    ((decimalRatio digits exponent).1 : ℚ) / (decimalRatio digits exponent).2
      = decimal digits exponent := by
  unfold decimalRatio decimal
  split
  · next he => simp [zpow_of_nonneg 10 he]
  · next he => simp [zpow_of_neg 10 he, div_eq_mul_inv]

/-- A decimal is rounded as its quotient, unless it is known without that. -/
theorem ofDecimal_eq (negative : Bool) (digits : Nat) (exponent : Int) :
    ofDecimal negative digits exponent
      = if digits = 0 then zero negative
        else if 310 < (digitCount digits : Int) + exponent then .infinity negative
        else if (digitCount digits : Int) + exponent < -330 then zero negative
        else ofRatio negative (decimalRatio digits exponent).1 (decimalRatio digits exponent).2 := by
  unfold ofDecimal decimalRatio
  dsimp only
  split_ifs <;> rfl

theorem ofDecimal_withSign (negative : Bool) (digits : Nat) (exponent : Int) :
    ofDecimal negative digits exponent = (ofDecimal false digits exponent).withSign negative := by
  rw [ofDecimal_eq, ofDecimal_eq]
  split_ifs
  · rfl
  · rfl
  · rfl
  · exact ofRatio_withSign negative _ _

/-- **Zeros at the end of the digits and the exponent make up for each other.** So trailing zeros
can be dropped when a number is written. -/
theorem ofDecimal_mul_pow (negative : Bool) (digits k : Nat) (exponent : Int) :
    ofDecimal negative (digits * 10 ^ k) exponent
      = ofDecimal negative digits (exponent + k) := by
  rcases Nat.eq_zero_or_pos digits with rfl | hpos
  · simp [ofDecimal]
  · have hproduct : digits * 10 ^ k ≠ 0 := (Nat.mul_pos hpos (Nat.pow_pos (by decide))).ne'
    -- zeros behind the digits move from the number of digits to the exponent
    have hcount : ((digitCount (digits * 10 ^ k) : Nat) : Int) + exponent
        = digitCount digits + (exponent + k) := by
      rw [digitCount_mul_pow hpos]
      omega
    have hvalue : decimal (digits * 10 ^ k) exponent = decimal digits (exponent + k) := by
      rw [decimal, decimal, zpow_add₀ (by norm_num), zpow_natCast]
      push_cast
      ring
    -- both are the same ratio, though not in the same terms
    have hratio := ofRatio_congr negative (decimalRatio_snd_pos (digits * 10 ^ k) exponent)
      (decimalRatio_snd_pos digits (exponent + k))
      (by rw [decimalRatio_eq, decimalRatio_eq, hvalue])
    rw [ofDecimal_eq, ofDecimal_eq, if_neg hproduct, if_neg hpos.ne', hcount, hratio]

/-- The ends of the format between powers of ten. -/
theorem two_pow_lt_ten_pow : 2 ^ 1024 < 10 ^ 309 ∧ 2 ^ 1074 < 10 ^ 324 := by
  decide +kernel

/-- A decimal with the value of a number of the format is read as that number. The early ways out of
the reader are for decimals far outside of the range, which a value of the format is not; what is
left is rounding a quotient that needs no rounding. -/
theorem ofDecimal_of_value {m : Nat} {e : Int} (hcanonical : Canonical m e) (hm : m ≠ 0)
    {digits : Nat} {exponent : Int} (h : decimal digits exponent = magnitude m e)
    (negative : Bool) : ofDecimal negative digits exponent = .finite negative m e hcanonical := by
  have hpos := magnitude_pos hm e
  -- there are digits, as the number is not zero
  have hdigits : 0 < digits := by
    refine Nat.pos_of_ne_zero fun hzero => ?_
    rw [← h, decimal, hzero, Nat.cast_zero, zero_mul] at hpos
    exact lt_irrefl _ hpos
  obtain ⟨hlt, -, hleast, hmost⟩ := hcanonical
  have hten : (0 : ℚ) < (10 : ℚ) ^ exponent := by positivity
  -- the format ends below ten to the 309th
  have hhigh : (digitCount digits : Int) + exponent ≤ 310 := by
    have hlow : (10 : ℚ) ^ ((digitCount digits : Int) - 1 + exponent) ≤ decimal digits exponent := by
      have hcount : 0 < digitCount digits := Nat.length_toDigits_pos
      have hcast : (10 : ℚ) ^ ((digitCount digits : Int) - 1) ≤ digits := by
        have hsub : ((digitCount digits : Int) - 1) = ((digitCount digits - 1 : Nat) : Int) := by
          omega
        rw [hsub, zpow_natCast]
        exact_mod_cast pow_digitCount_le hdigits
      rw [decimal, zpow_add₀ (by norm_num)]
      exact mul_le_mul_of_nonneg_right hcast hten.le
    have hbound : magnitude m e < (10 : ℚ) ^ (309 : Int) := by
      rw [zpow_ofNat]
      have hm' : (m : ℚ) < (2 : ℚ) ^ (53 : Int) := by
        rw [zpow_ofNat]
        exact_mod_cast hlt
      -- the largest number of the format
      calc magnitude m e = m * (2 : ℚ) ^ e := rfl
        _ ≤ m * (2 : ℚ) ^ (971 : Int) := by
          gcongr
          norm_num
        _ < (2 : ℚ) ^ (53 : Int) * (2 : ℚ) ^ (971 : Int) := by gcongr
        _ = (2 : ℚ) ^ 1024 := by rw [← zpow_add₀ (by norm_num), ← zpow_natCast]; rfl
        _ < (10 : ℚ) ^ 309 := by exact_mod_cast two_pow_lt_ten_pow.1
    have hexp : (digitCount digits : Int) - 1 + exponent < 309 :=
      (zpow_lt_zpow_iff_right₀ (by norm_num)).1 ((hlow.trans_eq h).trans_lt hbound)
    omega
  -- and begins above ten to the -324th
  have hlow : -330 ≤ (digitCount digits : Int) + exponent := by
    have hup : decimal digits exponent < (10 : ℚ) ^ ((digitCount digits : Int) + exponent) := by
      have hcast : (digits : ℚ) < (10 : ℚ) ^ (digitCount digits : Int) := by
        rw [zpow_natCast]
        exact_mod_cast lt_pow_digitCount digits
      rw [decimal, zpow_add₀ (by norm_num)]
      exact mul_lt_mul_of_pos_right hcast hten
    have hbound : (10 : ℚ) ^ (-324 : Int) < magnitude m e := by
      have hone : (1 : ℚ) ≤ m := by exact_mod_cast Nat.one_le_iff_ne_zero.2 hm
      have hleastPow : (10 : ℚ) ^ (-324 : Int) < (2 : ℚ) ^ (-1074 : Int) := by
        rw [zpow_neg, zpow_neg, zpow_ofNat, zpow_ofNat, inv_lt_inv₀ (by positivity) (by positivity)]
        exact_mod_cast two_pow_lt_ten_pow.2
      calc (10 : ℚ) ^ (-324 : Int) < (2 : ℚ) ^ (-1074 : Int) := hleastPow
        _ ≤ (2 : ℚ) ^ e := zpow_le_zpow_right₀ (by norm_num) hleast
        _ ≤ m * (2 : ℚ) ^ e := le_mul_of_one_le_left (by positivity) hone
    have hexp : (-324 : Int) < (digitCount digits : Int) + exponent :=
      (zpow_lt_zpow_iff_right₀ (by norm_num)).1 (hbound.trans_eq h.symm |>.trans hup)
    omega
  rw [ofDecimal_eq, if_neg hdigits.ne', if_neg (by omega), if_neg (by omega)]
  exact ofRatio_of_value _ hm (decimalRatio_snd_pos _ _) ((decimalRatio_eq _ _).trans h) negative

/-! ## The shortest decimal -/

theorem exactDecimal_value (m : Nat) (e : Int) :
    decimal (exactDecimal m e).1 (exactDecimal m e).2 = magnitude m e := by
  unfold exactDecimal decimal magnitude
  split
  · next he => simp [zpow_of_nonneg 2 he]
  · next he =>
    have hten : (10 : ℚ) ^ (-e).toNat = 5 ^ (-e).toNat * 2 ^ (-e).toNat := by
      rw [← mul_pow]
      norm_num
    have hfive : (5 : ℚ) ^ (-e).toNat ≠ 0 := by positivity
    rw [zpow_of_neg 10 he, zpow_of_neg 2 he, hten, Nat.pow_eq]
    push_cast
    rw [mul_inv, ← mul_assoc, mul_inv_cancel_right₀ hfive]

/-- Digits that were tried and found to read back do read back. This is all that the search for the
shortest digits has to be known for: whatever it tries, it keeps nothing that was not tested. -/
theorem ofDecimal_withDigits? {m : Nat} {e : Int} (hcanonical : Canonical m e) {count digits : Nat}
    {exponent : Int} (h : withDigits? m e count = some (digits, exponent)) :
    ofDecimal false digits exponent = .finite false m e hcanonical := by
  have hpack : pack false m e = .finite false m e hcanonical := dif_pos hcanonical
  -- digits are only taken if they read back as the number
  have hchoose : ∀ (near far : Nat) (k : Int),
      (if ofDecimal false near k = pack false m e then some (near, k)
        else if ofDecimal false far k = pack false m e then some (far, k) else none)
          = some (digits, exponent) →
        ofDecimal false digits exponent = pack false m e := by
    intro near far k hsome
    split at hsome
    · next hnear =>
      obtain ⟨rfl, rfl⟩ := Prod.mk.inj (Option.some.inj hsome)
      exact hnear
    · split at hsome
      · next hfar =>
        obtain ⟨rfl, rfl⟩ := Prod.mk.inj (Option.some.inj hsome)
        exact hfar
      · simp at hsome
  exact (hchoose _ _ _ h).trans hpack

/-- **The decimal that a number is written with is read as the number.** Either fewer digits were
tried and found to read back, or the exact decimal is taken, which has the value of the number. -/
theorem ofDecimal_shortest {m : Nat} {e : Int} (hcanonical : Canonical m e) (hm : m ≠ 0)
    (negative : Bool) :
    ofDecimal negative (shortest m e).1 (shortest m e).2 = .finite negative m e hcanonical := by
  unfold shortest
  cases hfound : (List.range' 1 17).findSome? (withDigits? m e) with
  | none => exact ofDecimal_of_value hcanonical hm (exactDecimal_value m e) negative
  | some found =>
    obtain ⟨count, -, hcount⟩ := List.exists_of_findSome?_eq_some hfound
    rw [ofDecimal_withSign]
    show (ofDecimal false found.1 found.2).withSign negative = _
    rw [ofDecimal_withDigits? hcanonical hcount]
    rfl

/-- The digits that are found are no zeros in all places. -/
theorem shortest_fst_pos {m : Nat} {e : Int} (hcanonical : Canonical m e) (hm : m ≠ 0) :
    0 < (shortest m e).1 := by
  refine Nat.pos_of_ne_zero fun hzero => ?_
  have hread := ofDecimal_shortest hcanonical hm false
  rw [hzero, ofDecimal_eq, if_pos rfl, zero] at hread
  injection hread with _ hm'
  exact hm hm'.symm

/-! ## Significant digits -/

/-- The digits of a number are the significant ones with zeros after them. How many there are does
not matter, since the exponent makes up for them (`ofDecimal_mul_pow`). -/
theorem significant_append_zeros (n : Nat) :
    ∃ k, significant n ++ List.replicate k '0' = Nat.toDigits 10 n := by
  refine ⟨((Nat.toDigits 10 n).reverse.takeWhile (· == '0')).length, ?_⟩
  have hzeros : (Nat.toDigits 10 n).reverse.takeWhile (· == '0')
      = List.replicate ((Nat.toDigits 10 n).reverse.takeWhile (· == '0')).length '0' := by
    refine List.eq_replicate_of_mem fun c hc => ?_
    simpa using List.mem_takeWhile_imp hc
  have hsplit := congrArg List.reverse
    (List.takeWhile_append_dropWhile (p := (· == '0')) (l := (Nat.toDigits 10 n).reverse))
  rw [List.reverse_append, List.reverse_reverse] at hsplit
  rw [significant, ← List.reverse_replicate, ← hzeros]
  exact hsplit

/-- The significant digits of a positive number begin with another digit than zero, so that they are
the whole part of a JSON number. -/
theorem significant_eq_cons {n : Nat} (h : 0 < n) :
    ∃ c rest, significant n = c :: rest ∧ c ≠ '0' := by
  obtain ⟨k, hzeros⟩ := significant_append_zeros n
  obtain ⟨c, rest, hdigits, hc⟩ := Text.toDigits_eq_cons h
  rw [hdigits] at hzeros
  cases hsignificant : significant n with
  | nil =>
    rw [hsignificant, List.nil_append] at hzeros
    have hmem : c ∈ List.replicate k '0' := hzeros ▸ List.mem_cons_self
    exact absurd (List.eq_of_mem_replicate hmem) hc
  | cons d more =>
    rw [hsignificant, List.cons_append] at hzeros
    exact ⟨d, more, rfl, (List.cons.inj hzeros).1 ▸ hc⟩

/-- **The significant digits of a number, at the place of the leading one, are read as the number.**
These are the digits that are written, in whatever form. -/
theorem ofDecimal_significant {m : Nat} {e : Int} (hcanonical : Canonical m e) (hm : m ≠ 0)
    (negative : Bool) :
    ofDecimal negative (Text.digitsValue (significant (shortest m e).1))
        ((digitCount (shortest m e).1 : Int) + (shortest m e).2
          - (significant (shortest m e).1).length)
      = .finite negative m e hcanonical := by
  obtain ⟨k, hzeros⟩ := significant_append_zeros (shortest m e).1
  have hvalue : Text.digitsValue (significant (shortest m e).1) * 10 ^ k = (shortest m e).1 := by
    rw [← Text.digitsValue_append_zeros, hzeros, Text.digitsValue_toDigits]
  have hcount : (significant (shortest m e).1).length + k = digitCount (shortest m e).1 := by
    have hlength := congrArg List.length hzeros
    rwa [List.length_append, List.length_replicate] at hlength
  have hexponent : (digitCount (shortest m e).1 : Int) + (shortest m e).2
      - (significant (shortest m e).1).length = (shortest m e).2 + k := by
    omega
  rw [hexponent, ← ofDecimal_mul_pow, hvalue]
  exact ofDecimal_shortest hcanonical hm negative

end BlockTheme.Binary64
