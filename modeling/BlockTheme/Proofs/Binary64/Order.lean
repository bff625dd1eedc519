import BlockTheme.Proofs.Binary64.Shortest

/-!
# Rounding keeps the order

Finite numbers that are not negative are ordered by their values (`lt_finite_iff`), and no two of
them have the same value (`eq_of_magnitude_eq`). Rounding to an integer is monotone, and so is
rounding to the format: of two quotients the smaller one becomes the smaller number, or both become
the same one (`ofRatio_eq_or_lt`).
-/

namespace BlockTheme.Binary64

/-! ## Comparing numbers -/

theorem lt_finite_iff {m k : Nat} {e f : Int} {hm : Canonical m e} {hk : Canonical k f} :
    (finite false m e hm).lt (finite false k f hk) = true ↔ magnitude m e < magnitude k f := by
  have hpos : (0 : ℚ) < (ratio m e).2 := by exact_mod_cast ratio_snd_pos m e
  have hpos' : (0 : ℚ) < (ratio k f).2 := by exact_mod_cast ratio_snd_pos k f
  rw [← ratio_eq_magnitude, ← ratio_eq_magnitude, div_lt_div_iff₀ hpos hpos']
  simp only [lt, signed, Bool.false_eq_true, if_false, decide_eq_true_eq]
  norm_cast

/-- A number is not both less and more than another. By cases on both: nothing compares with what is
no number, infinities compare by their signs, and the others by their values, which are integers
over one power of two. -/
theorem lt_asymm {x y : Binary64} (h : x.lt y = true) : y.lt x = false := by
  -- nothing is compared with what is no number, and infinities by their signs alone
  cases x with
  | nan => simp [lt] at h
  | infinity s =>
    cases y with
    | nan => simp [lt] at h
    | infinity t =>
      simp only [lt, Bool.and_eq_true, Bool.not_eq_true'] at h
      simp [lt, h.2]
    | finite t k f hk => simpa [lt] using h
  | finite s m e hm =>
    cases y with
    | nan => simp [lt] at h
    | infinity t => simpa [lt] using h
    | finite t k f hk =>
      simp only [lt, decide_eq_true_eq] at h
      simp only [lt, decide_eq_false_iff_not]
      omega

/-- A value is written in one way. Of two canonical forms of a value the one with the larger
exponent would have a smaller mantissa, which its last place does not allow; so the exponents agree,
and with them the mantissas. -/
theorem eq_of_magnitude_eq {m k : Nat} {e f : Int} (hm : Canonical m e) (hk : Canonical k f)
    (h : magnitude m e = magnitude k f) : finite false m e hm = finite false k f hk := by
  have hpow : (2 : ℚ) ^ e ≠ 0 := by positivity
  have hpow' : (2 : ℚ) ^ f ≠ 0 := by positivity
  rcases Nat.eq_zero_or_pos m with rfl | hpos
  · -- zero has the least exponent
    obtain rfl : k = 0 := by simpa [magnitude, hpow', eq_comm] using h
    obtain rfl : e = -1074 := by simpa using hm.2.1
    obtain rfl : f = -1074 := by simpa using hk.2.1
    rfl
  · have hne : k ≠ 0 := by
      rintro rfl
      simp [magnitude, hpow, hpos.ne'] at h
    have hleft := ofRatio_of_value hm hpos.ne' (ratio_snd_pos m e) (ratio_eq_magnitude m e) false
    have hright := ofRatio_of_value hk hne (ratio_snd_pos m e) ((ratio_eq_magnitude m e).trans h)
      false
    exact hleft.symm.trans hright

/-! ## Rounding two quotients -/

theorem roundHalfEven_mono {n d n' d' : Nat} (hd : 0 < d) (hd' : 0 < d') (h : n * d' ≤ n' * d) :
    roundHalfEven n d ≤ roundHalfEven n' d' := by
  have hfloor : n / d ≤ n' / d' := by
    rw [Nat.le_div_iff_mul_le hd']
    refine Nat.le_of_mul_le_mul_right ?_ hd
    calc n / d * d' * d = n / d * d * d' := Nat.mul_right_comm _ _ _
      _ ≤ n * d' := Nat.mul_le_mul_right d' (Nat.div_mul_le_self n d)
      _ ≤ n' * d := h
  have hbounds := roundHalfEven_bounds n d
  have hbounds' := roundHalfEven_bounds n' d'
  rcases Nat.lt_or_eq_of_le hfloor with hlt | heq
  · omega
  -- with the same integer part the remainders decide
  have hrest : n % d * d' ≤ n' % d' * d := by
    have hn := Nat.div_add_mod n d
    have hn' := Nat.div_add_mod n' d'
    rw [← hn, ← hn', heq] at h
    nlinarith
  have hcross : d ≤ 2 * (n % d) → d' ≤ 2 * (n' % d') := by
    intro hhalf
    refine Nat.le_of_mul_le_mul_left ?_ hd
    nlinarith
  have hcross' : d < 2 * (n % d) → d' < 2 * (n' % d') := by
    intro hhalf
    refine Nat.lt_of_mul_lt_mul_left (a := d) ?_
    nlinarith
  unfold roundHalfEven
  simp only
  rw [heq]
  split_ifs <;> omega

section Quotients

variable {num den num' den' : Nat} (hnum : 0 < num) (hden : 0 < den) (hnum' : 0 < num')
  (hden' : 0 < den') (hle : (num : ℚ) / den ≤ num' / den')

include hnum hden hnum' hden' hle

theorem lastPlace_mono : lastPlace num den ≤ lastPlace num' den' := by
  obtain ⟨hlow, -⟩ := floorLog2_spec hnum hden
  obtain ⟨-, hhigh⟩ := floorLog2_spec hnum' hden'
  have hlt : floorLog2 num den < floorLog2 num' den' + 1 :=
    (zpow_lt_zpow_iff_right₀ (by norm_num)).1 ((hlow.trans hle).trans_lt hhigh)
  exact max_le_max (by omega) le_rfl

/-- A smaller quotient has no larger value after rounding. With equal last places the rounding
itself is monotone; with different ones the larger quotient has reached a power of two that the
smaller one cannot pass, even when it is rounded up. -/
theorem magnitude_mantissa_mono :
    magnitude (mantissa num den) (lastPlace num den)
      ≤ magnitude (mantissa num' den') (lastPlace num' den') := by
  rcases (lastPlace_mono hnum hden hnum' hden' hle).lt_or_eq with hlt | heq
  · -- in a lower place there are at most as many units as fill the higher one
    have hfull : 2 ^ 52 ≤ mantissa num' den' := by
      refine le_mantissa hnum' hden' ((max_choice _ _).resolve_right fun hleast => ?_)
      have hbelow : -1074 ≤ lastPlace num den := le_max_right _ _
      have hplace : lastPlace num' den' = -1074 := hleast
      omega
    have hmost : ((mantissa num den : Nat) : ℚ) ≤ 2 ^ 53 := by exact_mod_cast mantissa_le hnum hden
    have hleast : (2 : ℚ) ^ 52 ≤ (mantissa num' den' : Nat) := by exact_mod_cast hfull
    calc (mantissa num den : ℚ) * (2 : ℚ) ^ lastPlace num den
        ≤ 2 ^ 53 * (2 : ℚ) ^ lastPlace num den := by gcongr
      _ = 2 ^ 52 * (2 : ℚ) ^ (lastPlace num den + 1) := by
        rw [zpow_add₀ (by norm_num)]
        ring
      _ ≤ 2 ^ 52 * (2 : ℚ) ^ lastPlace num' den' := by
        gcongr
        · norm_num
        · omega
      _ ≤ (mantissa num' den' : ℚ) * (2 : ℚ) ^ lastPlace num' den' := by gcongr
  -- in one place the larger quotient has at least as many units
  · have hround : mantissa num den ≤ mantissa num' den' := by
      have hpos : (0 : ℚ) < (scale num den (lastPlace num den)).2 := by
        exact_mod_cast scale_snd_pos num hden _
      have hpos' : (0 : ℚ) < (scale num' den' (lastPlace num' den')).2 := by
        exact_mod_cast scale_snd_pos num' hden' _
      have hscaled : ((scale num den (lastPlace num den)).1 : ℚ)
          / (scale num den (lastPlace num den)).2
          ≤ (scale num' den' (lastPlace num' den')).1
            / (scale num' den' (lastPlace num' den')).2 := by
        rw [scale_eq, scale_eq, heq]
        gcongr
      rw [div_le_div_iff₀ hpos hpos'] at hscaled
      exact roundHalfEven_mono (scale_snd_pos num hden _) (scale_snd_pos num' hden' _)
        (by exact_mod_cast hscaled)
    rw [magnitude, magnitude, heq]
    gcongr

end Quotients

/-- A positive quotient inside the range becomes a finite number with the rounded value. -/
theorem exists_ofRatio_eq {num den : Nat} (hnum : 0 < num) (hden : 0 < den)
    (hrange : (num : ℚ) / den < range) :
    ∃ m e, ∃ h : Canonical m e, ofRatio false num den = .finite false m e h
      ∧ magnitude m e = magnitude (mantissa num den) (lastPlace num den) := by
  rw [ofRatio_eq false hnum.ne']
  split
  · next hcarry =>
    exact ⟨_, _, canonical_carry hnum hden hrange, dif_pos _, magnitude_carry hcarry⟩
  · next hcarry => exact ⟨_, _, canonical_mantissa hnum hden hcarry hrange, dif_pos _, rfl⟩

/-- **Of two quotients the smaller one becomes the smaller number, or both become the same.**
Rounding is monotone. -/
theorem ofRatio_eq_or_lt {num den num' den' : Nat} (hnum : 0 < num) (hden : 0 < den)
    (hnum' : 0 < num') (hden' : 0 < den') (hle : (num : ℚ) / den ≤ num' / den')
    (hrange : (num' : ℚ) / den' < range) :
    ofRatio false num den = ofRatio false num' den'
      ∨ (ofRatio false num den).lt (ofRatio false num' den') = true := by
  obtain ⟨m, e, hm, heq, hvalue⟩ := exists_ofRatio_eq hnum hden (hle.trans_lt hrange)
  obtain ⟨k, f, hk, heq', hvalue'⟩ := exists_ofRatio_eq hnum' hden' hrange
  rw [heq, heq']
  have hmono := magnitude_mantissa_mono hnum hden hnum' hden' hle
  rw [← hvalue, ← hvalue'] at hmono
  rcases hmono.lt_or_eq with hlt | hsame
  · exact Or.inr (lt_finite_iff.2 hlt)
  · exact Or.inl (eq_of_magnitude_eq hm hk hsame)

end BlockTheme.Binary64
