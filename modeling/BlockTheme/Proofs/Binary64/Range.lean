import BlockTheme.Proofs.Rounding

/-!
# Which integers are too large for the format

The largest number of the format is `(2 ^ 53 - 1) * 2 ^ 971`. What lies in the middle between it and
the next power of two, or further out, is rounded to an infinity (`infinite_ofInt_iff`).
-/

namespace BlockTheme.Binary64

/-- The least natural number that is rounded to an infinity: half a unit of the last place above the
largest number of the format. -/
def leastBeyond : Nat := (2 ^ 54 - 1) * 2 ^ 970

/-- Below a full power of two only the upper half of the last unit is rounded up to it. A tie is, as
the integer below is odd. -/
theorem roundHalfEven_eq_pow_iff {n d : Nat} {k : Nat} (hd : 0 < d) (hn : n < 2 ^ (k + 1) * d) :
    roundHalfEven n d = 2 ^ (k + 1) ↔ (2 ^ (k + 2) - 1) * d ≤ 2 * n := by
  have hq : n / d < 2 ^ (k + 1) := (Nat.div_lt_iff_lt_mul hd).2 hn
  have hdiv := Nat.div_add_mod n d
  have hmod := Nat.mod_lt n hd
  have hpow : 2 ^ (k + 2) = 2 * 2 ^ (k + 1) := by rw [Nat.pow_succ' (n := k + 1)]
  have heven : 2 ^ (k + 1) % 2 = 0 := by rw [Nat.pow_succ, Nat.mul_mod_left]
  rw [hpow]
  generalize 2 ^ (k + 1) = full at hn hq heven ⊢
  by_cases hlast : n / d + 1 = full
  · -- the last integer below the power: what is left over decides
    have hprod : (2 * full - 1) * d = 2 * (d * (n / d)) + d := by
      rw [← hlast, show 2 * (n / d + 1) - 1 = 2 * (n / d) + 1 by omega, Nat.add_mul, Nat.mul_assoc,
        Nat.mul_comm (n / d), Nat.one_mul]
    unfold roundHalfEven
    simp only
    split_ifs <;> omega
  -- two below the power, rounding cannot reach it
  · have hbelow : n / d + 2 ≤ full := by omega
    have hround := (roundHalfEven_bounds n d).2
    have hprod : (n / d + 1) * d + d ≤ full * d := by
      rw [← Nat.succ_mul]
      exact Nat.mul_le_mul_right d hbelow
    have hsucc : (n / d + 1) * d = d * (n / d) + d := by rw [Nat.succ_mul, Nat.mul_comm]
    refine iff_of_false (by omega) fun hle => ?_
    rw [Nat.sub_mul, Nat.mul_assoc] at hle
    omega

theorem scale_natCast (n k : Nat) : scale n 1 k = (n, 2 ^ k) := by
  rw [scale, if_pos (Int.natCast_nonneg _), Int.toNat_natCast, Nat.one_mul]
  rfl

theorem floorLog2_one {n : Nat} (hn : n ≠ 0) : floorLog2 n 1 = n.log2 := by
  show (if (scale n 1 ((n.log2 : Int) - Nat.log2 1)).2 ≤ (scale n 1 ((n.log2 : Int) - Nat.log2 1)).1
    then (n.log2 : Int) - Nat.log2 1 else (n.log2 : Int) - Nat.log2 1 - 1) = n.log2
  rw [show (Nat.log2 1 : Int) = 0 by decide, Int.sub_zero, scale_natCast]
  exact if_pos (Nat.log2_self_le hn)

/-- The last place of an integer is far above the least one of the format. -/
theorem lastPlace_one {n : Nat} (hn : n ≠ 0) : lastPlace n 1 = n.log2 - 52 := by
  rw [lastPlace, floorLog2_one hn]
  omega

theorem pack_eq_infinity {m : Nat} {e : Int} (negative : Bool) (he : 971 < e) :
    pack negative m e = .infinity negative :=
  dif_neg fun h => absurd h.2.2.2 (by omega)

theorem pack_ne_infinity {m : Nat} {e : Int} {negative : Bool} (h : Canonical m e) (other : Bool) :
    pack negative m e ≠ .infinity other := by
  rw [pack, dif_pos h]
  intro heq
  cases heq

section Integers

variable {n : Nat} (negative other : Bool)

theorem ne_zero_of_pow_le {k : Nat} (h : 2 ^ k ≤ n) : n ≠ 0 :=
  (lt_of_lt_of_le (pow_pos Nat.two_pos k) h).ne'

/-- Where the last place of the format is not reached, there is room for a carry. -/
theorem ofRatio_one_ne_infinity (hn : n ≠ 0) (hsmall : n < 2 ^ 1023) :
    ofRatio negative n 1 ≠ .infinity other := by
  have hpos := Nat.pos_of_ne_zero hn
  have hrange : (n : ℚ) / (1 : Nat) < range := by
    rw [Nat.cast_one, div_one, range_eq, zpow_ofNat]
    exact_mod_cast hsmall
  rw [ofRatio_eq negative hn]
  split
  · exact pack_ne_infinity (canonical_carry hpos Nat.one_pos hrange) other
  · next hcarry =>
    exact pack_ne_infinity (canonical_mantissa hpos Nat.one_pos hcarry hrange) other

/-- In the last place of the format everything depends on the carry. An integer with 1024 binary
digits keeps the first 53 of them, and only if these are rounded up to the next power of two does it
leave the range. -/
theorem infinite_ofRatio_iff_carry (hlog : n.log2 = 1023) :
    (∃ sign, ofRatio negative n 1 = .infinity sign) ↔ (2 ^ 54 - 1) * 2 ^ 971 ≤ 2 * n := by
  have hn : n ≠ 0 := by
    intro hzero
    rw [hzero, Nat.log2_zero] at hlog
    cases hlog
  have hpos := Nat.pos_of_ne_zero hn
  -- the exponent is the largest one, and only rounding up can leave the range
  have hplace : lastPlace n 1 = 971 := by
    rw [lastPlace_one hn, hlog]
    decide
  have hscale : scale n 1 971 = (n, 2 ^ 971) := scale_natCast n 971
  have hbelow : n < 2 ^ (52 + 1) * 2 ^ 971 := by
    rw [← pow_add, ← Nat.log2_lt hn, hlog]
    decide
  have hcarry : mantissa n 1 = 2 ^ 53 ↔ (2 ^ 54 - 1) * 2 ^ 971 ≤ 2 * n := by
    rw [mantissa, hplace, hscale]
    exact roundHalfEven_eq_pow_iff (pow_pos Nat.two_pos 971) hbelow
  rw [← hcarry, ofRatio_eq negative hn, hplace]
  split
  · next h => exact iff_of_true ⟨negative, pack_eq_infinity negative (by decide)⟩ h
  · next h =>
    have hfull : 2 ^ 52 ≤ mantissa n 1 := by
      refine le_mantissa hpos Nat.one_pos ?_
      rw [lastPlace_one hn, floorLog2_one hn]
    -- without the carry the mantissa has its 53 places and the number is written as it is
    have hmost : mantissa n 1 < 2 ^ 53 := lt_of_le_of_ne (mantissa_le hpos Nat.one_pos) h
    have hcanonical : Canonical (mantissa n 1) 971 := ⟨hmost, .inl hfull, by decide, by decide⟩
    refine iff_of_false ?_ h
    intro ⟨sign, hinfinite⟩
    exact pack_ne_infinity hcanonical sign hinfinite

/-- Beyond the last place of the format there are no numbers. -/
theorem infinite_ofRatio (hlarge : 2 ^ 1024 ≤ n) :
    ∃ sign, ofRatio negative n 1 = .infinity sign := by
  have hn := ne_zero_of_pow_le hlarge
  have hlog := (Nat.le_log2 hn).2 hlarge
  have hplace := lastPlace_one hn
  rw [ofRatio_eq negative hn]
  split
  · exact ⟨negative, pack_eq_infinity negative (by omega)⟩
  · exact ⟨negative, pack_eq_infinity negative (by omega)⟩

/-- **A natural number is rounded to an infinity exactly if it is not below the least one beyond.**
That is halfway between the largest number of the format and the power of two behind it. -/
theorem infinite_ofRatio_iff :
    (∃ sign, ofRatio negative n 1 = .infinity sign) ↔ leastBeyond ≤ n := by
  have hpos : 0 < 2 ^ 970 := pow_pos Nat.two_pos 970
  have hunit : 2 ^ 971 = 2 * 2 ^ 970 := by rw [← pow_succ']
  have hhalf : 2 ^ 1023 = 2 ^ 53 * 2 ^ 970 := by rw [← pow_add]
  have htop : 2 ^ 1024 = 2 ^ 54 * 2 ^ 970 := by rw [← pow_add]
  rcases Nat.lt_or_ge n (2 ^ 1023) with hsmall | hlarge
  · refine iff_of_false ?_ ?_
    · intro ⟨sign, hinfinite⟩
      by_cases hn : n = 0
      · rw [hn, ofRatio, if_pos rfl, zero] at hinfinite
        cases hinfinite
      · exact ofRatio_one_ne_infinity negative sign hn hsmall hinfinite
    · rw [leastBeyond, Nat.not_le]
      rw [hhalf] at hsmall
      generalize 2 ^ 970 = unit at hpos hsmall ⊢
      omega
  rcases Nat.lt_or_ge n (2 ^ 1024) with hbelow | hbeyond
  -- in the last range of the format a carry decides
  · have hn := ne_zero_of_pow_le hlarge
    have hlog : n.log2 = 1023 := by
      have hlow := (Nat.le_log2 hn).2 hlarge
      have hhigh := (Nat.log2_lt hn).2 hbelow
      omega
    rw [infinite_ofRatio_iff_carry negative hlog, leastBeyond, hunit]
    generalize 2 ^ 970 = unit
    omega
  -- beyond the last power of two everything is infinite
  · refine iff_of_true (infinite_ofRatio negative hbeyond) ?_
    rw [leastBeyond]
    rw [htop] at hbeyond
    generalize 2 ^ 970 = unit at hbeyond ⊢
    omega

end Integers

theorem infinite_ofInt_iff (n : Int) :
    (∃ sign, ofInt n = .infinity sign) ↔ leastBeyond ≤ n.natAbs :=
  infinite_ofRatio_iff _

end BlockTheme.Binary64
