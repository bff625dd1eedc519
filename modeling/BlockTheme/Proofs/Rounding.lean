import BlockTheme.Binary64
import Mathlib.Algebra.Order.Field.Power
import Mathlib.Data.Rat.Cast.Order
import Mathlib.Tactic.Linarith
import Mathlib.Tactic.NormNum
import Mathlib.Tactic.Positivity
import Mathlib.Tactic.Ring

/-!
# How far rounding goes up

Binary64 operations are exact quotients that are rounded once, by `ofRatio`. The value of a finite
number is the rational `magnitude`, and `rounded_ofRatio` bounds what rounding adds to a quotient
inside the range of the format: at most one part in 2^53, and half of the least positive number.
-/

namespace BlockTheme.Binary64

/-- The value of a finite number without its sign. -/
def magnitude (mantissa : Nat) (exponent : Int) : ℚ := mantissa * (2 : ℚ) ^ exponent

/-- Quotients below this bound are rounded to finite numbers. -/
@[irreducible] def range : ℚ := (2 : ℚ) ^ (1023 : Int)

theorem range_eq : range = (2 : ℚ) ^ (1023 : Int) := by
  rw [range]

/-! ## Quotients as pairs of naturals -/

/-- Powers with integer exponents are powers with natural ones, or inverses of such. -/
theorem zpow_of_nonneg (base : ℚ) {e : Int} (he : 0 ≤ e) : base ^ e = base ^ e.toNat := by
  rw [← zpow_natCast, Int.toNat_of_nonneg he]

theorem zpow_of_neg (base : ℚ) {e : Int} (he : ¬0 ≤ e) : base ^ e = (base ^ (-e).toNat)⁻¹ := by
  rw [← zpow_of_nonneg base (by omega), zpow_neg, inv_inv]

theorem ratio_snd_pos (m : Nat) (e : Int) : 0 < (ratio m e).2 := by
  unfold ratio
  split
  · exact Nat.one_pos
  · exact Nat.two_pow_pos _

theorem ratio_eq_magnitude (m : Nat) (e : Int) :
    ((ratio m e).1 : ℚ) / (ratio m e).2 = magnitude m e := by
  unfold ratio magnitude
  split
  · next he => simp [zpow_of_nonneg 2 he]
  · next he => simp [zpow_of_neg 2 he, div_eq_mul_inv]

theorem scale_snd_pos (num : Nat) {den : Nat} (hden : 0 < den) (e : Int) :
    0 < (scale num den e).2 := by
  unfold scale
  split
  · exact Nat.mul_pos hden (Nat.two_pow_pos _)
  · exact hden

theorem scale_eq (num den : Nat) (e : Int) :
    ((scale num den e).1 : ℚ) / (scale num den e).2 = (num : ℚ) / den / (2 : ℚ) ^ e := by
  unfold scale
  split
  · next he => simp [zpow_of_nonneg 2 he, div_div]
  · next he => simp [zpow_of_neg 2 he, div_mul_eq_mul_div]

/-- The power of two below a positive quotient, and the next one above it. The lengths of the two
numbers give the exponent up to one, and a comparison of products decides. -/
theorem floorLog2_spec {num den : Nat} (hnum : 0 < num) (hden : 0 < den) :
    (2 : ℚ) ^ floorLog2 num den ≤ (num : ℚ) / den
      ∧ (num : ℚ) / den < (2 : ℚ) ^ (floorLog2 num den + 1) := by
  have hden' : (0 : ℚ) < den := by exact_mod_cast hden
  have hnumLow : ((2 : ℚ) ^ (num.log2 : Int)) ≤ num := by
    rw [zpow_natCast]
    exact_mod_cast Nat.log2_self_le (by omega)
  have hnumHigh : (num : ℚ) < (2 : ℚ) ^ ((num.log2 : Int) + 1) := by
    rw [← Nat.cast_succ, zpow_natCast]
    exact_mod_cast Nat.lt_log2_self
  have hdenLow : ((2 : ℚ) ^ (den.log2 : Int)) ≤ den := by
    rw [zpow_natCast]
    exact_mod_cast Nat.log2_self_le (by omega)
  have hdenHigh : (den : ℚ) < (2 : ℚ) ^ ((den.log2 : Int) + 1) := by
    rw [← Nat.cast_succ, zpow_natCast]
    exact_mod_cast Nat.lt_log2_self
  set guess : Int := (num.log2 : Int) - den.log2 with hguess
  -- the guess is off by one at most
  have hlow : (2 : ℚ) ^ (guess - 1) ≤ (num : ℚ) / den := by
    rw [le_div_iff₀ hden']
    calc (2 : ℚ) ^ (guess - 1) * den
        ≤ (2 : ℚ) ^ (guess - 1) * (2 : ℚ) ^ ((den.log2 : Int) + 1) := by gcongr
      _ = (2 : ℚ) ^ (num.log2 : Int) := by
        rw [← zpow_add₀ (by norm_num)]
        congr 1
        omega
      _ ≤ num := hnumLow
  have hhigh : (num : ℚ) / den < (2 : ℚ) ^ (guess + 1) := by
    rw [div_lt_iff₀ hden']
    calc (num : ℚ) < (2 : ℚ) ^ ((num.log2 : Int) + 1) := hnumHigh
      _ = (2 : ℚ) ^ (guess + 1) * (2 : ℚ) ^ (den.log2 : Int) := by
        rw [← zpow_add₀ (by norm_num)]
        congr 1
        omega
      _ ≤ (2 : ℚ) ^ (guess + 1) * den := by gcongr
  have hscale := scale_eq num den guess
  have hpos : (0 : ℚ) < (scale num den guess).2 := by exact_mod_cast scale_snd_pos num hden guess
  have hpow : (0 : ℚ) < (2 : ℚ) ^ guess := by positivity
  have hfloor : floorLog2 num den
      = if (scale num den guess).2 ≤ (scale num den guess).1 then guess else guess - 1 := rfl
  rw [hfloor]
  split
  · next hle =>
    refine ⟨?_, hhigh⟩
    have hone : (1 : ℚ) ≤ (scale num den guess).1 / (scale num den guess).2 := by
      rw [le_div_iff₀ hpos]
      simpa using (by exact_mod_cast hle : ((scale num den guess).2 : ℚ) ≤ (scale num den guess).1)
    rw [hscale, le_div_iff₀ hpow] at hone
    linarith
  · next hlt =>
    refine ⟨hlow, ?_⟩
    have hone : ((scale num den guess).1 : ℚ) / (scale num den guess).2 < 1 := by
      rw [div_lt_one hpos]
      exact_mod_cast Nat.lt_of_not_le hlt
    rw [hscale, div_lt_one hpow] at hone
    rw [Int.sub_add_cancel]
    exact hone

/-! ## Rounding -/

/-- Rounding to an integer adds a half at most. This side is the one that matters for the share of
keys, which must not become too large. -/
theorem roundHalfEven_le {n d : Nat} (hd : 0 < d) :
    (roundHalfEven n d : ℚ) ≤ (n : ℚ) / d + 1 / 2 := by
  -- all three cases round up by half of the divisor at most
  have hnat : 2 * (d * roundHalfEven n d) ≤ 2 * n + d := by
    have hdiv := Nat.div_add_mod n d
    have hmod := Nat.mod_lt n hd
    unfold roundHalfEven
    simp only
    split
    · omega
    · split
      · rw [Nat.mul_add]
        omega
      · have hparity : n / d % 2 = 0 ∨ n / d % 2 = 1 := by omega
        rcases hparity with h | h <;> rw [h, Nat.mul_add] <;> omega
  have hd' : (0 : ℚ) < d := by exact_mod_cast hd
  have hrat : 2 * ((d : ℚ) * roundHalfEven n d) ≤ 2 * n + d := by exact_mod_cast hnat
  rw [← sub_le_iff_le_add, le_div_iff₀ hd']
  linarith

/-- Rounding to an integer goes no further than to the next one, and never below the integer
part. -/
theorem roundHalfEven_bounds (n d : Nat) :
    n / d ≤ roundHalfEven n d ∧ roundHalfEven n d ≤ n / d + 1 := by
  unfold roundHalfEven
  simp only
  split
  · omega
  · split <;> omega

/-- What becomes of a value that is not negative: a finite number up to a bound, or the infinity, if
the value is out of range. -/
inductive Rounded (value bound : ℚ) : Binary64 → Prop
  | finite {m : Nat} {e : Int} (h : Canonical m e) (hle : magnitude m e ≤ bound) :
      Rounded value bound (.finite false m e h)
  | infinity (hrange : range ≤ value) : Rounded value bound (.infinity false)

theorem Rounded.mono {value value' bound bound' : ℚ} {x : Binary64} (h : Rounded value bound x)
    (hvalue : value ≤ value') (hbound : bound ≤ bound') : Rounded value' bound' x := by
  cases h with
  | finite h hle => exact .finite h (hle.trans hbound)
  | infinity hrange => exact .infinity (hrange.trans hvalue)

/-- A mantissa and an exponent that are rounded make a number that is, or none of the format. -/
theorem Rounded.pack {value bound : ℚ} {m : Nat} {e : Int} (hle : magnitude m e ≤ bound)
    (hcanonical : value < range → Canonical m e) : Rounded value bound (pack false m e) := by
  unfold Binary64.pack
  split
  · exact .finite _ hle
  · next h => exact .infinity (le_of_not_gt fun hlt => h (hcanonical hlt))

/-! ## Rounding quotients -/

/-- The exponent of the last place of a quotient in the format. -/
def lastPlace (num den : Nat) : Int := max (floorLog2 num den - 52) (-1074)

/-- The mantissa of a rounded quotient, before a carry. -/
def mantissa (num den : Nat) : Nat :=
  roundHalfEven (scale num den (lastPlace num den)).1 (scale num den (lastPlace num den)).2

/-- A quotient is rounded to its mantissa, with a carry if that is one too many. -/
theorem ofRatio_eq (negative : Bool) {num : Nat} (hnum : num ≠ 0) (den : Nat) :
    ofRatio negative num den
      = if mantissa num den = 2 ^ 53 then pack negative (2 ^ 52) (lastPlace num den + 1)
        else pack negative (mantissa num den) (lastPlace num den) := by
  unfold ofRatio
  rw [if_neg hnum]
  rfl

section Quotient

variable {num den : Nat} (hnum : 0 < num) (hden : 0 < den)

include hnum hden

/-- The scaled quotient has at most 53 bits before the point, and rounding it up can make it the
next power of two, but no more. -/
theorem mantissa_le : mantissa num den ≤ 2 ^ 53 := by
  obtain ⟨-, hhigh⟩ := floorLog2_spec hnum hden
  have hd := scale_snd_pos num hden (lastPlace num den)
  have hd' : (0 : ℚ) < (scale num den (lastPlace num den)).2 := by exact_mod_cast hd
  have hpow : (0 : ℚ) < (2 : ℚ) ^ lastPlace num den := by positivity
  have hplace : floorLog2 num den - 52 ≤ lastPlace num den := le_max_left _ _
  -- before the rounding the number of units is below the power, so the rounding can only reach it
  have hlt : ((scale num den (lastPlace num den)).1 : ℚ) / (scale num den (lastPlace num den)).2
      < 2 ^ 53 := by
    rw [scale_eq, div_lt_iff₀ hpow]
    calc (num : ℚ) / den < (2 : ℚ) ^ (floorLog2 num den + 1) := hhigh
      _ ≤ (2 : ℚ) ^ ((53 : Int) + lastPlace num den) :=
        zpow_le_zpow_right₀ (by norm_num) (by omega)
      _ = 2 ^ 53 * (2 : ℚ) ^ lastPlace num den := by
        rw [zpow_add₀ (by norm_num)]
        norm_cast
  rw [div_lt_iff₀ hd'] at hlt
  have hint := (Nat.div_lt_iff_lt_mul hd).2 (by exact_mod_cast hlt)
  have hround := (roundHalfEven_bounds (scale num den (lastPlace num den)).1
    (scale num den (lastPlace num den)).2).2
  unfold mantissa
  omega

/-- A quotient that is not below the least place has all its 53 bits before the point. -/
theorem le_mantissa (hplace : lastPlace num den = floorLog2 num den - 52) :
    2 ^ 52 ≤ mantissa num den := by
  obtain ⟨hlow, -⟩ := floorLog2_spec hnum hden
  have hd := scale_snd_pos num hden (lastPlace num den)
  have hd' : (0 : ℚ) < (scale num den (lastPlace num den)).2 := by exact_mod_cast hd
  have hpow : (0 : ℚ) < (2 : ℚ) ^ lastPlace num den := by positivity
  -- the leading binary place of the number is the 53rd one above the unit
  have hle : (2 : ℚ) ^ 52
      ≤ ((scale num den (lastPlace num den)).1 : ℚ) / (scale num den (lastPlace num den)).2 := by
    rw [scale_eq, le_div_iff₀ hpow, hplace]
    calc (2 : ℚ) ^ 52 * (2 : ℚ) ^ (floorLog2 num den - 52)
        = (2 : ℚ) ^ ((52 : Int) + (floorLog2 num den - 52)) := by
          rw [zpow_add₀ (by norm_num)]
          norm_cast
      _ = (2 : ℚ) ^ floorLog2 num den := by
        congr 1
        omega
      _ ≤ (num : ℚ) / den := hlow
  rw [le_div_iff₀ hd'] at hle
  have hint := (Nat.le_div_iff_mul_le hd).2 (by exact_mod_cast hle)
  exact hint.trans (roundHalfEven_bounds _ _).1

/-- The last place is worth at most one part in 2^52 of the quotient, or it is the least one. This
is the relative error of the format, with the absolute one for numbers near zero. -/
theorem lastPlace_le :
    (2 : ℚ) ^ lastPlace num den ≤ (num : ℚ) / den * (1 / 2 ^ 52) + (2 : ℚ) ^ (-1074 : Int) := by
  obtain ⟨hlow, -⟩ := floorLog2_spec hnum hden
  rcases max_choice (floorLog2 num den - 52) (-1074) with hmax | hmax
  · rw [lastPlace, hmax, zpow_sub₀ (by norm_num)]
    have hle : (2 : ℚ) ^ floorLog2 num den / (2 : ℚ) ^ (52 : Int) ≤ (num : ℚ) / den / 2 ^ 52 := by
      rw [zpow_ofNat]
      gcongr
    have hpos : (0 : ℚ) < (2 : ℚ) ^ (-1074 : Int) := by positivity
    linarith
  · rw [lastPlace, hmax]
    have hpos : 0 ≤ (num : ℚ) / den * (1 / 2 ^ 52) := by positivity
    linarith

/-- What rounding adds is half a unit of the last place: relative to the quotient, or to the least
place of the format. -/
theorem magnitude_mantissa_le :
    magnitude (mantissa num den) (lastPlace num den)
      ≤ (num : ℚ) / den * (1 + 1 / 2 ^ 53) + (2 : ℚ) ^ (-1075 : Int) := by
  have hplace := lastPlace_le hnum hden
  have hpow : (0 : ℚ) < (2 : ℚ) ^ lastPlace num den := by positivity
  -- rounding adds half a unit at most
  have hhalf : (mantissa num den : ℚ)
      ≤ (num : ℚ) / den / (2 : ℚ) ^ lastPlace num den + 1 / 2 := by
    rw [← scale_eq]
    exact roundHalfEven_le (scale_snd_pos num hden _)
  have hmul : magnitude (mantissa num den) (lastPlace num den)
      ≤ (num : ℚ) / den + (2 : ℚ) ^ lastPlace num den / 2 := by
    calc (mantissa num den : ℚ) * (2 : ℚ) ^ lastPlace num den
        ≤ ((num : ℚ) / den / (2 : ℚ) ^ lastPlace num den + 1 / 2)
          * (2 : ℚ) ^ lastPlace num den := by gcongr
      _ = (num : ℚ) / den + (2 : ℚ) ^ lastPlace num den / 2 := by
        rw [add_mul, div_mul_cancel₀ _ hpow.ne', one_div_mul_eq_div]
  -- the unit is a share of the number itself, or the least unit of the format
  have htwice : (num : ℚ) / den * (1 / 2 ^ 52) = 2 * ((num : ℚ) / den * (1 / 2 ^ 53)) := by ring
  have hleast : (2 : ℚ) ^ (-1074 : Int) = 2 * (2 : ℚ) ^ (-1075 : Int) := by
    rw [show (-1074 : Int) = 1 + -1075 from rfl, zpow_add₀ (by norm_num), zpow_one]
  linarith

/-- The last place of a quotient inside the range is one of the format, with room for a carry. -/
theorem lastPlace_bounds (hrange : (num : ℚ) / den < range) :
    -1074 ≤ lastPlace num den ∧ lastPlace num den < 971 := by
  obtain ⟨hlow, -⟩ := floorLog2_spec hnum hden
  have hlt : (2 : ℚ) ^ floorLog2 num den < (2 : ℚ) ^ (1023 : Int) := by
    calc (2 : ℚ) ^ floorLog2 num den ≤ (num : ℚ) / den := hlow
      _ < (2 : ℚ) ^ (1023 : Int) := range_eq ▸ hrange
  have hfloor : floorLog2 num den < 1023 := (zpow_lt_zpow_iff_right₀ (by norm_num)).1 hlt
  exact ⟨le_max_right _ _, max_lt (by omega) (by omega)⟩

/-- Without a carry the rounded quotient is a number of the format. -/
theorem canonical_mantissa (hcarry : mantissa num den ≠ 2 ^ 53) (hrange : (num : ℚ) / den < range) :
    Canonical (mantissa num den) (lastPlace num den) := by
  obtain ⟨hleast, hmost⟩ := lastPlace_bounds hnum hden hrange
  refine ⟨lt_of_le_of_ne (mantissa_le hnum hden) hcarry, ?_, by omega, by omega⟩
  rcases max_choice (floorLog2 num den - 52) (-1074) with hmax | hmax
  · exact Or.inl (le_mantissa hnum hden hmax)
  · exact Or.inr hmax

/-- After a carry the last place is the next one. -/
theorem canonical_carry (hrange : (num : ℚ) / den < range) :
    Canonical (2 ^ 52) (lastPlace num den + 1) := by
  obtain ⟨hleast, hmost⟩ := lastPlace_bounds hnum hden hrange
  exact ⟨by norm_num, Or.inl le_rfl, by omega, by omega⟩

end Quotient

/-- A carry makes the number one bit longer and keeps its value. -/
theorem magnitude_carry {num den : Nat} (hcarry : mantissa num den = 2 ^ 53) :
    magnitude (2 ^ 52) (lastPlace num den + 1)
      = magnitude (mantissa num den) (lastPlace num den) := by
  rw [magnitude, magnitude, hcarry, zpow_add₀ (by norm_num)]
  push_cast
  ring

/-- **A quotient is rounded to a finite number, unless it is out of range**, and what rounding adds
is at most one part in 2^53 and half of the least positive number. -/
theorem rounded_ofRatio (num : Nat) {den : Nat} (hden : 0 < den) :
    Rounded ((num : ℚ) / den) ((num : ℚ) / den * (1 + 1 / 2 ^ 53) + (2 : ℚ) ^ (-1075 : Int))
      (ofRatio false num den) := by
  by_cases hzero : num = 0
  · subst hzero
    refine .finite (m := 0) (e := -1074) (by decide) ?_
    simp [magnitude]
  have hnum := Nat.pos_of_ne_zero hzero
  have hbound := magnitude_mantissa_le hnum hden
  rw [ofRatio_eq false hzero]
  split
  · next hcarry =>
    exact .pack (magnitude_carry hcarry ▸ hbound) (canonical_carry hnum hden)
  · next hcarry => exact .pack hbound (canonical_mantissa hnum hden hcarry)

/-- The ceiling of a finite number that is not negative stays below one more than its value. With an
exponent that is not negative the number is an integer already. -/
theorem ceil_lt {m : Nat} {e : Int} (h : Canonical m e) :
    ∃ z : Nat, ceil (.finite false m e h) = .ok z ∧ (z : ℚ) < magnitude m e + 1 := by
  have hd := ratio_snd_pos m e
  have hd' : (0 : ℚ) < (ratio m e).2 := by exact_mod_cast hd
  refine ⟨((ratio m e).1 + (ratio m e).2 - 1) / (ratio m e).2, ?_, ?_⟩
  · simp [ceil]
  · rw [← ratio_eq_magnitude]
    set n := (ratio m e).1
    set d := (ratio m e).2
    have hnat : d * ((n + d - 1) / d) < n + d := by
      have := Nat.mul_div_le (n + d - 1) d
      omega
    have hrat : (d : ℚ) * ((n + d - 1) / d : Nat) < n + d := by exact_mod_cast hnat
    rw [← sub_lt_iff_lt_add, lt_div_iff₀ hd']
    linarith

/-- Only a value out of range has no ceiling. -/
theorem Rounded.ceil {value bound : ℚ} {x : Binary64} (h : Rounded value bound x) :
    (∃ z : Nat, x.ceil = .ok z ∧ (z : ℚ) < bound + 1)
      ∨ (x.ceil = .error .infinite ∧ range ≤ value) := by
  cases h with
  | finite h hle =>
    obtain ⟨z, hz, hlt⟩ := ceil_lt h
    exact Or.inl ⟨z, hz, by linarith⟩
  | infinity hrange => exact Or.inr ⟨rfl, hrange⟩

end BlockTheme.Binary64
