import BlockTheme.Proofs.Rounding
import BlockTheme.Recovery.Thresholds

/-!
# The default thresholds

A target never has to share more keys than it has: by default one key of up to three, and of more
keys three tenths, which the roundings of binary64 arithmetic do not bring near all of them
(`required_default_le`). Only a number of keys beyond the range of the format gives no number.
-/

namespace BlockTheme.Recovery.Thresholds

open Binary64

/-- At least one key has to be shared. -/
theorem one_le_of_required {t : Thresholds} {size required : Nat}
    (h : t.required size = .ok required) : 1 ≤ required := by
  unfold Thresholds.required at h
  split at h
  · obtain rfl := Except.ok.inj h
    omega
  · cases hshare : t.share size with
    | error why => simp [hshare, Except.map] at h
    | ok n =>
      simp only [hshare, Except.map, Except.ok.injEq] at h
      omega

/-- By default, one shared key is enough for up to three. -/
theorem required_default_of_le {size : Nat} (h : size ≤ 3) :
    ({} : Thresholds).required size = .ok 1 := by
  have hfew : (size : Int) ≤ ({} : Thresholds).fewKeys := by
    show (size : Int) ≤ 3
    omega
  unfold Thresholds.required
  rw [if_pos hfew]
  rfl

/-- The binary64 number nearest to three tenths. -/
theorem ratio_default :
    ({} : Thresholds).ratio = .finite false 5404319552844595 (-54) (by decide) := by
  decide +kernel

theorem magnitude_ratio_default : magnitude 5404319552844595 (-54) ≤ 31 / 100 := by
  norm_num [magnitude]

/-- The least positive number is far below a billionth. -/
theorem least_le : (2 : ℚ) ^ (-1075 : Int) ≤ 1 / 10 ^ 9 := by
  calc (2 : ℚ) ^ (-1075 : Int) ≤ (2 : ℚ) ^ (-30 : Int) :=
        zpow_le_zpow_right₀ (by norm_num) (by norm_num)
    _ ≤ 1 / 10 ^ 9 := by norm_num

/-- Rounding to nine places adds little to a number: a unit of the ninth place, and the error of the
format. -/
theorem rounded_roundTo {value bound : ℚ} {x : Binary64} (h : Rounded value bound x) :
    Rounded (max value (bound + 1 / 10 ^ 9))
      ((bound + 1 / 10 ^ 9) * (1 + 1 / 2 ^ 53) + 1 / 10 ^ 9) (x.roundTo 9) := by
  cases h with
  | infinity hrange => exact .infinity (hrange.trans (le_max_left _ _))
  | @finite m e h hle =>
    have hround := roundHalfEven_le (n := (Binary64.ratio m e).1 * 10 ^ 9) (ratio_snd_pos m e)
    set num := roundHalfEven ((Binary64.ratio m e).1 * 10 ^ 9) (Binary64.ratio m e).2 with hnum
    have hvalue : (((Binary64.ratio m e).1 * 10 ^ 9 : Nat) : ℚ) / (Binary64.ratio m e).2
        = magnitude m e * 10 ^ 9 := by
      rw [← ratio_eq_magnitude]
      push_cast
      ring
    -- the nearest integral number of billionths is half a billionth away at most
    have hnear : (num : ℚ) / (10 ^ 9 : Nat) ≤ bound + 1 / 10 ^ 9 := by
      rw [hvalue] at hround
      rw [div_le_iff₀ (by norm_num)]
      push_cast
      linarith
    have hleast := least_le
    refine (rounded_ofRatio num (by norm_num : 0 < 10 ^ 9)).mono (hnear.trans (le_max_right _ _)) ?_
    gcongr

/-- A part of a number of keys before it is rounded to an integer. The default share is three
tenths, and with all roundings no more than 33 parts in a hundred. -/
theorem rounded_mul_ratio_default {size : Nat} (hsize : 3 < size) :
    Rounded size (33 / 100 * size) ((Binary64.ofInt size).mul ({} : Thresholds).ratio) := by
  have hfour : (4 : ℚ) ≤ size := by exact_mod_cast hsize
  have hleast := least_le
  have hratio := magnitude_ratio_default
  -- the size itself is rounded once
  have hcount : Rounded size (size * (1 + 1 / 2 ^ 53) + (2 : ℚ) ^ (-1075 : Int))
      (Binary64.ofInt size) := by
    have hsign : decide ((size : Int) < 0) = false := by simp
    rw [Binary64.ofInt, hsign]
    simpa using rounded_ofRatio size Nat.one_pos
  generalize Binary64.ofInt size = count at hcount
  rw [ratio_default]
  cases hcount with
  | infinity hrange => exact .infinity hrange
  | @finite m e h hle =>
    have hquotient :
        ((((Binary64.ratio m e).1 * (Binary64.ratio 5404319552844595 (-54)).1 : Nat) : ℚ)
        / ((Binary64.ratio m e).2 * (Binary64.ratio 5404319552844595 (-54)).2 : Nat))
        = magnitude m e * magnitude 5404319552844595 (-54) := by
      rw [← ratio_eq_magnitude, ← ratio_eq_magnitude]
      push_cast
      rw [div_mul_div_comm]
    have hnonneg : 0 ≤ magnitude m e := by
      unfold magnitude
      positivity
    -- the share of the default is a bit more than three tenths, with its own rounding
    have hproduct : magnitude m e * magnitude 5404319552844595 (-54) ≤ 32 / 100 * size := by
      calc magnitude m e * magnitude 5404319552844595 (-54) ≤ magnitude m e * (31 / 100) := by
            gcongr
        _ ≤ 32 / 100 * size := by linarith
    have hpart := rounded_ofRatio
      ((Binary64.ratio m e).1 * (Binary64.ratio 5404319552844595 (-54)).1)
      (Nat.mul_pos (ratio_snd_pos m e) (ratio_snd_pos 5404319552844595 (-54)))
    rw [hquotient] at hpart
    exact hpart.mono (by linarith) (by linarith)

/-- **Three tenths of more than three keys are no more than all of them**, unless the number of
keys is out of range. -/
theorem share_default_le {size : Nat} (hsize : 3 < size) :
    (∃ z : Nat, ({} : Thresholds).share size = .ok z ∧ z ≤ size)
      ∨ (({} : Thresholds).share size = .error .infinite ∧ range ≤ size) := by
  have hfour : (4 : ℚ) ≤ size := by exact_mod_cast hsize
  have hplaces := rounded_roundTo (rounded_mul_ratio_default hsize)
  rcases hplaces.ceil with ⟨z, hceil, hlt⟩ | ⟨herror, hrange⟩
  · have hz : (z : ℚ) < size := by linarith
    exact Or.inl ⟨z, hceil, by exact_mod_cast hz.le⟩
  · exact Or.inr ⟨herror, hrange.trans (max_le le_rfl (by linarith))⟩

/-- **By default no more keys have to be shared than there are.** A number of keys that is out of
range has no part. -/
theorem required_default_le {size : Nat} (hsize : 0 < size) :
    (∃ required, ({} : Thresholds).required size = .ok required ∧ required ≤ size)
      ∨ (({} : Thresholds).required size = .error .infinite ∧ 2 ^ 1023 ≤ size) := by
  -- three keys or fewer need one in common, more need a share of them
  by_cases hfew : size ≤ 3
  · exact Or.inl ⟨1, required_default_of_le hfew, hsize⟩
  · have hmany : ¬(size : Int) ≤ ({} : Thresholds).fewKeys := by
      show ¬(size : Int) ≤ 3
      omega
    have hrequired : ({} : Thresholds).required size
        = (({} : Thresholds).share size).map fun n => (max 1 n).toNat := by
      unfold Thresholds.required
      rw [if_neg hmany]
    rw [hrequired]
    rcases share_default_le (Nat.lt_of_not_le hfew) with ⟨z, hshare, hle⟩ | ⟨herror, hrange⟩
    · refine Or.inl ⟨max 1 z, ?_, by omega⟩
      simp only [hshare, Except.map, Except.ok.injEq]
      omega
    -- only a size beyond the range of the format has an infinite share
    · have hcast : ((2 ^ 1023 : Nat) : ℚ) ≤ (size : Nat) := by
        rw [Nat.cast_pow]
        rw [range_eq, zpow_ofNat] at hrange
        exact hrange
      exact Or.inr ⟨by simp only [herror, Except.map], Nat.cast_le.1 hcast⟩

end BlockTheme.Recovery.Thresholds
