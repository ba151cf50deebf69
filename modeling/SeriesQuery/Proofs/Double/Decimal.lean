import SeriesQuery.Proofs.Double.Rounding
import SeriesQuery.Proofs.Text.Digits

/-!
# Decimals as numbers

Decimals and doubles are compared as the rational numbers that they stand for. A number has one
decimal without zeros at the end, and the length of its digits tells its size.
-/

namespace SeriesQuery.Double

def Decimal.value (d : Decimal) : ℚ := d.digits * 10 ^ d.scale

/-- The number of digits. -/
def Decimal.length (d : Decimal) : Nat := (Nat.toDigits 10 d.digits).length

/-! ### Exact comparisons -/

theorem cast_power_mul {base : Nat} (hbase : 0 < base) (e : Int) :
    (power base e : ℚ) = base ^ e * power base (-e) := by
  have hne : (power base (-e) : ℚ) ≠ 0 := by exact_mod_cast (power_pos hbase (-e)).ne'
  rw [← power_div_power hbase, div_mul_cancel₀ _ hne]

/-- The two products that are compared are the numbers in question times one factor. -/
theorem exists_scale_factor (a b : Nat) (scale exponent : Int) :
    ∃ factor : ℚ, 0 < factor ∧
      ((a * power 10 scale * power 2 (-exponent) : Nat) : ℚ) = a * 10 ^ scale * factor ∧
      ((b * power 2 exponent * power 10 (-scale) : Nat) : ℚ) = b * 2 ^ exponent * factor := by
  refine ⟨power 10 (-scale) * power 2 (-exponent), ?_, ?_, ?_⟩
  · exact_mod_cast Nat.mul_pos (power_pos (by decide) _) (power_pos (by decide) _)
  · push_cast
    rw [cast_power_mul (by decide) scale]
    push_cast
    ring
  · push_cast
    rw [cast_power_mul (by decide) exponent]
    push_cast
    ring

theorem compareScaled_eq_lt_iff {a b : Nat} {scale exponent : Int} :
    compareScaled a scale b exponent = .lt ↔ (a : ℚ) * 10 ^ scale < b * 2 ^ exponent := by
  obtain ⟨factor, hpos, ha, hb⟩ := exists_scale_factor a b scale exponent
  rw [compareScaled, Nat.compare_eq_lt, ← Nat.cast_lt (α := ℚ), ha, hb, mul_lt_mul_iff_left₀ hpos]

theorem compareScaled_eq_gt_iff {a b : Nat} {scale exponent : Int} :
    compareScaled a scale b exponent = .gt ↔ (b : ℚ) * 2 ^ exponent < a * 10 ^ scale := by
  obtain ⟨factor, hpos, ha, hb⟩ := exists_scale_factor a b scale exponent
  rw [compareScaled, Nat.compare_eq_gt, ← Nat.cast_lt (α := ℚ), ha, hb, mul_lt_mul_iff_left₀ hpos]

theorem compareScaled_eq_eq_iff {a b : Nat} {scale exponent : Int} :
    compareScaled a scale b exponent = .eq ↔ (a : ℚ) * 10 ^ scale = b * 2 ^ exponent := by
  obtain ⟨factor, hpos, ha, hb⟩ := exists_scale_factor a b scale exponent
  rw [compareScaled, Nat.compare_eq_eq, ← Nat.cast_inj (R := ℚ), ha, hb,
    mul_left_inj' hpos.ne']

theorem Interval.contains_iff {i : Interval} {d : Decimal} :
    i.contains d ↔ i.Covers d.value := by
  unfold contains Covers Decimal.value
  simp only [Bool.or_eq_true, Bool.and_eq_true, beq_iff_eq, compareScaled_eq_lt_iff,
    compareScaled_eq_gt_iff, compareScaled_eq_eq_iff]

/-! ### Zeros at the end -/

namespace Decimal

theorem value_pos_iff {d : Decimal} : 0 < d.value ↔ 0 < d.digits := by
  have hunit : (0 : ℚ) < 10 ^ d.scale := by positivity
  rw [value, mul_pos_iff_of_pos_right hunit, Nat.cast_pos]

/-- A zero at the end can be left out. -/
theorem value_div_ten {d : Decimal} (h : d.digits % 10 = 0) :
    (⟨d.digits / 10, d.scale + 1⟩ : Decimal).value = d.value := by
  have hdigits : (d.digits : ℚ) = (d.digits / 10 : Nat) * 10 := by
    exact_mod_cast (Nat.div_mul_cancel (Nat.dvd_of_mod_eq_zero h)).symm
  rw [value, value, hdigits, zpow_add_one₀ (by norm_num)]
  ring

theorem value_normalize (fuel : Nat) (d : Decimal) : (normalize fuel d).value = d.value := by
  induction fuel generalizing d with
  | zero => rfl
  | succ fuel ih =>
    unfold normalize
    split
    next h => rw [ih, value_div_ten h.2]
    next => rfl

theorem normalize_of_mod_ten_ne_zero {d : Decimal} (h : d.digits % 10 ≠ 0) (fuel : Nat) :
    d.normalize fuel = d := by
  cases fuel with
  | zero => rfl
  | succ fuel => exact if_neg fun hzero => h hzero.2

theorem digits_eq_of_value_eq {a b : Decimal} {k : Nat} (hvalue : a.value = b.value)
    (hscale : b.scale = a.scale + k) : a.digits = b.digits * 10 ^ k := by
  have hstep : (10 : ℚ) ^ a.scale ≠ 0 := by positivity
  rw [value, value, hscale, zpow_add₀ (by norm_num), zpow_natCast, mul_comm (10 ^ a.scale),
    ← mul_assoc, mul_left_inj' hstep] at hvalue
  exact_mod_cast hvalue

theorem eq_of_value_eq_of_scale_le {a b : Decimal} (ha : a.digits % 10 ≠ 0)
    (hvalue : a.value = b.value) (hle : a.scale ≤ b.scale) : a = b := by
  obtain ⟨k, hk⟩ : ∃ k : Nat, b.scale = a.scale + k := ⟨(b.scale - a.scale).toNat, by omega⟩
  have hdigits := digits_eq_of_value_eq hvalue hk
  cases k with
  | zero =>
    cases a
    cases b
    simp_all
  | succ k =>
    rw [hdigits, pow_succ, ← mul_assoc, Nat.mul_mod_left] at ha
    exact absurd rfl ha

/-- A decimal without zeros at its end is determined by its value. -/
theorem eq_of_value_eq {a b : Decimal} (ha : a.digits % 10 ≠ 0) (hb : b.digits % 10 ≠ 0)
    (hvalue : a.value = b.value) : a = b := by
  rcases le_total a.scale b.scale with hle | hle
  · exact eq_of_value_eq_of_scale_le ha hvalue hle
  · exact (eq_of_value_eq_of_scale_le hb hvalue.symm hle).symm

end Decimal

/-! ### The number of digits before the point -/

theorem lt_ten_zpow_length (n : Nat) : (n : ℚ) < 10 ^ ((Nat.toDigits 10 n).length : Int) := by
  rw [zpow_natCast]
  exact_mod_cast Text.lt_pow_length_toDigits n

theorem ten_zpow_length_le {n : Nat} (hn : 0 < n) :
    (10 : ℚ) ^ ((Nat.toDigits 10 n).length - 1 : Int) ≤ n := by
  have hlength : 0 < (Nat.toDigits 10 n).length := Nat.length_toDigits_pos
  have hcast : ((Nat.toDigits 10 n).length - 1 : Int) = ((Nat.toDigits 10 n).length - 1 : Nat) := by
    omega
  rw [hcast, zpow_natCast]
  exact_mod_cast Text.pow_length_toDigits_le hn

theorem wholeDigits_spec {num den : Nat} (hnum : 0 < num) (hden : 0 < den) :
    (10 : ℚ) ^ (wholeDigits num den - 1) ≤ num / den ∧
      (num : ℚ) / den < 10 ^ wholeDigits num den := by
  have hten : (10 : ℚ) ≠ 0 := by norm_num
  have hdenPos : (0 : ℚ) < den := by exact_mod_cast hden
  obtain ⟨guess, hguess⟩ :
      ∃ guess : Int, guess = (Nat.toDigits 10 num).length - (Nat.toDigits 10 den).length := ⟨_, rfl⟩
  have hchoice : den * power 10 guess ≤ num * power 10 (-guess) ↔
      (10 : ℚ) ^ guess ≤ num / den := by
    have hfactor : (0 : ℚ) < power 10 (-guess) := by exact_mod_cast power_pos (by decide) _
    have hpower : (power 10 guess : ℚ) = 10 ^ guess * power 10 (-guess) :=
      cast_power_mul (by decide) guess
    rw [le_div_iff₀ hdenPos, mul_comm _ (den : ℚ), ← mul_le_mul_iff_left₀ hfactor, mul_assoc,
      ← hpower]
    exact_mod_cast Iff.rfl
  have hlow : (10 : ℚ) ^ (guess - 1) ≤ num / den := by
    rw [le_div_iff₀ hdenPos]
    calc (10 : ℚ) ^ (guess - 1) * den
        ≤ 10 ^ (guess - 1) * 10 ^ ((Nat.toDigits 10 den).length : Int) := by
          gcongr
          exact (lt_ten_zpow_length den).le
      _ = 10 ^ ((Nat.toDigits 10 num).length - 1 : Int) := by
          rw [← zpow_add₀ hten]; congr 1; omega
      _ ≤ num := ten_zpow_length_le hnum
  have hhigh : (num : ℚ) / den < 10 ^ (guess + 1) := by
    rw [div_lt_iff₀ hdenPos]
    calc (num : ℚ) < 10 ^ ((Nat.toDigits 10 num).length : Int) := lt_ten_zpow_length num
      _ = 10 ^ (guess + 1) * 10 ^ ((Nat.toDigits 10 den).length - 1 : Int) := by
          rw [← zpow_add₀ hten]; congr 1; omega
      _ ≤ 10 ^ (guess + 1) * den := by
          gcongr
          exact ten_zpow_length_le hden
  have hwhole : wholeDigits num den =
      if (10 : ℚ) ^ guess ≤ num / den then guess + 1 else guess := by
    simp only [wholeDigits, ← hguess, hchoice]
  rw [hwhole]
  split
  next h => exact ⟨by rwa [add_sub_cancel_right], hhigh⟩
  next h => exact ⟨hlow, not_le.1 h⟩

theorem Decimal.exists_value_eq {d : Decimal} {scale : Int} (h : scale ≤ d.scale) :
    ∃ n : Nat, d.value = n * 10 ^ scale := by
  obtain ⟨k, hk⟩ : ∃ k : Nat, d.scale = k + scale := ⟨(d.scale - scale).toNat, by omega⟩
  refine ⟨d.digits * 10 ^ k, ?_⟩
  rw [value, hk, zpow_add₀ (by norm_num), zpow_natCast]
  push_cast
  ring

theorem value_bounds {d : Decimal} (hpos : 0 < d.digits) :
    (10 : ℚ) ^ (d.scale + (Nat.toDigits 10 d.digits).length - 1) ≤ d.value ∧
      d.value < 10 ^ (d.scale + (Nat.toDigits 10 d.digits).length) := by
  have hten : (10 : ℚ) ≠ 0 := by norm_num
  have hunit : (0 : ℚ) < 10 ^ d.scale := by positivity
  constructor
  · rw [add_sub_assoc, add_comm, zpow_add₀ hten]
    exact mul_le_mul_of_nonneg_right (ten_zpow_length_le hpos) hunit.le
  · rw [add_comm, zpow_add₀ hten]
    exact mul_lt_mul_of_pos_right (lt_ten_zpow_length d.digits) hunit

theorem magnitude_eq_div (x : Double) :
    x.magnitude = (x.significand * power 2 x.exponent : Nat) / (power 2 (-x.exponent) : Nat) := by
  have hpower : (power 2 x.exponent : ℚ) / power 2 (-x.exponent) = 2 ^ x.exponent :=
    power_div_power (by decide) x.exponent
  rw [magnitude, Nat.cast_mul, mul_div_assoc, hpower]

end SeriesQuery.Double
