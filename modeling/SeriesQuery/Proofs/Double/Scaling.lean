import SeriesQuery.Double.Scaling
import SeriesQuery.Proofs.Double.Shortest

/-!
# Short decimals

The reals that round to a double lie so close together that only one of them has fifteen digits or
fewer. A short decimal is therefore the shortest one of a double around which it lies. If the power
of ten is small as well, then the digits and the power are doubles, their product or quotient is
rounded once, and the double that is reached is the nearest one.
-/

namespace SeriesQuery.Double

/-! ### Decimals of fifteen digits -/

theorem abs_sub_magnitude_le {x : Double} (hx : x.IsNormal) {q : ℚ} (hq : x.interval.Covers q) :
    |q - x.magnitude| ≤ x.magnitude / 2 ^ 53 := by
  have hunit : (0 : ℚ) < 2 ^ x.exponent := by positivity
  have hbits : (2 ^ 52 : ℚ) ≤ x.significand := by exact_mod_cast hx.low
  have hscaled := mul_le_mul_of_nonneg_right hbits hunit.le
  have hhalf := hq.abs_sub_le
  rw [← magnitude] at hscaled
  rw [le_div_iff₀ (by norm_num)]
  linarith

section

variable {x : Double} (hx : x.IsNormal) {whole : Int} (hlow : (10 : ℚ) ^ (whole - 1) ≤ x.magnitude)
  (hhigh : x.magnitude < 10 ^ whole)

theorem ten_zpow_eq (e : Int) : (10 : ℚ) ^ e = 10 ^ 15 * 10 ^ (e - 15) := by
  rw [← zpow_natCast, ← zpow_add₀ (by norm_num)]
  congr 1
  omega

include hx hhigh in
/-- The reals around a double are less than half a step of the grid of fifteen digits away. -/
theorem abs_sub_magnitude_lt {q : ℚ} (hq : x.interval.Covers q) :
    |q - x.magnitude| < 10 ^ (whole - 15) / 2 := by
  have hstep : (0 : ℚ) < 10 ^ (whole - 15) := by positivity
  refine (abs_sub_magnitude_le hx hq).trans_lt ?_
  rw [ten_zpow_eq] at hhigh
  rw [div_lt_iff₀ (by norm_num)]
  linarith

include hx hhigh in
/-- Two decimals of the grid around one double are the same number. -/
theorem value_eq_of_covers {a b : Decimal} (ha : whole - 15 ≤ a.scale) (hb : whole - 15 ≤ b.scale)
    (hcoversA : x.interval.Covers a.value) (hcoversB : x.interval.Covers b.value) :
    a.value = b.value := by
  have hstep : (0 : ℚ) < 10 ^ (whole - 15) := by positivity
  obtain ⟨m, hm⟩ := Decimal.exists_value_eq ha
  obtain ⟨n, hn⟩ := Decimal.exists_value_eq hb
  have hnearA := abs_lt.1 (abs_sub_magnitude_lt hx hhigh hcoversA)
  have hnearB := abs_lt.1 (abs_sub_magnitude_lt hx hhigh hcoversB)
  rw [hm] at hnearA ⊢
  rw [hn] at hnearB ⊢
  have hlt : (m : ℚ) * 10 ^ (whole - 15) < (n + 1) * 10 ^ (whole - 15) := by linarith
  have hgt : (n : ℚ) * 10 ^ (whole - 15) < (m + 1) * 10 ^ (whole - 15) := by linarith
  rw [mul_lt_mul_iff_left₀ hstep] at hlt hgt
  have hlt' : m < n + 1 := by exact_mod_cast hlt
  have hgt' : n < m + 1 := by exact_mod_cast hgt
  rw [show m = n by omega]

include hx hlow in
/-- A decimal of fifteen digits is on the grid, also when it has more digits than the double. -/
theorem grid_le_scale {d : Decimal} (hfifteen : d.digits < 10 ^ 15)
    (hcovers : x.interval.Covers d.value) : whole - 15 ≤ d.scale := by
  by_contra hgrid
  have hunit : (0 : ℚ) < 10 ^ d.scale := by positivity
  have hmost : (10 : ℚ) ^ 15 * 10 ^ d.scale ≤ x.magnitude := by
    rw [← add_sub_cancel_right d.scale 15, ← ten_zpow_eq]
    exact (zpow_le_zpow_right₀ (by norm_num) (by omega)).trans hlow
  have hdigits : (d.digits : ℚ) + 1 ≤ 10 ^ 15 := by exact_mod_cast hfifteen
  have hvalue : d.value + 10 ^ d.scale ≤ 10 ^ 15 * 10 ^ d.scale := by
    have hscaled := mul_le_mul_of_nonneg_right hdigits hunit.le
    rw [Decimal.value]
    linarith
  have hnear := (abs_le.1 (abs_sub_magnitude_le hx hcovers)).1
  linarith

end

/-- A decimal of fifteen digits is the shortest one of a double around which it lies. -/
theorem value_shortest_eq {x : Double} (hx : x.IsNormal) {d : Decimal} (hfifteen : d.digits < 10 ^ 15)
    (hcovers : x.interval.Covers d.value) : x.shortest.value = d.value := by
  have hpos : 0 < x.significand := lt_of_lt_of_le (by decide) hx.low
  have hpower (e : Int) : 0 < power 2 e := power_pos (by decide) e
  obtain ⟨hlow, hhigh⟩ := wholeDigits_spec (Nat.mul_pos hpos (hpower x.exponent))
    (hpower (-x.exponent))
  rw [← magnitude_eq_div] at hlow hhigh
  have hshortest := isShortest_shortest hx.high
  have hlength : d.length ≤ 15 :=
    (Nat.length_toDigits_le_iff (b := 10) (by omega) (by omega)).2 hfifteen
  have hfifteen' : x.shortest.digits < 10 ^ 15 :=
    (Nat.length_toDigits_le_iff (b := 10) (by omega) (by omega)).1
      ((hshortest.fewest d hcovers).trans hlength)
  exact value_eq_of_covers hx hhigh (grid_le_scale hx hlow hfifteen' hshortest.covers)
    (grid_le_scale hx hlow hfifteen hcovers) hshortest.covers hcovers

/-! ### Decimals that are doubles -/

/-- A decimal in the range of the normal doubles is rounded as a fraction. -/
theorem exists_ofDecimal?_eq_ofFraction? (negative : Bool) {d : Decimal} (hpos : 0 < d.digits)
    (hlow : (2 : ℚ) ^ (-1022 : Int) ≤ d.value) (hhigh : d.value < 2 ^ (1023 : Int)) :
    ∃ num den : Nat, 0 < num ∧ 0 < den ∧ (num : ℚ) / den = d.value ∧
      ofDecimal? negative d.digits d.scale = ofFraction? negative num den := by
  obtain ⟨hleast, hmost⟩ := value_bounds hpos
  have hsmall : ¬ 310 ≤ d.scale + (Nat.toDigits 10 d.digits).length := by
    intro hlarge
    have hbig : (2 : ℚ) ^ (1023 : Int) ≤ 10 ^ (309 : Int) := by
      have hnat : 2 ^ 1023 ≤ 10 ^ 309 := by decide +kernel
      exact_mod_cast hnat
    have hpower : (10 : ℚ) ^ (309 : Int) ≤
        10 ^ (d.scale + (Nat.toDigits 10 d.digits).length - 1) :=
      zpow_le_zpow_right₀ (by norm_num) (by omega)
    exact (hhigh.trans_le (hbig.trans hpower)).not_ge hleast
  have hlarge : ¬ d.scale + (Nat.toDigits 10 d.digits).length ≤ -330 := by
    intro htiny
    have hbig : (10 : ℚ) ^ (-330 : Int) ≤ 2 ^ (-1022 : Int) := by
      have hnat : 2 ^ 1022 ≤ 10 ^ 330 := by decide +kernel
      rw [zpow_neg, zpow_neg]
      exact inv_anti₀ (by positivity) (by exact_mod_cast hnat)
    have hpower : (10 : ℚ) ^ (d.scale + (Nat.toDigits 10 d.digits).length) ≤ 10 ^ (-330 : Int) :=
      zpow_le_zpow_right₀ (by norm_num) htiny
    exact ((hmost.trans_le hpower).trans_le hbig).not_ge hlow
  simp only [ofDecimal?, if_neg hpos.ne', if_neg hsmall, if_neg hlarge]
  have hten (e : Int) : 0 < power 10 e := power_pos (by decide) e
  split
  next hscale =>
    refine ⟨_, _, Nat.mul_pos hpos (hten _), Nat.one_pos, ?_, rfl⟩
    rw [Decimal.value, Nat.cast_one, div_one, Nat.cast_mul, cast_power, ← zpow_natCast,
      Int.toNat_of_nonneg hscale]
    rfl
  next hscale =>
    refine ⟨_, _, hpos, hten _, ?_, rfl⟩
    rw [Decimal.value, cast_power, ← zpow_natCast, Int.toNat_of_nonneg (by omega), zpow_neg,
      div_inv_eq_mul]
    rfl

/-- An integer of 53 bits or fewer, moved up to 53 bits. -/
theorem exists_normal_shift {m : Nat} (hm : 0 < m) (hbits : m < 2 * leastNormal) :
    ∃ k ≤ 52, leastNormal ≤ m * 2 ^ k ∧ m * 2 ^ k < 2 * leastNormal := by
  have hlog : m.log2 ≤ 52 := Nat.le_of_lt_succ ((Nat.log2_lt hm.ne').2 hbits)
  obtain ⟨k, hk⟩ := Nat.exists_eq_add_of_le hlog
  refine ⟨k, by omega, ?_, ?_⟩
  · calc leastNormal = 2 ^ m.log2 * 2 ^ k := by rw [← pow_add, ← hk, leastNormal_eq]
      _ ≤ m * 2 ^ k := Nat.mul_le_mul_right _ (Nat.log2_self_le hm.ne')
  · calc m * 2 ^ k < 2 ^ (m.log2 + 1) * 2 ^ k :=
          Nat.mul_lt_mul_of_pos_right Nat.lt_log2_self (Nat.two_pow_pos k)
      _ = 2 * leastNormal := by
          rw [← pow_add, Nat.add_right_comm, ← hk]
          rfl

theorem range_of_bits {m j : Nat} (hm : 0 < m) (hbits : m < 2 * leastNormal) (hj : j ≤ 900) :
    (2 : ℚ) ^ (-1022 : Int) ≤ m * 2 ^ j ∧ (m : ℚ) * 2 ^ j < 2 ^ (1023 : Int) := by
  have hone : (1 : ℚ) ≤ m := by exact_mod_cast hm
  have hcast : (m : ℚ) < 2 * leastNormal := by exact_mod_cast hbits
  constructor
  · calc (2 : ℚ) ^ (-1022 : Int) ≤ 2 ^ (0 : Int) := zpow_le_zpow_right₀ one_le_two (by norm_num)
      _ = 1 * 1 := by norm_num
      _ ≤ m * 2 ^ j := by
          gcongr
          exact one_le_pow₀ one_le_two
  · calc (m : ℚ) * 2 ^ j < 2 * leastNormal * 2 ^ (j : Int) := by
          rw [zpow_natCast]
          gcongr
      _ = 2 ^ ((j : Int) + 53) := two_mul_leastNormal_mul_zpow j
      _ ≤ 2 ^ (1023 : Int) := zpow_le_zpow_right₀ one_le_two (by omega)

/-- An integer of 53 bits times a power of two is a double. -/
theorem exists_ofDecimal?_eq_of_eq (negative : Bool) {d : Decimal} {m j : Nat} (hm : 0 < m)
    (hbits : m < 2 * leastNormal) (hj : j ≤ 900) (hvalue : d.value = m * 2 ^ j) :
    ∃ x, ofDecimal? negative d.digits d.scale = some x ∧ x.negative = negative ∧ x.IsNormal ∧
      x.magnitude = d.value := by
  have hpos : 0 < d.digits := Decimal.value_pos_iff.1 (by rw [hvalue]; positivity)
  obtain ⟨hlow, hhigh⟩ := range_of_bits hm hbits hj
  rw [← hvalue] at hlow hhigh
  obtain ⟨num, den, hnum, hden, hfraction, heq⟩ :=
    exists_ofDecimal?_eq_ofFraction? negative hpos hlow hhigh
  obtain ⟨k, hk, hmlow, hmhigh⟩ := exists_normal_shift hm hbits
  have hshift : (m : ℚ) * 2 ^ j = (m * 2 ^ k : Nat) * 2 ^ ((j : Int) - k) := by
    rw [zpow_sub₀ two_ne_zero, zpow_natCast, zpow_natCast]
    push_cast
    field_simp
  refine ⟨⟨negative, m * 2 ^ k, j - k⟩, ?_, rfl, ⟨hmlow, hmhigh⟩, (hvalue.trans hshift).symm⟩
  rw [heq]
  refine ofFraction?_eq_of_eq negative hnum hden hmlow hmhigh ?_ ?_ ?_
  · unfold minExponent
    omega
  · unfold maxExponent
    omega
  · rw [hfraction, hvalue, hshift]

theorem exists_tenPower?_eq {k : Nat} (hk : k ≤ 22) :
    ∃ x, tenPower? k = some x ∧ x.negative = false ∧ x.IsNormal ∧ x.magnitude = 10 ^ k := by
  have hvalue : (⟨1, k⟩ : Decimal).value = (5 ^ k : Nat) * 2 ^ k := by
    rw [Decimal.value, zpow_natCast]
    push_cast
    rw [one_mul, ← mul_pow]
    norm_num
  have hbits : 5 ^ k < 2 * leastNormal :=
    lt_of_le_of_lt (Nat.pow_le_pow_right (by omega) hk) (by decide)
  obtain ⟨x, hx, hnegative, hnormal, hmagnitude⟩ :=
    exists_ofDecimal?_eq_of_eq false (Nat.pow_pos (by omega)) hbits (by omega) hvalue
  refine ⟨x, hx, hnegative, hnormal, ?_⟩
  rw [hmagnitude, Decimal.value, zpow_natCast, Nat.cast_one, one_mul]

theorem exists_ofDecimal?_eq (negative : Bool) {d : Decimal} (hpos : 0 < d.digits)
    (hlow : (2 : ℚ) ^ (-1022 : Int) ≤ d.value) (hhigh : d.value < 2 ^ (1023 : Int)) :
    ∃ x, ofDecimal? negative d.digits d.scale = some x ∧ x.IsNormal ∧ x.interval.Covers d.value := by
  obtain ⟨num, den, hnum, hden, hvalue, heq⟩ :=
    exists_ofDecimal?_eq_ofFraction? negative hpos hlow hhigh
  rw [← hvalue] at hlow hhigh ⊢
  obtain ⟨x, hx, -, hnormal, hcovers⟩ := exists_ofFraction?_eq negative hnum hden hlow hhigh
  exact ⟨x, heq.trans hx, hnormal, hcovers⟩

/-! ### Products and quotients -/

section

variable {x y : Double} (hx : 0 < x.significand) (hy : 0 < y.significand)

include hx hy

theorem exists_mul?_eq : ∃ num den : Nat, 0 < num ∧ 0 < den ∧
    (num : ℚ) / den = x.magnitude * y.magnitude ∧
      x.mul? y = ofFraction? (x.negative != y.negative) num den := by
  refine ⟨x.significand * y.significand * power 2 (x.exponent + y.exponent),
    power 2 (-(x.exponent + y.exponent)), Nat.mul_pos (Nat.mul_pos hx hy) (power_pos (by decide) _),
    power_pos (by decide) _, ?_, ?_⟩
  · have hpower := power_div_power (by decide : 0 < 2) (x.exponent + y.exponent)
    push_cast at hpower ⊢
    rw [mul_div_assoc, hpower, zpow_add₀ two_ne_zero, magnitude, magnitude]
    ring
  · simp only [mul?, hx.ne', hy.ne', or_self, if_false]

theorem exists_div?_eq : ∃ num den : Nat, 0 < num ∧ 0 < den ∧
    (num : ℚ) / den = x.magnitude / y.magnitude ∧
      x.div? y = ofFraction? (x.negative != y.negative) num den := by
  refine ⟨x.significand * power 2 (x.exponent - y.exponent),
    y.significand * power 2 (-(x.exponent - y.exponent)), Nat.mul_pos hx (power_pos (by decide) _),
    Nat.mul_pos hy (power_pos (by decide) _), ?_, ?_⟩
  · have hpower := power_div_power (by decide : 0 < 2) (x.exponent - y.exponent)
    push_cast at hpower ⊢
    rw [mul_div_mul_comm, hpower, zpow_sub₀ two_ne_zero, magnitude, magnitude, mul_div_mul_comm]
  · simp only [div?, hx.ne', if_false]

end

/-! ### Scaled digits -/

theorem ofScaled?_zero (negative : Bool) {scale : Int} (hscale : scale.natAbs ≤ 22) :
    ofScaled? negative 0 scale = some (zero negative) := by
  obtain ⟨p, hp, -⟩ := exists_tenPower?_eq hscale
  have hcount : (scale.natAbs - 1) / 308 = 0 := by omega
  have hzero : ofDecimal? false 0 0 = some (zero false) := rfl
  simp only [ofScaled?, hzero, hcount, raise?, lower?, Nat.mul_zero, Nat.sub_zero, hp, div?, zero]
  split <;> rfl

theorem range_of_short {d : Decimal} (hpos : 0 < d.digits) (hfifteen : d.digits < 10 ^ 15)
    (hscale : d.scale.natAbs ≤ 22) :
    (2 : ℚ) ^ (-1022 : Int) ≤ d.value ∧ d.value < 2 ^ (1023 : Int) := by
  have hunit : (0 : ℚ) < 10 ^ d.scale := by positivity
  have hone : (1 : ℚ) ≤ d.digits := by exact_mod_cast hpos
  have hdigits : (d.digits : ℚ) < 10 ^ (15 : Int) := by exact_mod_cast hfifteen
  constructor
  · calc (2 : ℚ) ^ (-1022 : Int) ≤ 2 ^ (-88 : Int) := zpow_le_zpow_right₀ one_le_two (by norm_num)
      _ ≤ 10 ^ (-22 : Int) := by norm_num
      _ ≤ 10 ^ d.scale := zpow_le_zpow_right₀ (by norm_num) (by omega)
      _ ≤ d.value := le_mul_of_one_le_left hunit.le hone
  · calc d.value < 10 ^ (15 : Int) * 10 ^ d.scale := mul_lt_mul_of_pos_right hdigits hunit
      _ = 10 ^ (15 + d.scale) := (zpow_add₀ (by norm_num) _ _).symm
      _ ≤ 10 ^ (37 : Int) := zpow_le_zpow_right₀ (by norm_num) (by omega)
      _ ≤ 2 ^ (128 : Int) := by norm_num
      _ ≤ 2 ^ (1023 : Int) := zpow_le_zpow_right₀ one_le_two (by norm_num)

/-- The digits and the power of a short decimal are doubles, so what is rounded is the decimal. -/
theorem exists_ofScaled?_eq (negative : Bool) {d : Decimal} (hpos : 0 < d.digits)
    (hfifteen : d.digits < 10 ^ 15) (hscale : d.scale.natAbs ≤ 22) :
    ∃ num den : Nat, 0 < num ∧ 0 < den ∧ (num : ℚ) / den = d.value ∧
      ofScaled? negative d.digits d.scale = ofFraction? negative num den := by
  have hcount : (d.scale.natAbs - 1) / 308 = 0 := by omega
  have hwhole : (⟨d.digits, 0⟩ : Decimal).value = d.digits * 2 ^ 0 := by simp [Decimal.value]
  obtain ⟨x, hx, hxsign, hxnormal, hxvalue⟩ := exists_ofDecimal?_eq_of_eq false hpos
    (hfifteen.trans (by decide)) (Nat.zero_le 900) hwhole
  obtain ⟨p, hp, hpsign, hpnormal, hpvalue⟩ := exists_tenPower?_eq hscale
  have hxpos : 0 < x.significand := lt_of_lt_of_le (by decide) hxnormal.low
  have hppos : 0 < p.significand := lt_of_lt_of_le (by decide) hpnormal.low
  rw [hwhole, pow_zero, mul_one] at hxvalue
  simp only [ofScaled?, hx, hcount, Nat.mul_zero, Nat.sub_zero, Option.bind_eq_bind, Option.bind_some]
  split
  next hsign =>
    obtain ⟨num, den, hnum, hden, hproduct, heq⟩ := exists_mul?_eq hxpos hppos
    rw [hxsign, hpsign] at heq
    refine ⟨num, den, hnum, hden, ?_, ?_⟩
    · rw [hproduct, hxvalue, hpvalue, Decimal.value, ← zpow_natCast, Int.natAbs_of_nonneg hsign]
    · have hraise : x.raise? d.scale.natAbs = ofFraction? false num den := by
        rw [raise?, if_neg hxpos.ne', hp]
        exact heq
      rw [hraise]
      exact bind_ofFraction? negative num den
  next hsign =>
    obtain ⟨num, den, hnum, hden, hquotient, heq⟩ := exists_div?_eq hxpos hppos
    rw [hxsign, hpsign] at heq
    refine ⟨num, den, hnum, hden, ?_, ?_⟩
    · rw [hquotient, hxvalue, hpvalue, Decimal.value, div_eq_mul_inv, ← zpow_natCast, ← zpow_neg]
      congr 2
      omega
    · have hlower : x.lower? d.scale.natAbs 0 = ofFraction? false num den := by
        rw [lower?, hp]
        exact heq
      rw [hlower]
      exact bind_ofFraction? negative num den

/-- A short decimal is read as the double nearest to it. -/
theorem ofScaled?_eq_ofDecimal? (negative : Bool) {d : Decimal} (hfifteen : d.digits < 10 ^ 15)
    (hscale : d.scale.natAbs ≤ 22) :
    ofScaled? negative d.digits d.scale = ofDecimal? negative d.digits d.scale := by
  rcases Nat.eq_zero_or_pos d.digits with hzero | hpos
  · rw [hzero]
    exact ofScaled?_zero negative hscale
  · obtain ⟨hlow, hhigh⟩ := range_of_short hpos hfifteen hscale
    obtain ⟨num, den, hnum, hden, hvalue, heq⟩ := exists_ofScaled?_eq negative hpos hfifteen hscale
    obtain ⟨num', den', hnum', hden', hvalue', heq'⟩ :=
      exists_ofDecimal?_eq_ofFraction? negative hpos hlow hhigh
    rw [heq, heq']
    exact ofFraction?_congr negative hnum hden hnum' hden' (hvalue.trans hvalue'.symm)

/-! ### The bits of the result -/

theorem significand_lt_of_ofDecimal? {negative : Bool} {digits : Nat} {scale : Int} {x : Double}
    (hx : ofDecimal? negative digits scale = some x) : x.significand < 2 * leastNormal := by
  have hten (e : Int) : 0 < power 10 e := power_pos (by decide) e
  unfold ofDecimal? at hx
  split at hx
  next => exact Option.some.inj hx ▸ (by decide : 0 < 2 * leastNormal)
  next hdigits =>
    have hpos : 0 < digits := Nat.pos_of_ne_zero hdigits
    simp only at hx
    split at hx
    next => cases hx
    split at hx
    next => exact Option.some.inj hx ▸ (by decide : 0 < 2 * leastNormal)
    split at hx
    next => exact significand_lt_of_ofFraction? (Nat.mul_pos hpos (hten _)) Nat.one_pos hx
    next => exact significand_lt_of_ofFraction? hpos (hten _) hx

theorem significand_pos_of_tenPower? {k : Nat} {x : Double} (hx : tenPower? k = some x) :
    0 < x.significand := by
  have hten : 0 < 1 * power 10 k := Nat.mul_pos Nat.one_pos (power_pos (by decide) _)
  have hone : (1 : ℚ) ≤ (1 * power 10 k : Nat) := by exact_mod_cast hten
  simp only [tenPower?, ofDecimal?] at hx
  split at hx
  next hzero => cases hzero
  split at hx
  next => cases hx
  split at hx
  next htiny => omega
  split at hx
  next =>
    refine lt_of_lt_of_le (by decide) (leastNormal_le_of_ofFraction? hten Nat.one_pos ?_ hx)
    rw [Nat.cast_one, div_one]
    exact (zpow_le_one_of_nonpos₀ one_le_two (by norm_num)).trans hone
  next hsign => omega

theorem significand_lt_of_mul? {x y z : Double} (hz : x.mul? y = some z) :
    z.significand < 2 * leastNormal := by
  simp only [mul?] at hz
  split at hz
  next => exact Option.some.inj hz ▸ (by decide : 0 < 2 * leastNormal)
  next hne =>
    obtain ⟨hx, hy⟩ := not_or.1 hne
    have hnum := Nat.mul_pos (Nat.mul_pos (Nat.pos_of_ne_zero hx) (Nat.pos_of_ne_zero hy))
      (power_pos (by decide : 0 < 2) (x.exponent + y.exponent))
    exact significand_lt_of_ofFraction? hnum (power_pos (by decide) _) hz

theorem significand_lt_of_div? {x y z : Double} (hy : 0 < y.significand)
    (hz : x.div? y = some z) : z.significand < 2 * leastNormal := by
  simp only [div?] at hz
  split at hz
  next => exact Option.some.inj hz ▸ (by decide : 0 < 2 * leastNormal)
  next hne =>
    exact significand_lt_of_ofFraction? (Nat.mul_pos (Nat.pos_of_ne_zero hne) (power_pos (by decide) _))
      (Nat.mul_pos hy (power_pos (by decide) _)) hz

theorem significand_lt_of_lower? {remaining count : Nat} {x y : Double}
    (hx : x.significand < 2 * leastNormal) (hy : x.lower? remaining count = some y) :
    y.significand < 2 * leastNormal := by
  induction count generalizing x with
  | zero =>
    obtain ⟨p, hp, hdiv⟩ := Option.bind_eq_some_iff.1 hy
    exact significand_lt_of_div? (significand_pos_of_tenPower? hp) hdiv
  | succ count ih =>
    rw [lower?] at hy
    split at hy
    next => exact Option.some.inj hy ▸ hx
    next =>
      obtain ⟨p, hp, hnext⟩ := Option.bind_eq_some_iff.1 hy
      obtain ⟨z, hdiv, hrest⟩ := Option.bind_eq_some_iff.1 hnext
      exact ih (significand_lt_of_div? (significand_pos_of_tenPower? hp) hdiv) hrest

theorem significand_lt_of_raise? {k : Nat} {x y : Double} (hx : x.significand < 2 * leastNormal)
    (hy : x.raise? k = some y) : y.significand < 2 * leastNormal := by
  unfold raise? at hy
  split at hy
  next => exact Option.some.inj hy ▸ hx
  next =>
    obtain ⟨p, -, hmul⟩ := Option.bind_eq_some_iff.1 hy
    exact significand_lt_of_mul? hmul

/-- What is left of the digits and the power is a double of 53 bits, with the sign of the digits. -/
theorem of_ofScaled?_eq_some {negative : Bool} {digits : Nat} {scale : Int} {x : Double}
    (hx : ofScaled? negative digits scale = some x) :
    x.negative = negative ∧ x.significand < 2 * leastNormal := by
  obtain ⟨y, hy, hrest⟩ := Option.bind_eq_some_iff.1 hx
  have hbits := significand_lt_of_ofDecimal? hy
  simp only at hrest
  split at hrest
  next =>
    obtain ⟨z, hz, hsign⟩ := Option.bind_eq_some_iff.1 hrest
    have hlt := significand_lt_of_raise? hbits hz
    exact Option.some.inj hsign ▸ ⟨rfl, hlt⟩
  next =>
    obtain ⟨z, hz, hsign⟩ := Option.bind_eq_some_iff.1 hrest
    have hlt := significand_lt_of_lower? hbits hz
    exact Option.some.inj hsign ▸ ⟨rfl, hlt⟩

end SeriesQuery.Double
