import SeriesQuery.Proofs.Double.Decimal

/-!
# The shortest decimal

Of the decimals in the interval of reals that round to a double, the shortest one has the fewest
digits; of these it is the nearest to the double, and the even one where two are equally near. There
is one such number, and it is the one that is found: if a grid has a point in the interval, then one
of the two points next to the double is in the interval, and a grid with seventeen digits has one.
-/

namespace SeriesQuery.Double

/-! ### Intervals -/

section

variable {x : Double} {q r : ℚ}

theorem interval_low_le_high (x : Double) : x.interval.low ≤ x.interval.high := by
  simp only [interval]
  split <;> omega

theorem Interval.Covers.bounds (h : x.interval.Covers q) :
    x.interval.low * 2 ^ (x.exponent - 2) ≤ q ∧ q ≤ x.interval.high * 2 ^ (x.exponent - 2) := by
  have hends : (x.interval.low : ℚ) * 2 ^ (x.exponent - 2) ≤
      x.interval.high * 2 ^ (x.exponent - 2) := by
    gcongr
    exact interval_low_le_high x
  rcases h with ⟨hlow, hhigh⟩ | ⟨-, rfl | rfl⟩
  · exact ⟨hlow.le, hhigh.le⟩
  · exact ⟨le_rfl, hends⟩
  · exact ⟨hends, le_rfl⟩

theorem cast_interval_high (x : Double) : (x.interval.high : ℚ) = 4 * x.significand + 2 := by
  simp only [interval]
  push_cast
  rfl

theorem le_interval_low_add (x : Double) : (4 * x.significand : ℚ) ≤ x.interval.low + 2 := by
  have hcast : 4 * x.significand ≤ x.interval.low + 2 := by
    simp only [interval]
    split <;> omega
  exact_mod_cast hcast

theorem magnitude_eq_four_mul (x : Double) :
    x.magnitude = 4 * x.significand * 2 ^ (x.exponent - 2) := by
  rw [magnitude, zpow_eq_four_mul]
  ring

/-- The reals that round to a double lie within half a unit of its last place. -/
theorem Interval.Covers.abs_sub_le (h : x.interval.Covers q) :
    |q - x.magnitude| ≤ 2 ^ x.exponent / 2 := by
  have hunit : (0 : ℚ) < 2 ^ (x.exponent - 2) := by positivity
  obtain ⟨hleft, hright⟩ := h.bounds
  have hbelow := mul_le_mul_of_nonneg_right (le_interval_low_add x) hunit.le
  rw [cast_interval_high] at hright
  rw [magnitude_eq_four_mul, zpow_eq_four_mul x.exponent, abs_le]
  constructor <;> linarith

theorem Interval.Covers.between {p : ℚ} (hp : x.interval.Covers p) (hr : x.interval.Covers r)
    (hpq : p ≤ q) (hqr : q ≤ r) : x.interval.Covers q := by
  rcases hpq.eq_or_lt with rfl | hpq
  · exact hp
  rcases hqr.eq_or_lt with rfl | hqr
  · exact hr
  exact .inl ⟨hp.bounds.1.trans_lt hpq, hqr.trans_le hr.bounds.2⟩

variable (hpos : 0 < x.significand)

include hpos

/-- The interval in units of a quarter of the last place, of which it has at least one below the
double, or two if the double is not the least one with its exponent. -/
theorem interval_low_add_le : (x.interval.low : ℚ) +
    (if x.significand = leastNormal then 1 else 2) ≤ 4 * x.significand := by
  have hcast : x.interval.low + (if x.significand = leastNormal then 1 else 2) ≤
      4 * x.significand := by
    simp only [interval]
    split_ifs <;> omega
  exact_mod_cast hcast

theorem covers_magnitude : x.interval.Covers x.magnitude := by
  have hunit : (0 : ℚ) < 2 ^ (x.exponent - 2) := by positivity
  have hlow := interval_low_add_le hpos
  have hhigh := cast_interval_high x
  rw [magnitude_eq_four_mul]
  left
  constructor
  · refine mul_lt_mul_of_pos_right (lt_of_lt_of_le (lt_add_of_pos_right _ ?_) hlow) hunit
    split <;> norm_num
  · refine mul_lt_mul_of_pos_right ?_ hunit
    linarith

theorem pos_of_covers (h : x.interval.Covers q) : 0 < q := by
  have hunit : (0 : ℚ) < 2 ^ (x.exponent - 2) := by positivity
  have hlow : 0 < x.interval.low := by
    simp only [interval]
    split <;> omega
  have hpositive : (0 : ℚ) < x.interval.low * 2 ^ (x.exponent - 2) := by positivity
  exact hpositive.trans_le h.bounds.1

omit hpos in
theorem significand_div_le (hbits : x.significand < 2 * leastNormal) :
    (x.significand : ℚ) / 2 ^ 52 ≤ if x.significand = leastNormal then 1 else 2 := by
  have hleast : (leastNormal : ℚ) = 2 ^ 52 := by norm_num [leastNormal_eq]
  rw [div_le_iff₀ (by norm_num), ← hleast]
  split
  next heq => rw [heq, one_mul]
  next => exact_mod_cast hbits.le

/-- The interval of a double reaches a part in `2 ^ 54` to both sides. -/
theorem covers_of_abs_sub_lt (hbits : x.significand < 2 * leastNormal)
    (h : |q - x.magnitude| < x.magnitude / 2 ^ 54) : x.interval.Covers q := by
  have hunit : (0 : ℚ) < 2 ^ (x.exponent - 2) := by positivity
  have hpart : x.magnitude / 2 ^ 54 = x.significand / 2 ^ 52 * 2 ^ (x.exponent - 2) := by
    rw [magnitude_eq_four_mul]
    ring
  obtain ⟨hleft, hright⟩ := abs_lt.1 h
  rw [hpart, magnitude_eq_four_mul] at hleft hright
  have hgap := significand_div_le hbits
  have hgapAbove : (x.significand : ℚ) / 2 ^ 52 ≤ 2 := hgap.trans (by split <;> norm_num)
  have hlow := mul_le_mul_of_nonneg_right (interval_low_add_le hpos) hunit.le
  have hbelow := mul_le_mul_of_nonneg_right hgap hunit.le
  have habove := mul_le_mul_of_nonneg_right hgapAbove hunit.le
  rw [add_mul] at hlow
  left
  constructor
  · change x.interval.low * 2 ^ (x.exponent - 2) < q
    linarith
  · change q < x.interval.high * 2 ^ (x.exponent - 2)
    rw [cast_interval_high]
    linarith

end

/-! ### Nearest integers -/

namespace RoundsTo

variable {q : ℚ} {m : Nat}

theorem abs_sub_le (hm : RoundsTo q m) (n : Nat) : |m - q| ≤ |n - q| := by
  have hhalf : |(m : ℚ) - q| ≤ 1 / 2 := abs_le.2 ⟨by linarith [hm.high], by linarith [hm.low]⟩
  rcases lt_trichotomy n m with hn | rfl | hn
  · have hstep : (n : ℚ) + 1 ≤ m := by exact_mod_cast hn
    have hfar : 1 / 2 ≤ q - n := by linarith [hm.low]
    exact hhalf.trans (hfar.trans (by rw [abs_sub_comm]; exact le_abs_self _))
  · exact le_rfl
  · have hstep : (m : ℚ) + 1 ≤ n := by exact_mod_cast hn
    have hfar : 1 / 2 ≤ n - q := by linarith [hm.high]
    exact hhalf.trans (hfar.trans (le_abs_self _))

/-- Of two integers that are equally near the even one is chosen. -/
theorem even_of_abs_sub_eq (hm : RoundsTo q m) {n : Nat} (hne : n ≠ m) (h : |n - q| = |m - q|) :
    m % 2 = 0 ∧ n % 2 = 1 := by
  have hlow := hm.low
  have hhigh := hm.high
  -- Both are half a unit away, on either side.
  rcases lt_or_gt_of_ne hne with hn | hn
  · have hstep : (n : ℚ) + 1 ≤ m := by exact_mod_cast hn
    rw [abs_sub_comm, abs_of_nonneg (by linarith)] at h
    have hm' : |(m : ℚ) - q| = m - q := by
      rcases abs_cases ((m : ℚ) - q) with hcase | hcase <;> linarith
    have heven := hm.even (.inl (by linarith))
    have hnext : n + 1 = m := by
      have hcast : ((n + 1 : Nat) : ℚ) = m := by
        push_cast
        linarith
      exact_mod_cast hcast
    omega
  · have hstep : (m : ℚ) + 1 ≤ n := by exact_mod_cast hn
    rw [abs_of_nonneg (by linarith)] at h
    have hm' : |(m : ℚ) - q| = q - m := by
      rcases abs_cases ((m : ℚ) - q) with hcase | hcase <;> linarith
    have heven := hm.even (.inr (by linarith))
    have hnext : m + 1 = n := by
      have hcast : ((m + 1 : Nat) : ℚ) = n := by
        push_cast
        linarith
      exact_mod_cast hcast
    omega

end RoundsTo

/-! ### The points of a grid -/

/-- Whether a multiple of `10 ^ scale` is the nearest one in the interval of a double, or the even
one of two that are equally near. -/
structure IsNearest (x : Double) (scale : Int) (n : Nat) : Prop where
  covers : x.interval.Covers (n * 10 ^ scale)
  nearest : ∀ k : Nat, x.interval.Covers (k * 10 ^ scale) →
    |n * 10 ^ scale - x.magnitude| ≤ |k * 10 ^ scale - x.magnitude|
  even : ∀ k : Nat, x.interval.Covers (k * 10 ^ scale) → k ≠ n →
    |k * 10 ^ scale - x.magnitude| = |n * 10 ^ scale - x.magnitude| → n % 2 = 0 ∧ k % 2 = 1

section

variable {x : Double} {scale : Int}

theorem abs_mul_sub (n : Nat) (v : ℚ) :
    |n * 10 ^ scale - v| = |n - v / 10 ^ scale| * 10 ^ scale := by
  have hstep : (0 : ℚ) < 10 ^ scale := by positivity
  rw [← abs_of_pos hstep, ← abs_mul, abs_of_pos hstep, sub_mul, div_mul_cancel₀ _ hstep.ne']

/-- The two points that are tried: one is the nearest integer to the double in units of the grid, and
they are the two integers next to it. -/
theorem exists_neighbours_eq (x : Double) (scale : Int) :
    ∃ near below : Nat, RoundsTo (x.magnitude / 10 ^ scale) near ∧
      (below : ℚ) ≤ x.magnitude / 10 ^ scale ∧ x.magnitude / 10 ^ scale < below + 1 ∧
      x.interval.neighbours scale =
        [⟨near, scale⟩, ⟨if near = below then below + 1 else below, scale⟩] := by
  have hden : 0 < power 10 scale * power 2 (-x.interval.exponent) :=
    Nat.mul_pos (power_pos (by decide) _) (power_pos (by decide) _)
  have hmiddle : (x.interval.middle : ℚ) * 2 ^ x.interval.exponent = x.magnitude := by
    simp only [interval]
    rw [magnitude, zpow_eq_four_mul x.exponent]
    push_cast
    ring
  have hquotient : ((x.interval.middle * power 2 x.interval.exponent * power 10 (-scale) : Nat) : ℚ) /
      (power 10 scale * power 2 (-x.interval.exponent) : Nat) = x.magnitude / 10 ^ scale := by
    obtain ⟨factor, hpos, hone, hscaled⟩ :=
      exists_scale_factor 1 x.interval.middle scale x.interval.exponent
    rw [one_mul, Nat.cast_one, one_mul] at hone
    rw [hone, hscaled, mul_div_mul_right _ _ hpos.ne', hmiddle]
  have hround := roundsTo_roundHalfEven
    (x.interval.middle * power 2 x.interval.exponent * power 10 (-scale)) hden
  rw [hquotient] at hround
  refine ⟨_, _, hround, ?_, ?_, rfl⟩
  · rw [← hquotient, le_div_iff₀ (by exact_mod_cast hden)]
    exact_mod_cast Nat.div_mul_le_self _ _
  · rw [← hquotient, div_lt_iff₀ (by exact_mod_cast hden)]
    exact_mod_cast Nat.lt_mul_of_div_lt (Nat.lt_succ_self _) hden

variable (hpos : 0 < x.significand)

include hpos

/-- A point of the grid between the double and another one that is in the interval. -/
theorem covers_of_le {n k : Nat} (hn : x.interval.Covers (n * 10 ^ scale)) (hnk : n ≤ k)
    (hk : (k : ℚ) ≤ x.magnitude / 10 ^ scale) : x.interval.Covers (k * 10 ^ scale) := by
  have hstep : (0 : ℚ) < 10 ^ scale := by positivity
  refine hn.between (covers_magnitude hpos) ?_ ((le_div_iff₀ hstep).1 hk)
  gcongr

theorem covers_of_ge {n k : Nat} (hn : x.interval.Covers (n * 10 ^ scale)) (hkn : k ≤ n)
    (hk : x.magnitude / 10 ^ scale ≤ k) : x.interval.Covers (k * 10 ^ scale) := by
  have hstep : (0 : ℚ) < 10 ^ scale := by positivity
  refine (covers_magnitude hpos).between hn ((div_le_iff₀ hstep).1 hk) ?_
  gcongr

/-- If a grid has a point in the interval, then one is found. -/
theorem not_covers_of_find?_eq_none
    (h : (x.interval.neighbours scale).find? x.interval.contains = none) (k : Nat) :
    ¬ x.interval.Covers (k * 10 ^ scale) := by
  intro hk
  obtain ⟨near, below, hround, hbelow, habove, heq⟩ := exists_neighbours_eq x scale
  rw [heq] at h
  have hnear : ¬ x.interval.Covers (near * 10 ^ scale) := fun hcovers =>
    List.find?_eq_none.1 h ⟨near, scale⟩ List.mem_cons_self (Interval.contains_iff.2 hcovers)
  have hother : ¬ x.interval.Covers
      ((if near = below then below + 1 else below : Nat) * 10 ^ scale) := fun hcovers =>
    List.find?_eq_none.1 h _ (List.mem_cons_of_mem _ List.mem_cons_self)
      (Interval.contains_iff.2 hcovers)
  have hleast : below ≤ near := hround.le_of_sub_half_lt (by linarith)
  have hmost : near ≤ below + 1 := hround.le_of_lt_add_half (by push_cast; linarith)
  -- The point next to the double on the side of the given one is one of the two.
  rcases Nat.lt_or_ge below k with hlt | hge
  · have hcovers := covers_of_ge hpos hk hlt (by push_cast; exact habove.le)
    split at hother
    next => exact hother hcovers
    next hne =>
      obtain rfl : near = below + 1 := by omega
      exact hnear hcovers
  · have hcovers := covers_of_le hpos hk hge hbelow
    split at hother
    next hsame => exact hnear (hsame ▸ hcovers)
    next => exact hother hcovers

omit hpos in
/-- A point that is nearer than all others in the interval. -/
theorem isNearest_of_lt {n : Nat} (hn : x.interval.Covers (n * 10 ^ scale))
    (h : ∀ k : Nat, x.interval.Covers (k * 10 ^ scale) → k ≠ n →
      |(n : ℚ) - x.magnitude / 10 ^ scale| < |k - x.magnitude / 10 ^ scale|) :
    IsNearest x scale n := by
  have hstep : (0 : ℚ) < 10 ^ scale := by positivity
  refine ⟨hn, fun k hk => ?_, fun k hk hne hsame => ?_⟩
  · rcases eq_or_ne k n with rfl | hne
    · exact le_rfl
    · rw [abs_mul_sub, abs_mul_sub]
      exact mul_le_mul_of_nonneg_right (h k hk hne).le hstep.le
  · rw [abs_mul_sub, abs_mul_sub, mul_left_inj' hstep.ne'] at hsame
    exact absurd hsame (h k hk hne).ne'

/-- The point above the double, where the one below it is not in the interval. -/
theorem isNearest_above {below : Nat} (hbelow : (below : ℚ) ≤ x.magnitude / 10 ^ scale)
    (habove : x.magnitude / 10 ^ scale < below + 1)
    (hnot : ¬ x.interval.Covers (below * 10 ^ scale))
    (hcovers : x.interval.Covers ((below + 1 : Nat) * 10 ^ scale)) :
    IsNearest x scale (below + 1) := by
  refine isNearest_of_lt hcovers fun k hk hne => ?_
  have hlt : below + 1 < k := by
    by_contra hle
    exact hnot (covers_of_le hpos hk (by omega) hbelow)
  have hlt' : ((below + 1 : Nat) : ℚ) < k := by exact_mod_cast hlt
  push_cast at hlt' ⊢
  rw [abs_of_nonneg (by linarith), abs_of_nonneg (by linarith)]
  linarith

/-- The point below the double, where the one above it is not in the interval. -/
theorem isNearest_below {below : Nat} (hbelow : (below : ℚ) ≤ x.magnitude / 10 ^ scale)
    (habove : x.magnitude / 10 ^ scale < below + 1)
    (hnot : ¬ x.interval.Covers ((below + 1 : Nat) * 10 ^ scale))
    (hcovers : x.interval.Covers (below * 10 ^ scale)) : IsNearest x scale below := by
  refine isNearest_of_lt hcovers fun k hk hne => ?_
  have hlt : k < below := by
    by_contra hle
    exact hnot (covers_of_ge hpos hk (by omega) (by push_cast; exact habove.le))
  have hlt' : (k : ℚ) < below := by exact_mod_cast hlt
  rw [abs_sub_comm, abs_sub_comm (k : ℚ), abs_of_nonneg (by linarith), abs_of_nonneg (by linarith)]
  linarith

/-- What is found is the nearest point in the interval. -/
theorem isNearest_of_find?_eq_some {d : Decimal}
    (h : (x.interval.neighbours scale).find? x.interval.contains = some d) :
    ∃ n : Nat, d = ⟨n, scale⟩ ∧ IsNearest x scale n ∧ (n : ℚ) ≤ x.magnitude / 10 ^ scale + 1 := by
  have hstep : (0 : ℚ) < 10 ^ scale := by positivity
  obtain ⟨near, below, hround, hbelow, habove, heq⟩ := exists_neighbours_eq x scale
  have hleast : below ≤ near := hround.le_of_sub_half_lt (by linarith)
  have hmost : near ≤ below + 1 := hround.le_of_lt_add_half (by push_cast; linarith)
  have hcast : (near : ℚ) ≤ below + 1 := by exact_mod_cast hmost
  rw [heq, List.find?_cons] at h
  split at h
  next hcontains =>
    refine ⟨near, (Option.some.inj h).symm, ⟨Interval.contains_iff.1 hcontains, ?_, ?_⟩,
      by linarith⟩
    · intro k _
      rw [abs_mul_sub, abs_mul_sub]
      exact mul_le_mul_of_nonneg_right (hround.abs_sub_le k) hstep.le
    · intro k _ hne hsame
      rw [abs_mul_sub, abs_mul_sub, mul_left_inj' hstep.ne'] at hsame
      exact hround.even_of_abs_sub_eq hne hsame
  next hcontains =>
    have hnot : ¬ x.interval.Covers (near * 10 ^ scale) := fun hcovers =>
      Bool.noConfusion (hcontains.symm.trans (Interval.contains_iff.2 hcovers))
    have hother := Interval.contains_iff.1 (List.find?_some h)
    obtain rfl := List.mem_singleton.1 (List.mem_of_find?_eq_some h)
    refine ⟨_, rfl, ?_⟩
    by_cases hsame : near = below
    · rw [if_pos hsame] at hother ⊢
      rw [hsame] at hnot
      exact ⟨isNearest_above hpos hbelow habove hnot hother, by push_cast; linarith⟩
    · obtain rfl : near = below + 1 := by omega
      rw [if_neg hsame] at hother ⊢
      exact ⟨isNearest_below hpos hbelow habove hnot hother, by linarith⟩

end

/-! ### The search -/

/-- With enough fuel the search ends at the first count of digits that has a hit. -/
theorem exists_shortestFrom_eq {i : Interval} {whole : Int} {last : Nat}
    (hlast : (i.neighbours (whole - last)).find? i.contains ≠ none) {fuel count : Nat}
    (hcount : count ≤ last) (hfuel : last < count + fuel) :
    ∃ c, count ≤ c ∧ c ≤ last ∧
      (i.neighbours (whole - c)).find? i.contains = some (shortestFrom i whole fuel count) ∧
      ∀ c', count ≤ c' → c' < c → (i.neighbours (whole - c')).find? i.contains = none := by
  induction fuel generalizing count with
  | zero => omega
  | succ fuel ih =>
    unfold shortestFrom
    split
    next d hfound => exact ⟨count, le_rfl, hcount, hfound, fun c' hge hlt => by omega⟩
    next hnone =>
      have hne : count ≠ last := by
        rintro rfl
        exact hlast hnone
      have hnext : count + 1 ≤ last := by omega
      obtain ⟨c, hge, hle, hfound, hbefore⟩ := ih hnext (by omega)
      refine ⟨c, by omega, hle, hfound, fun c' hge' hlt => ?_⟩
      rcases hge'.eq_or_lt with rfl | hgt
      · exact hnone
      · exact hbefore c' hgt hlt

section

variable {x : Double} {whole : Int} (hpos : 0 < x.significand)
  (hlow : (10 : ℚ) ^ (whole - 1) ≤ x.magnitude) (hhigh : x.magnitude < 10 ^ whole)

include hpos hlow

/-- Seventeen digits are enough. -/
theorem find?_seventeen_ne_none (hbits : x.significand < 2 * leastNormal) :
    (x.interval.neighbours (whole - (17 : Nat))).find? x.interval.contains ≠ none := by
  intro hnone
  have hstep : (0 : ℚ) < 10 ^ (whole - (17 : Nat)) := by positivity
  have hmagnitude : (10 : ℚ) ^ 16 * 10 ^ (whole - (17 : Nat)) ≤ x.magnitude := by
    refine le_of_eq_of_le ?_ hlow
    rw [← zpow_natCast, ← zpow_add₀ (by norm_num)]
    congr 1
    omega
  obtain ⟨near, below, hround, -, -, -⟩ := exists_neighbours_eq x (whole - (17 : Nat))
  refine not_covers_of_find?_eq_none hpos hnone near (covers_of_abs_sub_lt hpos hbits ?_)
  have hhalf : |(near : ℚ) - x.magnitude / 10 ^ (whole - (17 : Nat))| ≤ 1 / 2 :=
    abs_le.2 ⟨by linarith [hround.high], by linarith [hround.low]⟩
  rw [abs_mul_sub]
  have hscaled := mul_le_mul_of_nonneg_right hhalf hstep.le
  rw [lt_div_iff₀ (by norm_num)]
  refine (mul_le_mul_of_nonneg_right hscaled (by norm_num)).trans_lt ?_
  generalize (10 : ℚ) ^ (whole - (17 : Nat)) = step at hstep hmagnitude
  norm_num at hmagnitude ⊢
  linarith

/-- The decimals of a count of digits are on the grid of that count, or farther from the double than
a point of the grid. -/
theorem exists_grid_point {d : Decimal} (hcovers : x.interval.Covers d.value) :
    ∃ k : Nat, x.interval.Covers (k * 10 ^ (whole - d.length)) ∧
      |k * 10 ^ (whole - d.length) - x.magnitude| ≤ |d.value - x.magnitude| ∧
      (|k * 10 ^ (whole - d.length) - x.magnitude| = |d.value - x.magnitude| →
        k * 10 ^ (whole - d.length) = d.value) := by
  have hdigits : 0 < d.digits := Decimal.value_pos_iff.1 (pos_of_covers hpos hcovers)
  have hlength : 0 < d.length := Nat.length_toDigits_pos
  by_cases hsmall : d.value < 10 ^ (whole - 1)
  · -- The least number with as many digits before the point lies between.
    refine ⟨10 ^ (d.length - 1), ?_⟩
    have hpoint : ((10 ^ (d.length - 1) : Nat) : ℚ) * 10 ^ (whole - d.length) = 10 ^ (whole - 1) := by
      push_cast
      rw [← zpow_natCast, ← zpow_add₀ (by norm_num)]
      congr 1
      omega
    rw [hpoint, abs_sub_comm, abs_of_nonneg (by linarith), abs_sub_comm, abs_of_nonneg (by linarith)]
    refine ⟨hcovers.between (covers_magnitude hpos) hsmall.le hlow, by linarith, fun h => ?_⟩
    linarith
  · have hscale : whole - d.length ≤ d.scale := by
      have hlt := (not_lt.1 hsmall).trans_lt (value_bounds hdigits).2
      have hexponent := (zpow_lt_zpow_iff_right₀ (by norm_num : (1 : ℚ) < 10)).1 hlt
      rw [Decimal.length]
      omega
    obtain ⟨k, hk⟩ := Decimal.exists_value_eq hscale
    exact ⟨k, hk ▸ hcovers, by rw [hk], fun _ => hk.symm⟩

/-- A count of digits that is found is no greater than that of any decimal in the interval. -/
theorem le_length_of_covers {c : Nat}
    (hbefore : ∀ c', 1 ≤ c' → c' < c →
      (x.interval.neighbours (whole - c')).find? x.interval.contains = none)
    {d : Decimal} (hcovers : x.interval.Covers d.value) : c ≤ d.length := by
  by_contra hlt
  have hlength : 0 < d.length := Nat.length_toDigits_pos
  obtain ⟨k, hk, -, -⟩ := exists_grid_point hpos hlow hcovers
  exact not_covers_of_find?_eq_none hpos (hbefore d.length hlength (by omega)) k hk

end

/-! ### The shortest decimal -/

/-- Whether a decimal is the shortest one that rounds to a double: none has fewer digits, of those
with as many none is nearer, and it is the even one of two that are equally near. -/
structure IsShortest (x : Double) (d : Decimal) : Prop where
  covers : x.interval.Covers d.value
  fewest : ∀ e : Decimal, x.interval.Covers e.value → d.length ≤ e.length
  nearest : ∀ e : Decimal, x.interval.Covers e.value → e.length = d.length →
    |d.value - x.magnitude| ≤ |e.value - x.magnitude|
  even : ∀ e : Decimal, x.interval.Covers e.value → e.length = d.length → e.value ≠ d.value →
    |e.value - x.magnitude| = |d.value - x.magnitude| → d.digits % 2 = 0 ∧ e.digits % 2 = 1

/-- There is one shortest decimal, but for how zero is written. -/
theorem IsShortest.value_unique {x : Double} {d e : Decimal} (hd : IsShortest x d)
    (he : IsShortest x e) : d.value = e.value := by
  by_contra hne
  have hlength : e.length = d.length :=
    Nat.le_antisymm (he.fewest d hd.covers) (hd.fewest e he.covers)
  have hsame : |e.value - x.magnitude| = |d.value - x.magnitude| :=
    le_antisymm (he.nearest d hd.covers hlength.symm) (hd.nearest e he.covers hlength)
  have hodd := (hd.even e he.covers hlength (Ne.symm hne) hsame).2
  have heven := (he.even d hd.covers hlength.symm hne hsame.symm).1
  omega

/-- A decimal with a zero at its end does not have the fewest digits. -/
theorem mod_ten_of_fewest {x : Double} (hpos : 0 < x.significand) {d : Decimal}
    (hcovers : x.interval.Covers d.value)
    (hfewest : ∀ e : Decimal, x.interval.Covers e.value → d.length ≤ e.length) :
    d.digits % 10 ≠ 0 := by
  intro hzero
  have hdigits : d.digits / 10 * 10 ^ 1 = d.digits := by
    rw [pow_one, Nat.div_mul_cancel (Nat.dvd_of_mod_eq_zero hzero)]
  have hvalue := Decimal.value_div_ten hzero
  have htenth : 0 < d.digits / 10 := Decimal.value_pos_iff.1 (pos_of_covers hpos (hvalue ▸ hcovers))
  have hlength : d.length = (Nat.toDigits 10 (d.digits / 10)).length + 1 := by
    rw [Decimal.length, ← hdigits, Text.toDigits_mul_pow htenth, List.length_append,
      List.length_replicate, hdigits]
  have hle := hfewest _ (hvalue ▸ hcovers)
  rw [hlength] at hle
  exact absurd hle (Nat.not_succ_le_self _)

/-- Around a double half way between nine and ten units, the interval reaches both of them only if
the significand is small. -/
theorem significand_lt_of_covers {x : Double} {scale : Int}
    (hnine : x.interval.Covers ((9 : Nat) * 10 ^ scale))
    (hten : x.interval.Covers ((10 : Nat) * 10 ^ scale))
    (h : 2 * x.magnitude = (19 : Nat) * 10 ^ scale) : x.significand < 19 := by
  have hunit : (0 : ℚ) < 2 ^ x.exponent := by positivity
  have hleft := (abs_le.1 hnine.abs_sub_le).1
  have hright := (abs_le.1 hten.abs_sub_le).2
  rw [magnitude] at h hleft hright
  push_cast at h hleft hright
  have hbound : (x.significand : ℚ) * 2 ^ x.exponent < 19 * 2 ^ x.exponent := by linarith
  exact_mod_cast (mul_lt_mul_iff_left₀ hunit).1 hbound

theorem dvd_significand {x : Double} {scale : Int}
    (h : 2 * x.magnitude = (19 : Nat) * 10 ^ scale) : 19 ∣ x.significand := by
  have hsame : ((19 : Nat) : ℚ) * 10 ^ scale = (2 * x.significand : Nat) * 2 ^ x.exponent := by
    rw [← h, magnitude]
    push_cast
    ring
  have heq := compareScaled_eq_eq_iff.2 hsame
  rw [compareScaled, Nat.compare_eq_eq] at heq
  have hall : 19 ∣ 2 * x.significand * power 2 x.exponent * power 10 (-scale) :=
    ⟨power 10 scale * power 2 (-x.exponent), by rw [← heq, mul_assoc]⟩
  have htwo : Nat.Coprime 19 (power 2 x.exponent) := Nat.Coprime.pow_right _ (by decide)
  have hpower : Nat.Coprime 19 (power 10 (-scale)) := Nat.Coprime.pow_right _ (by decide)
  exact Nat.Coprime.dvd_of_dvd_mul_left (by decide : Nat.Coprime 19 2)
    (htwo.dvd_of_dvd_mul_right (hpower.dvd_of_dvd_mul_right hall))

/-- No double is in the middle between nine and ten units, with both of them in its interval. -/
theorem two_mul_magnitude_ne {x : Double} (hpos : 0 < x.significand) {scale : Int}
    (hnine : x.interval.Covers ((9 : Nat) * 10 ^ scale))
    (hten : x.interval.Covers ((10 : Nat) * 10 ^ scale)) :
    2 * x.magnitude ≠ (19 : Nat) * 10 ^ scale := fun h =>
  absurd (Nat.le_of_dvd hpos (dvd_significand h)) (Nat.not_le.2 (significand_lt_of_covers hnine hten h))

/-- No other point is as near to a double below ten units as ten units are. -/
theorem abs_sub_ne_of_isNearest_ten {x : Double} (hpos : 0 < x.significand) {scale : Int}
    (hten : IsNearest x scale 10) (hhigh : x.magnitude < (10 : Nat) * 10 ^ scale) {k : Nat}
    (hk : x.interval.Covers (k * 10 ^ scale)) (hne : k ≠ 10) :
    |k * 10 ^ scale - x.magnitude| ≠ |(10 : Nat) * 10 ^ scale - x.magnitude| := by
  have hstep : (0 : ℚ) < 10 ^ scale := by positivity
  rw [abs_of_nonneg (sub_nonneg.2 hhigh.le)]
  intro htie
  rcases le_or_gt ((k : ℚ) * 10 ^ scale) x.magnitude with hbelow | habove
  · rw [abs_sub_comm, abs_of_nonneg (sub_nonneg.2 hbelow)] at htie
    have hlt : k ≤ 9 := by
      have hcast : (k : ℚ) < (10 : Nat) :=
        (mul_lt_mul_iff_left₀ hstep).1 (hbelow.trans_lt hhigh)
      have hten' : k < 10 := by exact_mod_cast hcast
      omega
    have hle : (k : ℚ) * 10 ^ scale ≤ (9 : Nat) * 10 ^ scale := by gcongr
    have hnine : x.interval.Covers ((9 : Nat) * 10 ^ scale) :=
      hk.between hten.covers hle (by gcongr; decide)
    have hnearest := hten.nearest 9 hnine
    rw [abs_of_nonneg (sub_nonneg.2 hhigh.le)] at hnearest
    push_cast at htie hhigh hle hnearest
    -- Nine units are nearer than the other point, unless they are this point.
    have hmiddle : (19 : ℚ) * 10 ^ scale ≤ 2 * x.magnitude := by
      rcases abs_cases ((9 : ℚ) * (10 : ℚ) ^ scale - x.magnitude) with hcase | hcase <;> linarith
    refine two_mul_magnitude_ne hpos hnine hten.covers (le_antisymm ?_ (by push_cast; exact hmiddle))
    push_cast
    linarith
  · rw [abs_of_nonneg (sub_nonneg.2 habove.le), sub_left_inj, mul_left_inj' hstep.ne'] at htie
    exact hne (by exact_mod_cast htie)

/-- The first hit of the search, at a count of digits. -/
structure IsFirstHit (x : Double) (whole : Int) (c n : Nat) : Prop where
  low : (10 : ℚ) ^ (whole - 1) ≤ x.magnitude
  high : x.magnitude < 10 ^ whole
  count : 1 ≤ c
  nearest : IsNearest x (whole - c) n
  digits : n ≤ 10 ^ c
  before : ∀ c', 1 ≤ c' → c' < c →
    (x.interval.neighbours (whole - c')).find? x.interval.contains = none

theorem exists_isFirstHit {x : Double} (hpos : 0 < x.significand)
    (hbits : x.significand < 2 * leastNormal) :
    ∃ whole c n, IsFirstHit x whole c n ∧ c ≤ 17 ∧
      x.shortest = Decimal.normalize 20 ⟨n, whole - c⟩ := by
  have hpower (e : Int) : 0 < power 2 e := power_pos (by decide) e
  obtain ⟨whole, hwhole⟩ : ∃ whole, whole =
      wholeDigits (x.significand * power 2 x.exponent) (power 2 (-x.exponent)) := ⟨_, rfl⟩
  obtain ⟨hlow, hhigh⟩ := wholeDigits_spec (Nat.mul_pos hpos (hpower x.exponent))
    (hpower (-x.exponent))
  rw [← hwhole, ← magnitude_eq_div] at hlow hhigh
  obtain ⟨c, hcount, hlast, hfound, hbefore⟩ :=
    exists_shortestFrom_eq (find?_seventeen_ne_none hpos hlow hbits) (by omega : 1 ≤ 17)
      (by omega : 17 < 1 + 17)
  obtain ⟨n, hn, hnearest, hnext⟩ := isNearest_of_find?_eq_some hpos hfound
  refine ⟨whole, c, n, ⟨hlow, hhigh, hcount, hnearest, ?_, hbefore⟩, hlast, ?_⟩
  · have hstep : (0 : ℚ) < 10 ^ (whole - c) := by positivity
    have hscaled : x.magnitude / 10 ^ (whole - c) < (10 ^ c : Nat) := by
      rw [div_lt_iff₀ hstep]
      refine hhigh.trans_eq ?_
      push_cast
      rw [← zpow_natCast, ← zpow_add₀ (by norm_num)]
      congr 1
      omega
    have hlt : (n : ℚ) < (10 ^ c + 1 : Nat) := by
      rw [Nat.cast_add, Nat.cast_one]
      linarith
    exact Nat.le_of_lt_succ (by exact_mod_cast hlt)
  · rw [shortest, if_neg hpos.ne', ← hwhole, ← hn]

namespace IsFirstHit

variable {x : Double} (hpos : 0 < x.significand) {whole : Int} {c n : Nat}
  (h : IsFirstHit x whole c n)

include hpos h

theorem pos : 0 < n :=
  Decimal.value_pos_iff (d := ⟨n, whole - c⟩).1 (pos_of_covers hpos h.nearest.covers)

/-- A zero at the end would have been left out, unless there is no digit but for it. -/
theorem mod_ten_or : n % 10 ≠ 0 ∧ n < 10 ^ c ∨ c = 1 ∧ n = 10 := by
  have hcount := h.count
  have hdigits := h.digits
  have hn := h.pos hpos
  by_cases hzero : n % 10 = 0
  · right
    have hone : c = 1 := by
      by_contra hne
      refine not_covers_of_find?_eq_none hpos (h.before (c - 1) (by omega) (by omega)) (n / 10) ?_
      have hscale : whole - ((c - 1 : Nat) : Int) = whole - c + 1 := by omega
      have hvalue := Decimal.value_div_ten (d := ⟨n, whole - c⟩) hzero
      have hcovers : x.interval.Covers (Decimal.value ⟨n, whole - c⟩) := h.nearest.covers
      rw [← hvalue] at hcovers
      rw [hscale]
      exact hcovers
    subst hone
    exact ⟨rfl, by omega⟩
  · refine .inl ⟨hzero, lt_of_le_of_ne hdigits ?_⟩
    rintro rfl
    apply hzero
    rw [← Nat.succ_pred_eq_of_pos hcount, pow_succ, Nat.mul_mod_left]

theorem length_normalize : (Decimal.normalize 20 ⟨n, whole - c⟩).length = c := by
  have hvalue := Decimal.value_normalize 20 ⟨n, whole - c⟩
  have hcovers : x.interval.Covers (Decimal.normalize 20 ⟨n, whole - c⟩).value :=
    hvalue ▸ h.nearest.covers
  refine Nat.le_antisymm ?_ (le_length_of_covers hpos h.low h.before hcovers)
  apply (Nat.length_toDigits_le_iff (b := 10) (by omega) h.count).2
  rcases h.mod_ten_or hpos with ⟨hmod, hlt⟩ | ⟨rfl, rfl⟩
  · rwa [Decimal.normalize_of_mod_ten_ne_zero hmod]
  · have hone : (10 / 10) % 10 ≠ 0 := by decide
    rw [Decimal.normalize, if_pos ⟨Nat.succ_ne_zero 9, Nat.mod_self 10⟩,
      Decimal.normalize_of_mod_ten_ne_zero hone]
    change 10 / 10 < 10 ^ 1
    decide

theorem isShortest : IsShortest x (Decimal.normalize 20 ⟨n, whole - c⟩) := by
  have hvalue : (Decimal.normalize 20 ⟨n, whole - c⟩).value = n * 10 ^ (whole - c) :=
    Decimal.value_normalize 20 ⟨n, whole - c⟩
  have hlength := h.length_normalize hpos
  have hcovers : x.interval.Covers (Decimal.normalize 20 ⟨n, whole - c⟩).value :=
    hvalue ▸ h.nearest.covers
  have hfewest (e : Decimal) (he : x.interval.Covers e.value) : c ≤ e.length :=
    le_length_of_covers hpos h.low h.before he
  refine ⟨hcovers, fun e he => hlength.symm ▸ hfewest e he, fun e he hsame => ?_,
    fun e he hsame hne htie => ?_⟩
  · obtain ⟨k, hk, hle, -⟩ := exists_grid_point hpos h.low he
    rw [hsame, hlength] at hk hle
    rw [hvalue]
    exact (h.nearest.nearest k hk).trans hle
  · obtain ⟨k, hk, hle, hon⟩ := exists_grid_point hpos h.low he
    rw [hsame, hlength] at hk hle hon
    rw [hvalue] at hne htie
    have hkvalue := hon (le_antisymm hle (htie.trans_le (h.nearest.nearest k hk)))
    rw [← hkvalue] at hne htie
    have hkn : k ≠ n := fun heq => hne (by rw [heq])
    obtain ⟨heven, hodd⟩ := h.nearest.even k hk hkn htie
    have hdigits : e = ⟨k, whole - c⟩ := by
      refine Decimal.eq_of_value_eq (mod_ten_of_fewest hpos he fun e' he' => ?_)
        (b := ⟨k, whole - c⟩) (by simp only; omega) hkvalue.symm
      rw [hsame, hlength]
      exact hfewest e' he'
    rw [hdigits]
    refine ⟨?_, hodd⟩
    rcases h.mod_ten_or hpos with ⟨hmod, -⟩ | ⟨rfl, rfl⟩
    · rwa [Decimal.normalize_of_mod_ten_ne_zero hmod]
    · have hhigh := h.high
      rw [← sub_add_cancel whole (1 : Nat), zpow_add₀ (by norm_num), mul_comm] at hhigh
      exact absurd htie (abs_sub_ne_of_isNearest_ten hpos h.nearest hhigh hk hkn)

end IsFirstHit

theorem isShortest_zero (negative : Bool) (e : Int) : IsShortest ⟨negative, 0, e⟩ ⟨0, 0⟩ := by
  have hmagnitude : (⟨negative, 0, e⟩ : Double).magnitude = 0 := by simp [magnitude]
  have hvalue : (⟨0, 0⟩ : Decimal).value = 0 := by simp [Decimal.value]
  refine ⟨.inr ⟨rfl, .inl ?_⟩, fun d _ => Nat.length_toDigits_pos, fun d _ _ => ?_,
    fun d _ _ hne htie => ?_⟩
  · simp [hvalue, interval, leastNormal_eq]
  · rw [hmagnitude, hvalue, sub_zero, abs_zero]
    exact abs_nonneg _
  · rw [hmagnitude, hvalue, sub_zero, sub_zero, abs_zero, abs_eq_zero] at htie
    exact absurd (htie.trans hvalue.symm) hne

/-- The decimal that is found is the shortest one. -/
theorem isShortest_shortest {x : Double} (hbits : x.significand < 2 * leastNormal) :
    IsShortest x x.shortest := by
  rcases Nat.eq_zero_or_pos x.significand with hzero | hpos
  · obtain ⟨negative, significand, exponent⟩ := x
    obtain rfl : significand = 0 := hzero
    exact isShortest_zero negative exponent
  · obtain ⟨whole, c, n, hfirst, -, hshortest⟩ := exists_isFirstHit hpos hbits
    rw [hshortest]
    exact hfirst.isShortest hpos

theorem value_shortest_eq_iff {x : Double} (hbits : x.significand < 2 * leastNormal) {q : ℚ} :
    x.shortest.value = q ↔ ∃ d, IsShortest x d ∧ d.value = q := by
  constructor
  · intro h
    exact ⟨x.shortest, isShortest_shortest hbits, h⟩
  · rintro ⟨d, hd, rfl⟩
    exact (isShortest_shortest hbits).value_unique hd

end SeriesQuery.Double
