import Mathlib.Algebra.Order.Field.Power
import Mathlib.Algebra.Order.Field.Rat
import Mathlib.Tactic.FieldSimp
import Mathlib.Tactic.GCongr
import Mathlib.Tactic.Linarith
import Mathlib.Tactic.NormNum
import Mathlib.Tactic.Positivity
import Mathlib.Tactic.Ring
import SeriesQuery.Double.Text

/-!
# Rounding to doubles

A fraction in the range of the normal doubles is rounded to a significand of 53 bits, and lies
within half a unit of the last place of the double. The statements are about the rational numbers
that the pairs of integers stand for.
-/

namespace SeriesQuery.Double

/-! ### Powers -/

theorem power_pos {base : Nat} (hbase : 0 < base) (e : Int) : 0 < power base e :=
  Nat.pow_pos hbase

theorem cast_power (base : Nat) (e : Int) : (power base e : ℚ) = (base : ℚ) ^ e.toNat :=
  Nat.cast_pow base e.toNat

/-- A power with an exponent of any sign, as a fraction of two powers of which one is one. -/
theorem power_div_power {base : Nat} (hbase : 0 < base) (e : Int) :
    (power base e : ℚ) / power base (-e) = (base : ℚ) ^ e := by
  have hne : (base : ℚ) ≠ 0 := by exact_mod_cast hbase.ne'
  rw [cast_power, cast_power, ← zpow_natCast, ← zpow_natCast, ← zpow_sub₀ hne]
  congr 1
  omega

theorem scaled_spec (num : Nat) {den : Nat} (hden : 0 < den) (e : Int) :
    0 < (scaled num den e).2 ∧
      ((scaled num den e).1 : ℚ) / (scaled num den e).2 = num / den / (2 : ℚ) ^ e := by
  unfold scaled
  split
  next he =>
    obtain ⟨n, rfl⟩ := Int.eq_ofNat_of_zero_le he
    refine ⟨Nat.mul_pos hden (power_pos (by decide) _), ?_⟩
    simp [cast_power, div_div]
  next he =>
    obtain ⟨n, rfl⟩ : ∃ n : Nat, e = -(n : Int) := ⟨(-e).toNat, by omega⟩
    refine ⟨hden, ?_⟩
    simp [cast_power, mul_div_right_comm]

/-! ### Rounding to an integer -/

/-- Whether an integer is the nearest one to a rational number, and an even one if there are two. -/
structure RoundsTo (q : ℚ) (m : Nat) : Prop where
  low : (m : ℚ) - 1 / 2 ≤ q
  high : q ≤ m + 1 / 2
  even : q = m - 1 / 2 ∨ q = m + 1 / 2 → m % 2 = 0

namespace RoundsTo

variable {q : ℚ} {m n : Nat}

theorem le_of_sub_half_lt (hm : RoundsTo q m) (hn : n - 1 / 2 < q) : n ≤ m := by
  have hlt : (n : ℚ) < (m + 1 : Nat) := by
    push_cast
    linarith [hm.high]
  exact Nat.le_of_lt_succ (by exact_mod_cast hlt)

theorem le_of_lt_add_half (hm : RoundsTo q m) (hn : q < n + 1 / 2) : m ≤ n := by
  have hlt : (m : ℚ) < (n + 1 : Nat) := by
    push_cast
    linarith [hm.low]
  exact Nat.le_of_lt_succ (by exact_mod_cast hlt)

theorem self (m : Nat) : RoundsTo m m :=
  ⟨by linarith, by linarith, fun htie => by rcases htie with htie | htie <;> linarith⟩

theorem unique (hm : RoundsTo q m) (hn : RoundsTo q n) : m = n := by
  wlog hlt : m < n generalizing m n
  · rcases (Nat.not_lt.1 hlt).eq_or_lt with heq | hgt
    · exact heq.symm
    · exact (this hn hm hgt).symm
  have hstep : (m : ℚ) + 1 ≤ n := by exact_mod_cast hlt
  have hhigh := hm.high
  have hlow := hn.low
  -- The number is half way between two integers, which are not both even.
  have hmeven := hm.even (.inr (by linarith))
  have hneven := hn.even (.inl (by linarith))
  have hnext : n = m + 1 := by
    have hcast : (n : ℚ) = (m + 1 : Nat) := by
      push_cast
      linarith
    exact_mod_cast hcast
  omega

/-- The comparisons that make an integer the nearest one to a fraction, without a division. -/
theorem of_mul {num den : Nat} (hden : 0 < den) (hlow : 2 * (m * den) ≤ 2 * num + den)
    (hhigh : 2 * num ≤ 2 * (m * den) + den)
    (heven : 2 * (m * den) = 2 * num + den ∨ 2 * num = 2 * (m * den) + den → m % 2 = 0) :
    RoundsTo (num / den) m := by
  have hpos : (0 : ℚ) < den := by exact_mod_cast hden
  have hlow' : (2 : ℚ) * (m * den) ≤ 2 * num + den := by exact_mod_cast hlow
  have hhigh' : (2 : ℚ) * num ≤ 2 * (m * den) + den := by exact_mod_cast hhigh
  refine ⟨?_, ?_, fun htie => heven ?_⟩
  · rw [le_div_iff₀ hpos]
    linarith
  · rw [div_le_iff₀ hpos]
    linarith
  · rcases htie with htie | htie <;> rw [div_eq_iff hpos.ne'] at htie
    · left
      have hnum : (2 : ℚ) * (m * den) = 2 * num + den := by linarith
      exact_mod_cast hnum
    · right
      have hnum : (2 : ℚ) * num = 2 * (m * den) + den := by linarith
      exact_mod_cast hnum

end RoundsTo

theorem roundsTo_roundHalfEven (num : Nat) {den : Nat} (hden : 0 < den) :
    RoundsTo (num / den) (roundHalfEven num den) := by
  have hr : num % den < den := Nat.mod_lt num hden
  have hnum : num / den * den + num % den = num := Nat.div_add_mod' num den
  have hnext : (num / den + 1) * den = num / den * den + den := Nat.succ_mul _ _
  unfold roundHalfEven
  simp only
  split
  next hlt => exact .of_mul hden (by omega) (by omega) (by omega)
  next hge =>
    split
    next hgt => exact .of_mul hden (by omega) (by omega) (by omega)
    next hle =>
      rcases Nat.mod_two_eq_zero_or_one (num / den) with heven | hodd
      · rw [heven, Nat.add_zero]
        exact .of_mul hden (by omega) (by omega) fun _ => heven
      · rw [hodd]
        exact .of_mul hden (by omega) (by omega) (by omega)

/-! ### The exponent of a fraction -/

theorem leastNormal_eq : leastNormal = 2 ^ 52 := rfl

theorem leastNormal_lt_two_mul : leastNormal < 2 * leastNormal := by decide

theorem cast_leastNormal : (leastNormal : ℚ) = (2 : ℚ) ^ (52 : Int) := by
  rw [leastNormal_eq]
  norm_num

/-- Before the last step the exponent of a fraction is off by at most one. -/
theorem quotient_bounds {num den : Nat} (hnum : 0 < num) (hden : 0 < den) :
    (2 : ℚ) ^ ((num.log2 : Int) - den.log2 - 1) < num / den ∧
      (num : ℚ) / den < 2 ^ ((num.log2 : Int) - den.log2 + 1) := by
  have htwo : (2 : ℚ) ≠ 0 := two_ne_zero
  have hnumPos : (0 : ℚ) < num := by exact_mod_cast hnum
  have hdenPos : (0 : ℚ) < den := by exact_mod_cast hden
  have hnumLow : (2 : ℚ) ^ (num.log2 : Int) ≤ num := by
    exact_mod_cast Nat.log2_self_le hnum.ne'
  have hnumHigh : (num : ℚ) < 2 ^ ((num.log2 : Int) + 1) := by
    exact_mod_cast Nat.lt_log2_self (n := num)
  have hdenLow : (2 : ℚ) ^ (den.log2 : Int) ≤ den := by
    exact_mod_cast Nat.log2_self_le hden.ne'
  have hdenHigh : (den : ℚ) < 2 ^ ((den.log2 : Int) + 1) := by
    exact_mod_cast Nat.lt_log2_self (n := den)
  constructor
  · rw [lt_div_iff₀ hdenPos]
    calc (2 : ℚ) ^ ((num.log2 : Int) - den.log2 - 1) * den
        < 2 ^ ((num.log2 : Int) - den.log2 - 1) * 2 ^ ((den.log2 : Int) + 1) := by
          gcongr
      _ = 2 ^ (num.log2 : Int) := by
          rw [← zpow_add₀ htwo]; congr 1; omega
      _ ≤ num := hnumLow
  · rw [div_lt_iff₀ hdenPos]
    calc (num : ℚ) < 2 ^ ((num.log2 : Int) + 1) := hnumHigh
      _ = 2 ^ ((num.log2 : Int) - den.log2 + 1) * 2 ^ (den.log2 : Int) := by
          rw [← zpow_add₀ htwo]; congr 1; omega
      _ ≤ 2 ^ ((num.log2 : Int) - den.log2 + 1) * den := by gcongr

theorem leastNormal_mul_zpow (e : Int) : leastNormal * (2 : ℚ) ^ e = 2 ^ (e + 52) := by
  rw [cast_leastNormal, ← zpow_add₀ two_ne_zero, add_comm]

theorem two_mul_leastNormal_mul_zpow (e : Int) : 2 * leastNormal * (2 : ℚ) ^ e = 2 ^ (e + 53) := by
  rw [mul_assoc, leastNormal_mul_zpow, ← zpow_one_add₀ two_ne_zero]
  congr 1
  omega

/-- There is only one exponent at which a number has a significand of 53 bits. -/
theorem exponent_unique {q : ℚ} {e e' : Int} (hlow : leastNormal * (2 : ℚ) ^ e ≤ q)
    (hhigh : q < 2 * leastNormal * (2 : ℚ) ^ e) (hlow' : leastNormal * (2 : ℚ) ^ e' ≤ q)
    (hhigh' : q < 2 * leastNormal * (2 : ℚ) ^ e') : e = e' := by
  rw [leastNormal_mul_zpow] at hlow hlow'
  rw [two_mul_leastNormal_mul_zpow] at hhigh hhigh'
  have hle := (zpow_lt_zpow_iff_right₀ one_lt_two).1 (hlow.trans_lt hhigh')
  have hge := (zpow_lt_zpow_iff_right₀ one_lt_two).1 (hlow'.trans_lt hhigh)
  omega

/-- The exponent at which a fraction has a significand of 53 bits is the one that is chosen, unless
it is below the least exponent. -/
theorem exists_exponentOf_eq {num den : Nat} (hnum : 0 < num) (hden : 0 < den) :
    ∃ e, exponentOf num den = max minExponent e ∧ leastNormal * (2 : ℚ) ^ e ≤ num / den ∧
      (num : ℚ) / den < 2 * leastNormal * 2 ^ e := by
  obtain ⟨low, hlowEq⟩ : ∃ low : Int, low = num.log2 - den.log2 - 53 := ⟨_, rfl⟩
  obtain ⟨hlow, hhigh⟩ := quotient_bounds hnum hden
  rw [show (num.log2 : Int) - den.log2 - 1 = low + 52 by omega] at hlow
  rw [show (num.log2 : Int) - den.log2 + 1 = low + 1 + 53 by omega] at hhigh
  obtain ⟨hd, hscaled⟩ := scaled_spec num hden low
  have hdPos : (0 : ℚ) < (scaled num den low).2 := by exact_mod_cast hd
  have hpow : (0 : ℚ) < 2 ^ low := by positivity
  -- The quotient of the integers has 54 bits exactly when the fraction is at least `2 ^ 53` units.
  have hstep : 2 * leastNormal ≤ (scaled num den low).1 / (scaled num den low).2 ↔
      2 * leastNormal * (2 : ℚ) ^ low ≤ num / den := by
    rw [Nat.le_div_iff_mul_le hd, ← le_div_iff₀ hpow, ← hscaled, le_div_iff₀ hdPos]
    exact_mod_cast Iff.rfl
  have hchoice : exponentOf num den =
      max minExponent (if 2 * leastNormal * (2 : ℚ) ^ low ≤ num / den then low + 1 else low) := by
    rw [exponentOf, ← hlowEq]
    simp only [hstep]
  refine ⟨_, hchoice, ?_⟩
  simp only [leastNormal_mul_zpow, two_mul_leastNormal_mul_zpow]
  split
  next h =>
    rw [show low + 53 = low + 1 + 52 by omega] at h
    exact ⟨h, hhigh⟩
  next h => exact ⟨hlow.le, not_le.1 h⟩

theorem lt_two_mul_leastNormal_mul_zpow {num den : Nat} (hnum : 0 < num) (hden : 0 < den) :
    (num : ℚ) / den < 2 * leastNormal * 2 ^ exponentOf num den := by
  obtain ⟨e, he, -, hhigh⟩ := exists_exponentOf_eq hnum hden
  rw [he]
  rw [two_mul_leastNormal_mul_zpow] at hhigh ⊢
  exact hhigh.trans_le (zpow_le_zpow_right₀ one_le_two (by omega))

/-- A fraction that is no smaller than the least normal double has a significand of 53 bits. -/
theorem leastNormal_mul_zpow_le {num den : Nat} (hnum : 0 < num) (hden : 0 < den)
    (hnormal : (2 : ℚ) ^ (-1022 : Int) ≤ num / den) :
    leastNormal * (2 : ℚ) ^ exponentOf num den ≤ num / den := by
  obtain ⟨e, he, hlow, hhigh⟩ := exists_exponentOf_eq hnum hden
  rw [two_mul_leastNormal_mul_zpow] at hhigh
  have hlt := (zpow_lt_zpow_iff_right₀ one_lt_two).1 (hnormal.trans_lt hhigh)
  have hleast : minExponent ≤ e := by
    unfold minExponent
    omega
  rwa [he, max_eq_right hleast]

/-! ### The nearest double -/

/-- The number that a double stands for, but for the sign. -/
def magnitude (x : Double) : ℚ := x.significand * 2 ^ x.exponent

/-- Whether a rational number lies in an interval. -/
def Interval.Covers (i : Interval) (q : ℚ) : Prop :=
  i.low * 2 ^ i.exponent < q ∧ q < i.high * 2 ^ i.exponent ∨
    i.closed ∧ (q = i.low * 2 ^ i.exponent ∨ q = i.high * 2 ^ i.exponent)

/-- A double whose significand has 53 bits. -/
structure IsNormal (x : Double) : Prop where
  low : leastNormal ≤ x.significand
  high : x.significand < 2 * leastNormal

theorem zpow_eq_four_mul (e : Int) : (2 : ℚ) ^ e = 4 * 2 ^ (e - 2) := by
  have htwo : (2 : ℚ) ≠ 0 := two_ne_zero
  rw [zpow_sub₀ htwo]
  norm_num
  ring

theorem covers_of_roundsTo {q : ℚ} {m : Nat} (hm : RoundsTo q m) (hq : leastNormal ≤ q)
    (hpos : leastNormal ≤ m) (negative : Bool) (e : Int) :
    (interval ⟨negative, m, e⟩).Covers (q * 2 ^ e) := by
  have hunit : (0 : ℚ) < 2 ^ (e - 2) := by positivity
  have hone : 1 ≤ m := le_trans (by decide) hpos
  have hlow2 : ((4 * m - 2 : Nat) : ℚ) = 4 * m - 2 := by
    rw [Nat.cast_sub (by omega)]; push_cast; rfl
  have hlow1 : ((4 * m - 1 : Nat) : ℚ) = 4 * m - 1 := by
    rw [Nat.cast_sub (by omega)]; push_cast; rfl
  have hhigh2 : ((4 * m + 2 : Nat) : ℚ) = 4 * m + 2 := by push_cast; rfl
  obtain ⟨hlow, hhigh, heven⟩ := hm
  simp only [Interval.Covers, interval]
  rw [zpow_eq_four_mul e, ← mul_assoc, hhigh2]
  rcases hhigh.lt_or_eq with hhigh | htie
  · split
    next hboundary =>
      have hqm : (m : ℚ) ≤ q := by rw [hboundary.1]; exact hq
      left
      rw [hlow1]
      constructor <;> gcongr <;> linarith
    next =>
      rw [hlow2]
      rcases hlow.lt_or_eq with hlow | htie
      · left
        constructor <;> gcongr <;> linarith
      · right
        refine ⟨by simpa using heven (.inl htie.symm), .inl ?_⟩
        rw [← htie]; ring
  · right
    refine ⟨by simpa using heven (.inr htie), .inr ?_⟩
    rw [htie]; ring

/-- A significand that is rounded up to one bit too many is that of the next power of two, below
which doubles are twice as dense. -/
theorem covers_of_carry {q : ℚ} (hlow : 2 * leastNormal - 1 / 2 ≤ q) (hhigh : q < 2 * leastNormal)
    (negative : Bool) {e : Int} (he : minExponent ≤ e) :
    (interval ⟨negative, leastNormal, e + 1⟩).Covers (q * 2 ^ e) := by
  have hunit : (0 : ℚ) < 2 ^ (e + 1 - 2) := by positivity
  have hpow : (2 : ℚ) ^ e = 2 * 2 ^ (e + 1 - 2) := by
    rw [← zpow_one_add₀ two_ne_zero]
    congr 1
    omega
  have hlow1 : ((4 * leastNormal - 1 : Nat) : ℚ) = 4 * leastNormal - 1 := by
    rw [Nat.cast_sub (by decide)]; push_cast; rfl
  have hhigh2 : ((4 * leastNormal + 2 : Nat) : ℚ) = 4 * leastNormal + 2 := by push_cast; rfl
  have hdense : leastNormal = leastNormal ∧ minExponent < e + 1 := ⟨rfl, by omega⟩
  have heven : leastNormal % 2 = 0 := by decide
  unfold Interval.Covers interval
  rw [if_pos hdense, hpow, ← mul_assoc]
  simp only [hlow1, hhigh2]
  rcases hlow.lt_or_eq with hlow | htie
  · left
    constructor <;> gcongr <;> linarith
  · right
    refine ⟨decide_eq_true heven, .inl ?_⟩
    rw [← htie]; ring

/-- What rounding a positive fraction comes to. -/
theorem exists_roundsTo (negative : Bool) {num den : Nat} (hnum : 0 < num) (hden : 0 < den) {e : Int}
    (he : exponentOf num den = e) :
    ∃ m, RoundsTo (num / den / (2 : ℚ) ^ e) m ∧ m ≤ 2 * leastNormal ∧
      ofFraction? negative num den =
        if m = 2 * leastNormal then
          if maxExponent < e + 1 then none else some ⟨negative, leastNormal, e + 1⟩
        else if maxExponent < e then none else some ⟨negative, m, e⟩ := by
  have hunit : (0 : ℚ) < 2 ^ e := by positivity
  have hfit := lt_two_mul_leastNormal_mul_zpow hnum hden
  obtain ⟨hd, hscaled⟩ := scaled_spec num hden e
  have hround := roundsTo_roundHalfEven (scaled num den e).1 hd
  rw [hscaled] at hround
  rw [he, ← div_lt_iff₀ hunit] at hfit
  refine ⟨_, hround, hround.le_of_lt_add_half (by push_cast; linarith), ?_⟩
  simp only [ofFraction?, he]
  split <;> rfl

/-- A positive fraction in the range of the normal doubles has a double around which it lies. -/
theorem exists_ofFraction?_eq (negative : Bool) {num den : Nat} (hnum : 0 < num) (hden : 0 < den)
    (hlow : (2 : ℚ) ^ (-1022 : Int) ≤ num / den) (hhigh : (num : ℚ) / den < 2 ^ (1023 : Int)) :
    ∃ x, ofFraction? negative num den = some x ∧ x.negative = negative ∧ x.IsNormal ∧
      x.interval.Covers (num / den) := by
  obtain ⟨e, he⟩ : ∃ e, exponentOf num den = e := ⟨_, rfl⟩
  have hfit := leastNormal_mul_zpow_le hnum hden hlow
  have hfit' := lt_two_mul_leastNormal_mul_zpow hnum hden
  obtain ⟨m, hround, hmhigh, heq⟩ := exists_roundsTo negative hnum hden he
  rw [he] at hfit hfit'
  have hunit : (0 : ℚ) < 2 ^ e := by positivity
  have hleast : minExponent ≤ e := he ▸ le_max_left _ _
  have hmost : e + 1 ≤ maxExponent := by
    rw [leastNormal_mul_zpow] at hfit
    have hexponent := (zpow_lt_zpow_iff_right₀ one_lt_two).1 (hfit.trans_lt hhigh)
    unfold maxExponent
    omega
  rw [← le_div_iff₀ hunit] at hfit
  rw [← div_lt_iff₀ hunit] at hfit'
  have hback : (num : ℚ) / den / 2 ^ e * 2 ^ e = num / den := div_mul_cancel₀ _ hunit.ne'
  generalize (num : ℚ) / den / 2 ^ e = q at hround hfit hfit' hback
  have hmlow : leastNormal ≤ m := hround.le_of_sub_half_lt (by linarith)
  rw [heq, ← hback]
  by_cases hcarry : m = 2 * leastNormal
  · have hlow' := hround.low
    rw [hcarry] at hlow'
    rw [if_pos hcarry, if_neg (by omega)]
    refine ⟨_, rfl, rfl, ⟨le_rfl, leastNormal_lt_two_mul⟩, ?_⟩
    exact covers_of_carry (by push_cast at hlow'; exact hlow') hfit' negative hleast
  · rw [if_neg hcarry, if_neg (by omega)]
    refine ⟨_, rfl, rfl, ⟨hmlow, lt_of_le_of_ne hmhigh hcarry⟩, ?_⟩
    exact covers_of_roundsTo hround hfit hmlow negative e

/-- A fraction that is a normal double is rounded to it. -/
theorem ofFraction?_eq_of_eq (negative : Bool) {num den m : Nat} {e : Int} (hnum : 0 < num)
    (hden : 0 < den) (hlow : leastNormal ≤ m) (hhigh : m < 2 * leastNormal) (hleast : minExponent ≤ e)
    (hmost : e ≤ maxExponent) (h : (num : ℚ) / den = m * 2 ^ e) :
    ofFraction? negative num den = some ⟨negative, m, e⟩ := by
  have hunit : (0 : ℚ) < 2 ^ e := by positivity
  obtain ⟨e', he', hfit, hfit'⟩ := exists_exponentOf_eq hnum hden
  have hmlow : leastNormal * (2 : ℚ) ^ e ≤ num / den := by
    rw [h]
    gcongr
  have hmhigh : (num : ℚ) / den < 2 * leastNormal * 2 ^ e := by
    rw [h]
    gcongr
    exact_mod_cast hhigh
  obtain rfl := exponent_unique hfit hfit' hmlow hmhigh
  rw [max_eq_right hleast] at he'
  obtain ⟨m', hround, -, heq⟩ := exists_roundsTo negative hnum hden he'
  rw [h, mul_div_assoc, div_self hunit.ne', mul_one] at hround
  obtain rfl : m' = m := hround.unique (.self m)
  rw [heq, if_neg hhigh.ne, if_neg (not_lt.2 hmost)]

/-- How a number is rounded does not depend on the fraction that it is given as. -/
theorem ofFraction?_congr (negative : Bool) {num den num' den' : Nat} (hnum : 0 < num)
    (hden : 0 < den) (hnum' : 0 < num') (hden' : 0 < den') (h : (num : ℚ) / den = num' / den') :
    ofFraction? negative num den = ofFraction? negative num' den' := by
  obtain ⟨e, he, hlow, hhigh⟩ := exists_exponentOf_eq hnum hden
  obtain ⟨e', he', hlow', hhigh'⟩ := exists_exponentOf_eq hnum' hden'
  rw [h] at hlow hhigh
  obtain rfl := exponent_unique hlow hhigh hlow' hhigh'
  obtain ⟨m, hround, -, heq⟩ := exists_roundsTo negative hnum hden he
  obtain ⟨m', hround', -, heq'⟩ := exists_roundsTo negative hnum' hden' he'
  rw [h] at hround
  obtain rfl := hround.unique hround'
  rw [heq, heq']

/-- The sign plays no part in rounding. -/
theorem bind_ofFraction? (negative : Bool) (num den : Nat) :
    (ofFraction? false num den).bind (fun x => some { x with negative }) =
      ofFraction? negative num den := by
  simp only [ofFraction?]
  split <;> split <;> rfl

theorem leastNormal_le_of_ofFraction? {negative : Bool} {num den : Nat} {x : Double}
    (hnum : 0 < num) (hden : 0 < den) (hlow : (2 : ℚ) ^ (-1022 : Int) ≤ num / den)
    (hx : ofFraction? negative num den = some x) : leastNormal ≤ x.significand := by
  obtain ⟨m, hround, -, heq⟩ := exists_roundsTo negative hnum hden rfl
  have hfit := leastNormal_mul_zpow_le hnum hden hlow
  rw [← le_div_iff₀ (by positivity)] at hfit
  rw [heq] at hx
  split at hx
  next =>
    split at hx
    next => cases hx
    next => exact Option.some.inj hx ▸ le_rfl
  next =>
    split at hx
    next => cases hx
    next => exact Option.some.inj hx ▸ hround.le_of_sub_half_lt (by linarith)

theorem significand_lt_of_ofFraction? {negative : Bool} {num den : Nat} {x : Double}
    (hnum : 0 < num) (hden : 0 < den) (hx : ofFraction? negative num den = some x) :
    x.significand < 2 * leastNormal := by
  obtain ⟨m, -, hle, heq⟩ := exists_roundsTo negative hnum hden rfl
  rw [heq] at hx
  split at hx
  next =>
    split at hx
    next => cases hx
    next => exact Option.some.inj hx ▸ leastNormal_lt_two_mul
  next hcarry =>
    split at hx
    next => cases hx
    next => exact Option.some.inj hx ▸ lt_of_le_of_ne hle hcarry

end SeriesQuery.Double
