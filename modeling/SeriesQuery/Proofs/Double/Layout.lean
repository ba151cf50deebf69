import SeriesQuery.Proofs.Double.Shortest

/-!
# Decimals as they are laid out

A decimal without zeros at its end is laid out as a whole number, a point and the digits behind it,
or with one digit before the point and an exponent. So a text of either form is that of a decimal
exactly when the two stand for one number, and the text has no zeros at its end and the form that
goes with the size of the number.
-/

namespace SeriesQuery.Double

namespace Decimal

/-- Whether a decimal has no zeros at its end. -/
def IsTrimmed (d : Decimal) : Prop := d = ⟨0, 0⟩ ∨ d.digits % 10 ≠ 0

/-- The number of a text with digits around a point, and a power of ten. -/
def ofParts (whole : Nat) (places : List Char) (exponent : Int) : Decimal :=
  ⟨Nat.ofDigitChars 10 places whole, exponent - places.length⟩

theorem value_ofParts_zero (n : Nat) (ds : List Char) :
    (ofParts n ds 0).value = (Nat.ofDigitChars 10 ds n : ℚ) / (10 ^ ds.length : Nat) := by
  simp [ofParts, value, div_eq_mul_inv]

/-- Whether a decimal is the number that digits around a point stand for, of which some are behind
the point, but no zeros beyond what that takes. -/
structure HasParts (d : Decimal) (whole : Nat) (places : List Char) : Prop where
  isDigit : ∀ c ∈ places, c.isDigit
  ne_nil : places ≠ []
  noZeros : places = ['0'] ∨ places.getLast? ≠ some '0'
  value : (ofParts whole places 0).value = d.value

section

variable {d : Decimal} {n m : Nat} {ds cs : List Char}

theorem hasParts_of_scale_nonneg (hscale : 0 ≤ d.scale) :
    d.HasParts (d.digits * 10 ^ d.scale.toNat) ['0'] where
  isDigit := List.forall_mem_singleton.2 rfl
  ne_nil := List.cons_ne_nil _ _
  noZeros := .inl rfl
  value := by
    obtain ⟨k, hk⟩ := Int.eq_ofNat_of_zero_le hscale
    rw [value_ofParts_zero, Decimal.value, hk, zpow_natCast, Int.toNat_natCast]
    simp [Nat.ofDigitChars]

/-- All the digits of a decimal, of which as many as the scale takes away are behind the point. -/
theorem hasParts_of_digits (hmod : d.digits % 10 ≠ 0) (hds : ∀ c ∈ ds, c.isDigit) (hne : ds ≠ [])
    (hdigits : Nat.ofDigitChars 10 ds n = d.digits) (hcount : (0 : Int) - ds.length = d.scale) :
    d.HasParts n ds where
  isDigit := hds
  ne_nil := hne
  noZeros := .inr fun hlast => hmod (hdigits ▸ (Text.getLast?_eq_some_zero_iff hds hne n).1 hlast)
  value := by rw [ofParts, hdigits, hcount]

theorem exists_hasParts_drop (hmod : d.digits % 10 ≠ 0) (hscale : d.scale < 0)
    (hwhole : 0 < d.length + d.scale) :
    ∃ n, Nat.toDigits 10 n = (Nat.toDigits 10 d.digits).take (d.length + d.scale).toNat ∧
      d.HasParts n ((Nat.toDigits 10 d.digits).drop (d.length + d.scale).toNat) := by
  have hpos : 0 < d.digits := Nat.pos_of_ne_zero fun hzero => hmod (by rw [hzero])
  obtain ⟨w, hw⟩ := Int.eq_ofNat_of_zero_le hwhole.le
  rw [hw, Int.toNat_natCast]
  rw [length] at hw hwhole
  have hfront : (Nat.toDigits 10 d.digits).take w ≠ [] := by
    apply List.ne_nil_of_length_pos
    rw [List.length_take]
    omega
  have hcount : (((Nat.toDigits 10 d.digits).drop w).length : Int) = -d.scale := by
    rw [List.length_drop]
    omega
  have hne : (Nat.toDigits 10 d.digits).drop w ≠ [] := List.ne_nil_of_length_pos (by omega)
  obtain ⟨hn, hdigits⟩ := Text.toDigits_cut hpos hfront (List.take_append_drop w _).symm
  refine ⟨_, hn, hasParts_of_digits hmod (fun c hc => ?_) hne hdigits (by omega)⟩
  exact Text.forall_mem_toDigits _ c (List.mem_of_mem_drop hc)

theorem hasParts_zero_replicate (hmod : d.digits % 10 ≠ 0) (hwhole : d.length + d.scale ≤ 0) :
    d.HasParts 0 (List.replicate (-(d.length + d.scale)).toNat '0' ++ Nat.toDigits 10 d.digits) := by
  obtain ⟨k, hk⟩ := Int.eq_ofNat_of_zero_le (Int.neg_nonneg_of_nonpos hwhole)
  have hlength : 0 < (Nat.toDigits 10 d.digits).length := Nat.length_toDigits_pos
  rw [hk, Int.toNat_natCast]
  rw [length] at hk
  refine hasParts_of_digits hmod
    (List.forall_mem_append.2 ⟨Text.forall_mem_zeros k, Text.forall_mem_toDigits _⟩) ?_ ?_ ?_
  · apply List.ne_nil_of_length_pos
    rw [List.length_append]
    omega
  · rw [Nat.ofDigitChars_append, Nat.ofDigitChars_replicate_zero, Nat.mul_zero,
      Nat.ofDigitChars_ten_toDigits]
  · rw [List.length_append, List.length_replicate]
    omega

theorem HasParts.eq_of_length_le (hd : d.HasParts n ds) (hc : d.HasParts m cs)
    (hle : cs.length ≤ ds.length) : m = n ∧ cs = ds := by
  obtain ⟨k, hk⟩ := Nat.exists_eq_add_of_le hle
  have hdigits : Nat.ofDigitChars 10 ds n = Nat.ofDigitChars 10 cs m * 10 ^ k :=
    digits_eq_of_value_eq (hd.value.trans hc.value.symm) (by simp only [ofParts]; omega)
  have hlength : 0 < cs.length := List.length_pos_iff.2 hc.ne_nil
  cases k with
  | zero =>
    rw [pow_zero, mul_one] at hdigits
    exact Text.ofDigitChars_inj hc.isDigit hd.isDigit hk.symm hdigits.symm
  | succ k =>
    -- The digits end in a zero, which is the only one behind the point.
    have hlast : ds.getLast? = some '0' := by
      rw [Text.getLast?_eq_some_zero_iff hd.isDigit hd.ne_nil n, hdigits, pow_succ, ← mul_assoc,
        Nat.mul_mod_left]
    rcases hd.noZeros with rfl | hnot
    · rw [List.length_singleton] at hk
      omega
    · exact absurd hlast hnot

/-- There is one way to write a number with digits around a point, without superfluous zeros. -/
theorem HasParts.unique (hd : d.HasParts n ds) (hc : d.HasParts m cs) : m = n ∧ cs = ds := by
  rcases le_total cs.length ds.length with hle | hle
  · exact hd.eq_of_length_le hc hle
  · obtain ⟨rfl, rfl⟩ := hc.eq_of_length_le hd hle
    exact ⟨rfl, rfl⟩

end

end Decimal

theorem isTrimmed_shortest {x : Double} (hbits : x.significand < 2 * leastNormal) :
    x.shortest.IsTrimmed := by
  rcases Nat.eq_zero_or_pos x.significand with hzero | hpos
  · left
    rw [shortest, if_pos hzero]
  · have hshortest := isShortest_shortest hbits
    exact .inr (mod_ten_of_fewest hpos hshortest.covers hshortest.fewest)

/-! ### Decimals that are laid out without an exponent -/

/-- The point and the digits behind it, or nothing if there are none. -/
def pointed (ds : List Char) : List Char := if ds.isEmpty then [] else '.' :: ds

namespace Layout

variable {l : Layout} {d : Decimal}

/-- Whether a decimal is laid out without an exponent. -/
def IsWithin (l : Layout) (d : Decimal) : Prop :=
  l.leastWhole ≤ d.length + d.scale ∧ d.length + d.scale ≤ l.mostWhole

theorem chars_of_isWithin (h : l.IsWithin d) : l.chars d =
    if 0 ≤ d.scale then Nat.toDigits 10 d.digits ++ List.replicate d.scale.toNat '0' ++ ['.', '0']
    else if 0 < d.length + d.scale then
      (Nat.toDigits 10 d.digits).take (d.length + d.scale).toNat ++
        '.' :: (Nat.toDigits 10 d.digits).drop (d.length + d.scale).toNat
    else '0' :: '.' :: List.replicate (-(d.length + d.scale)).toNat '0' ++ Nat.toDigits 10 d.digits :=
  if_pos h

theorem chars_of_not_isWithin (h : ¬ l.IsWithin d) {first : Char} {rest : List Char}
    (hdigits : Nat.toDigits 10 d.digits = first :: rest) :
    l.chars d = first :: pointed rest ++ l.exponent (rest.length + d.scale) := by
  have hwhole : (first :: rest).length + d.scale - 1 = rest.length + d.scale := by
    rw [List.length_cons]
    omega
  rw [IsWithin, Decimal.length, hdigits] at h
  simp only [chars, hdigits, if_neg h, hwhole]
  rfl

/-- The digits around the point. -/
theorem exists_chars_eq (hd : d.IsTrimmed) (h : l.IsWithin d) :
    ∃ n ds, l.chars d = Nat.toDigits 10 n ++ '.' :: ds ∧ d.HasParts n ds := by
  rw [chars_of_isWithin h]
  obtain rfl | hmod := hd
  · exact ⟨0, ['0'], rfl, Decimal.hasParts_of_scale_nonneg le_rfl⟩
  have hpos : 0 < d.digits := Nat.pos_of_ne_zero fun hzero => hmod (by rw [hzero])
  split
  next hscale =>
    refine ⟨_, _, ?_, Decimal.hasParts_of_scale_nonneg hscale⟩
    rw [Text.toDigits_mul_pow hpos]
  next hscale =>
    split
    next hwhole =>
      obtain ⟨n, hn, hparts⟩ := Decimal.exists_hasParts_drop hmod (not_le.1 hscale) hwhole
      exact ⟨n, _, by rw [hn], hparts⟩
    next hwhole => exact ⟨0, _, rfl, Decimal.hasParts_zero_replicate hmod (not_lt.1 hwhole)⟩

theorem mark_mem_chars (h : ¬ l.IsWithin d) : l.mark ∈ l.chars d := by
  obtain ⟨first, rest, hdigits⟩ := List.exists_cons_of_ne_nil (Nat.toDigits_ne_nil (n := d.digits))
  rw [chars_of_not_isWithin h hdigits]
  exact List.mem_append_right _ List.mem_cons_self

theorem forall_mem_chars (hd : d.IsTrimmed) (h : l.IsWithin d) :
    ∀ c ∈ l.chars d, c = '.' ∨ c.isDigit := by
  obtain ⟨n, ds, hchars, hparts⟩ := exists_chars_eq hd h
  rw [hchars]
  refine List.forall_mem_append.2 ⟨fun c hc => .inr (Text.forall_mem_toDigits n c hc), ?_⟩
  exact List.forall_mem_cons.2 ⟨.inl rfl, fun c hc => .inr (hparts.isDigit c hc)⟩

theorem point_or_mark_mem_chars (l : Layout) (d : Decimal) : '.' ∈ l.chars d ∨ l.mark ∈ l.chars d := by
  by_cases h : l.IsWithin d
  · left
    rw [chars_of_isWithin h]
    split
    next => simp
    next => split <;> simp
  · exact .inr (mark_mem_chars h)

end Layout

theorem layout_leastWhole : layout.leastWhole = -4 := rfl

theorem layout_mostWhole : layout.mostWhole = 16 := rfl

/-- Zero and the numbers from `10 ^ (-5)` up to `10 ^ 16` have no exponent. -/
theorem layout_isWithin_iff {d : Decimal} (hd : d.IsTrimmed) :
    layout.IsWithin d ↔
      (d.value = 0 ∨ (10 : ℚ) ^ (-5 : Int) ≤ d.value) ∧ d.value < 10 ^ (16 : Int) := by
  obtain rfl | hmod := hd
  · have hvalue : (⟨0, 0⟩ : Decimal).value = 0 := by simp [Decimal.value]
    rw [hvalue]
    exact iff_of_true ⟨by decide, by decide⟩ ⟨.inl rfl, by positivity⟩
  · have hpos : 0 < d.digits := Nat.pos_of_ne_zero fun hzero => hmod (by rw [hzero])
    have hten : (1 : ℚ) < 10 := by norm_num
    obtain ⟨hlow, hhigh⟩ := value_bounds hpos
    have hvalue : d.value ≠ 0 := (lt_of_lt_of_le (by positivity) hlow).ne'
    simp only [Layout.IsWithin, layout_leastWhole, layout_mostWhole, Decimal.length, hvalue, false_or]
    constructor
    · rintro ⟨hleast, hmost⟩
      exact ⟨(zpow_le_zpow_right₀ hten.le (by omega)).trans hlow,
        hhigh.trans_le (zpow_le_zpow_right₀ hten.le (by omega))⟩
    · rintro ⟨hleast, hmost⟩
      have hleast' := (zpow_lt_zpow_iff_right₀ hten).1 (hleast.trans_lt hhigh)
      have hmost' := (zpow_lt_zpow_iff_right₀ hten).1 (hlow.trans_lt hmost)
      omega

/-- Whether digits around a point are written as a decimal is: with a digit behind the point, but
no zeros beyond that, and not so small or so large that there would be an exponent. -/
structure IsPlain (whole : Nat) (places : List Char) : Prop where
  noZeros : places = ['0'] ∨ places.getLast? ≠ some '0'
  large : Nat.ofDigitChars 10 places whole = 0 ∨
    10 ^ places.length ≤ 10 ^ 5 * Nat.ofDigitChars 10 places whole
  small : whole < 10 ^ 16

theorem isPlain_iff {n : Nat} {ds : List Char} (hds : ∀ c ∈ ds, c.isDigit) :
    IsPlain n ds ↔ (ds = ['0'] ∨ ds.getLast? ≠ some '0') ∧
      ((Decimal.ofParts n ds 0).value = 0 ∨ (10 : ℚ) ^ (-5 : Int) ≤ (Decimal.ofParts n ds 0).value) ∧
        (Decimal.ofParts n ds 0).value < 10 ^ (16 : Int) := by
  have hpow : 0 < 10 ^ ds.length := by positivity
  have hpow' : (0 : ℚ) < (10 ^ ds.length : Nat) := by exact_mod_cast hpow
  have hzero : (Decimal.ofParts n ds 0).value = 0 ↔ Nat.ofDigitChars 10 ds n = 0 := by
    rw [Decimal.value_ofParts_zero, div_eq_zero_iff, or_iff_left hpow'.ne', Nat.cast_eq_zero]
  have hlarge : (10 : ℚ) ^ (-5 : Int) ≤ (Decimal.ofParts n ds 0).value ↔
      10 ^ ds.length ≤ 10 ^ 5 * Nat.ofDigitChars 10 ds n := by
    rw [Decimal.value_ofParts_zero, le_div_iff₀ hpow', zpow_neg, inv_mul_le_iff₀ (by positivity)]
    exact_mod_cast Iff.rfl
  have hsmall : (Decimal.ofParts n ds 0).value < 10 ^ (16 : Int) ↔ n < 10 ^ 16 := by
    rw [Decimal.value_ofParts_zero, div_lt_iff₀ hpow', Nat.ofDigitChars_eq_ofDigitChars_zero]
    have hcast : 10 ^ ds.length * n + Nat.ofDigitChars 10 ds 0 < 10 ^ 16 * 10 ^ ds.length ↔
        n < 10 ^ 16 := by
      rw [← Nat.div_lt_iff_lt_mul hpow, Nat.mul_add_div hpow,
        Nat.div_eq_of_lt (Text.ofDigitChars_lt hds), Nat.add_zero]
    rw [← hcast]
    exact_mod_cast Iff.rfl
  rw [hzero, hlarge, hsmall]
  exact ⟨fun h => ⟨h.noZeros, h.large, h.small⟩, fun h => ⟨h.1, h.2.1, h.2.2⟩⟩

/-- A text is cut in one way only where a character stands that cannot be in front of it. -/
theorem append_cons_inj {P : Char → Prop} {as bs cs ds : List Char} {a b : Char}
    (has : ∀ c ∈ as, P c) (hbs : ∀ c ∈ bs, P c) (ha : ¬ P a) (hb : ¬ P b)
    (h : as ++ a :: cs = bs ++ b :: ds) : as = bs ∧ a :: cs = b :: ds := by
  induction as generalizing bs with
  | nil =>
    cases bs with
    | nil => exact ⟨rfl, h⟩
    | cons c bs =>
      obtain rfl := (List.cons.inj h).1
      exact absurd (hbs _ List.mem_cons_self) ha
  | cons c as ih =>
    rw [List.forall_mem_cons] at has
    cases bs with
    | nil =>
      obtain rfl := (List.cons.inj h).1
      exact absurd has.1 hb
    | cons c' bs =>
      rw [List.forall_mem_cons] at hbs
      obtain ⟨rfl, hrest⟩ := List.cons.inj h
      obtain ⟨rfl, htail⟩ := ih has.2 hbs.2 hrest
      exact ⟨rfl, htail⟩

theorem toDigits_append_point_inj {m n : Nat} {cs ds : List Char}
    (h : Nat.toDigits 10 m ++ '.' :: cs = Nat.toDigits 10 n ++ '.' :: ds) : m = n ∧ cs = ds := by
  obtain ⟨hfront, hback⟩ := append_cons_inj (P := (Char.isDigit · = true)) (Text.forall_mem_toDigits m)
    (Text.forall_mem_toDigits n) (by decide) (by decide) h
  have hsame := congrArg (Nat.ofDigitChars 10 · 0) hfront
  simp only [Nat.ofDigitChars_ten_toDigits] at hsame
  exact ⟨hsame, (List.cons.inj hback).2⟩

/-- A decimal is laid out as digits around a point exactly when these are plain and the two stand
for one number. -/
theorem layout_chars_eq_plain_iff {d : Decimal} (hd : d.IsTrimmed) {n : Nat} {ds : List Char}
    (hds : ∀ c ∈ ds, c.isDigit) (hne : ds ≠ []) :
    layout.chars d = Nat.toDigits 10 n ++ '.' :: ds ↔
      IsPlain n ds ∧ (Decimal.ofParts n ds 0).value = d.value := by
  constructor
  · intro h
    have hwithin : layout.IsWithin d := by
      by_contra hnot
      have hmark := Layout.mark_mem_chars hnot
      rw [h, List.mem_append, List.mem_cons] at hmark
      rcases hmark with hmark | hmark | hmark
      · exact absurd (Text.forall_mem_toDigits n _ hmark) (by decide)
      · exact absurd hmark (by decide)
      · exact absurd (hds _ hmark) (by decide)
    obtain ⟨m, cs, hchars, hparts⟩ := Layout.exists_chars_eq hd hwithin
    obtain ⟨rfl, rfl⟩ := toDigits_append_point_inj (hchars.symm.trans h)
    refine ⟨(isPlain_iff hds).2 ⟨hparts.noZeros, ?_⟩, hparts.value⟩
    rw [hparts.value]
    exact (layout_isWithin_iff hd).1 hwithin
  · rintro ⟨hplain, hvalue⟩
    obtain ⟨hzeros, hbounds⟩ := (isPlain_iff hds).1 hplain
    have hparts : d.HasParts n ds := ⟨hds, hne, hzeros, hvalue⟩
    rw [hvalue] at hbounds
    obtain ⟨m, cs, hchars, hparts'⟩ :=
      Layout.exists_chars_eq hd ((layout_isWithin_iff hd).2 hbounds)
    obtain ⟨rfl, rfl⟩ := hparts.unique hparts'
    exact hchars

/-! ### Decimals that are laid out with an exponent -/

/-- Whether digits around a point, with a power of ten, are written as a decimal is: with one digit
before the point, without zeros at the end, and with an exponent that is not left out. -/
structure IsScientific (whole : Nat) (places : List Char) (exponent : Int) : Prop where
  leading : 0 < whole ∧ whole < 10
  noZeros : places.getLast? ≠ some '0'
  outside : exponent < -5 ∨ 15 < exponent

theorem forall_mem_pointed {ds : List Char} (hds : ∀ c ∈ ds, c.isDigit) :
    ∀ c ∈ pointed ds, c = '.' ∨ c.isDigit := by
  unfold pointed
  split
  next => exact List.forall_mem_nil _
  next => exact List.forall_mem_cons.2 ⟨.inl rfl, fun c hc => .inr (hds c hc)⟩

/-- One digit before the point, and the same digits behind it. -/
theorem cons_pointed_inj {n : Nat} {first : Char} {rest ds : List Char}
    (h : first :: pointed rest = Nat.toDigits 10 n ++ pointed ds) :
    Nat.toDigits 10 n = [first] ∧ rest = ds := by
  have hdigits := Text.forall_mem_toDigits n
  cases hn : Nat.toDigits 10 n with
  | nil => exact absurd hn Nat.toDigits_ne_nil
  | cons c cs =>
    rw [hn] at h hdigits
    obtain ⟨rfl, hbehind⟩ := List.cons.inj h
    cases cs with
    | nil =>
      refine ⟨rfl, ?_⟩
      change pointed rest = pointed ds at hbehind
      unfold pointed at hbehind
      cases rest <;> cases ds <;> simp_all
    | cons c' cs =>
      have hc' : c'.isDigit := hdigits c' (by simp)
      unfold pointed at hbehind
      split at hbehind
      next => cases hbehind
      next =>
        obtain ⟨rfl, -⟩ := List.cons.inj hbehind
        exact absurd hc' (by decide)

section

variable {n : Nat} {ds : List Char} (hds : ∀ c ∈ ds, c.isDigit) {exponent : Int}

include hds

theorem mod_ten_of_isScientific (h : IsScientific n ds exponent) :
    Nat.ofDigitChars 10 ds n % 10 ≠ 0 := by
  by_cases hne : ds = []
  · subst hne
    have hleading := h.leading
    rw [Nat.ofDigitChars_nil]
    omega
  · exact fun hzero => h.noZeros ((Text.getLast?_eq_some_zero_iff hds hne n).2 hzero)

theorem layout_chars_of_isScientific (h : IsScientific n ds exponent) :
    layout.chars (Decimal.ofParts n ds exponent) =
      Nat.toDigits 10 n ++ pointed ds ++ layout.exponent exponent := by
  have hfirst := Nat.toDigits_of_lt_base (b := 10) h.leading.2
  have hdigits : Nat.toDigits 10 (Decimal.ofParts n ds exponent).digits = n.digitChar :: ds := by
    rw [Decimal.ofParts, Text.toDigits_ofDigitChars h.leading.1 hds, hfirst, List.singleton_append]
  have hexponent : ds.length + (Decimal.ofParts n ds exponent).scale = exponent :=
    add_sub_cancel (ds.length : Int) exponent
  have houtside : ¬ layout.IsWithin (Decimal.ofParts n ds exponent) := by
    have hcases := h.outside
    rw [Layout.IsWithin, Decimal.length, hdigits, List.length_cons, layout_leastWhole,
      layout_mostWhole]
    omega
  rw [Layout.chars_of_not_isWithin houtside hdigits, hfirst, hexponent]
  rfl

/-- The digits around the point and the exponent behind them can be read off the text. -/
theorem isScientific_of_layout_chars_eq {d : Decimal} (hd : d.IsTrimmed) {mark : Char}
    {tail : List Char} (hmark : ¬ (mark = '.' ∨ mark.isDigit))
    (hexponent : ∀ e, mark :: tail = layout.exponent e → exponent = e)
    (h : layout.chars d = Nat.toDigits 10 n ++ pointed ds ++ mark :: tail) :
    IsScientific n ds exponent ∧ mark :: tail = layout.exponent exponent ∧
      Decimal.ofParts n ds exponent = d := by
  have hmantissa : ∀ c ∈ Nat.toDigits 10 n ++ pointed ds, c = '.' ∨ c.isDigit :=
    List.forall_mem_append.2
      ⟨fun c hc => .inr (Text.forall_mem_toDigits n c hc), forall_mem_pointed hds⟩
  have houtside : ¬ layout.IsWithin d := fun hwithin =>
    hmark (Layout.forall_mem_chars hd hwithin mark (h ▸ by simp))
  have hmod : d.digits % 10 ≠ 0 := by
    refine hd.resolve_left ?_
    rintro rfl
    exact houtside ⟨by decide, by decide⟩
  have hpos : 0 < d.digits := Nat.pos_of_ne_zero fun hzero => hmod (by rw [hzero])
  obtain ⟨first, rest, hdigits⟩ := List.exists_cons_of_ne_nil (Nat.toDigits_ne_nil (n := d.digits))
  have hall := Text.forall_mem_toDigits d.digits
  rw [hdigits, List.forall_mem_cons] at hall
  rw [Layout.chars_of_not_isWithin houtside hdigits] at h
  obtain ⟨hfront, htail⟩ := append_cons_inj
    (List.forall_mem_cons.2 ⟨.inr hall.1, forall_mem_pointed hall.2⟩) hmantissa (by decide) hmark h
  obtain ⟨hn, rfl⟩ := cons_pointed_inj hfront
  obtain ⟨hleading, hten, hsame⟩ := Text.first_digit hpos hdigits hn
  obtain rfl := hexponent _ htail.symm
  refine ⟨⟨⟨hleading, hten⟩, fun hlast => hmod ?_, ?_⟩, htail.symm, ?_⟩
  · have hne : rest ≠ [] := by
      rintro rfl
      cases hlast
    exact hsame ▸ (Text.getLast?_eq_some_zero_iff hds hne n).1 hlast
  · rw [Layout.IsWithin, Decimal.length, hdigits, List.length_cons, layout_leastWhole,
      layout_mostWhole] at houtside
    omega
  · rw [Decimal.ofParts, hsame, add_sub_cancel_left]

/-- A decimal is laid out as digits around a point with a power of ten behind them exactly when
these are what a decimal is written with, so is the power, and the two stand for one number. -/
theorem layout_chars_eq_marked_iff {d : Decimal} (hd : d.IsTrimmed) {mark : Char} {tail : List Char}
    (hmark : ¬ (mark = '.' ∨ mark.isDigit))
    (hexponent : ∀ e, mark :: tail = layout.exponent e → exponent = e) :
    layout.chars d = Nat.toDigits 10 n ++ pointed ds ++ mark :: tail ↔
      IsScientific n ds exponent ∧ mark :: tail = layout.exponent exponent ∧
        (Decimal.ofParts n ds exponent).value = d.value := by
  constructor
  · intro h
    obtain ⟨hscientific, htail, hsame⟩ := isScientific_of_layout_chars_eq hds hd hmark hexponent h
    exact ⟨hscientific, htail, congrArg Decimal.value hsame⟩
  · rintro ⟨hscientific, htail, hvalue⟩
    have hmod := mod_ten_of_isScientific hds hscientific
    obtain rfl | hdmod := hd
    · have hpos : 0 < (Decimal.ofParts n ds exponent).digits :=
        Nat.pos_of_ne_zero fun hzero => hmod (by rw [show Nat.ofDigitChars 10 ds n = 0 from hzero])
      have hpositive := Decimal.value_pos_iff.2 hpos
      rw [hvalue] at hpositive
      exact absurd (Decimal.value_pos_iff.1 hpositive) (lt_irrefl 0)
    · obtain rfl : Decimal.ofParts n ds exponent = d := Decimal.eq_of_value_eq hmod hdmod hvalue
      rw [layout_chars_of_isScientific hds hscientific, htail]

end

end SeriesQuery.Double
