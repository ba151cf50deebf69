import SeriesQuery.Proofs.Double.Layout
import SeriesQuery.Proofs.Json.Literals

/-!
# Literals written back

A literal is read as a value, and the value has a text of its own. The two texts are the same for
booleans and for the integers of 64 bits. Any other number is read as a double, which need not be
the nearest one, and written as the shortest decimal of the double, whatever digits, point and power
it was written with.
-/

namespace SeriesQuery.Json

namespace Power

def exponent (p : Power) : Int :=
  if p.sign = some true then -(Nat.ofDigitChars 10 p.digits.chars 0 : Int)
  else Nat.ofDigitChars 10 p.digits.chars 0

/-- Whether a power is written with a small letter, a sign and no zeros in front. -/
structure IsPlain (p : Power) : Prop where
  small : p.capital = false
  sign : p.sign = some (decide (p.exponent < 0))
  digits : p.digits.chars = Nat.toDigits 10 p.exponent.natAbs

/-- A double has a plain power. -/
theorem chars_eq_iff {p : Power} {e : Int} :
    p.chars = Double.layout.exponent e ↔ p.IsPlain ∧ p.exponent = e := by
  have hexponent : Double.layout.exponent e =
      'e' :: (if e < 0 then '-' else '+') :: Nat.toDigits 10 e.natAbs := by
    unfold Double.Layout.exponent Double.layout
    split <;> rfl
  rw [hexponent]
  constructor
  · intro h
    obtain ⟨capital, sign, ⟨chars, hne, hdigits⟩⟩ := p
    obtain ⟨hmark, hrest⟩ := List.cons.inj h
    have hsmall : capital = false := by
      cases capital
      · rfl
      · exact absurd (show 'E' = 'e' from hmark) (by decide)
    cases sign with
    | none =>
      -- A sign is no digit.
      change chars = _ at hrest
      rw [hrest, List.forall_mem_cons] at hdigits
      split at hdigits <;> exact absurd hdigits.1 (by decide)
    | some negative =>
      have hsign : (if negative then '-' else '+') = (if e < 0 then '-' else '+') ∧
          chars = Nat.toDigits 10 e.natAbs := by
        cases negative <;> exact List.cons.inj hrest
      have hnegative : negative = decide (e < 0) := by
        rcases hsign with ⟨hsign, -⟩
        cases negative <;> split at hsign <;> simp_all
      have hvalue : exponent ⟨capital, some negative, ⟨chars, hne, hdigits⟩⟩ = e := by
        simp only [exponent, hsign.2, hnegative, Nat.ofDigitChars_ten_toDigits, Option.some.injEq,
          decide_eq_true_eq]
        split <;> omega
      exact ⟨⟨hsmall, by rw [hvalue, hnegative], by rw [hvalue]; exact hsign.2⟩, hvalue⟩
  · rintro ⟨hplain, rfl⟩
    rw [chars, signChars, hplain.small, hplain.sign, hplain.digits]
    by_cases h : p.exponent < 0 <;> simp [h]

end Power

namespace NumberLiteral

/-- The number that a literal stands for, but for the sign. -/
def decimal (l : NumberLiteral) : Double.Decimal :=
  .ofParts l.whole l.places (l.power.elim 0 Power.exponent)

/-- The double that a literal is read as if it is not an integer, and not too large. -/
def double? (l : NumberLiteral) : Option Double := l.numeral.double?

/-- Fifteen digits at most, and a power of ten that a double holds exactly. -/
structure IsShort (l : NumberLiteral) : Prop where
  digits : l.digits < 10 ^ 15
  scale : l.decimal.scale.natAbs ≤ 22
  places : l.places.length ≤ 22

/-- Whether a literal comes back from its double as the same number: one that is short does, and any
other one if it is the shortest decimal of the double. -/
inductive IsPrecise (l : NumberLiteral) : Prop
  | short : l.IsShort → IsPrecise l
  | shortest {x : Double} {d : Double.Decimal} : l.double? = some x → x.IsShortest d →
      d.value = l.decimal.value → IsPrecise l

/-- Whether the value of a number is written as the number was. -/
inductive IsKept (l : NumberLiteral) : Prop
  | integer : l.fraction = none → l.power = none → Numeral.Fits l.negative l.whole → IsKept l
  | plain {ds : Digits} : l.fraction = some ds → l.power = none → Double.IsPlain l.whole ds.chars →
      l.IsPrecise → IsKept l
  | scientific {p : Power} : l.power = some p → Double.IsScientific l.whole l.places p.exponent →
      p.IsPlain → l.IsPrecise → IsKept l

variable {l : NumberLiteral}

theorem isKept_iff_of_whole (hfraction : l.fraction = none) (hpower : l.power = none) :
    l.IsKept ↔ Numeral.Fits l.negative l.whole := by
  refine ⟨fun hkept => ?_, .integer hfraction hpower⟩
  cases hkept with
  | integer _ _ hfits => exact hfits
  | plain hsome => cases hsome.symm.trans hfraction
  | scientific hsome => cases hsome.symm.trans hpower

theorem isKept_iff_of_fraction {ds : Digits} (hfraction : l.fraction = some ds)
    (hpower : l.power = none) : l.IsKept ↔ Double.IsPlain l.whole ds.chars ∧ l.IsPrecise := by
  refine ⟨fun hkept => ?_, fun hboth => .plain hfraction hpower hboth.1 hboth.2⟩
  cases hkept with
  | integer hnone => cases hnone.symm.trans hfraction
  | plain hfraction' _ hplain hprecise =>
    obtain rfl := Option.some.inj (hfraction'.symm.trans hfraction)
    exact ⟨hplain, hprecise⟩
  | scientific hsome => cases hsome.symm.trans hpower

theorem isKept_iff_of_power {p : Power} (hpower : l.power = some p) :
    l.IsKept ↔
      (Double.IsScientific l.whole l.places p.exponent ∧ p.IsPlain) ∧ l.IsPrecise := by
  refine ⟨fun hkept => ?_, fun hboth => .scientific hpower hboth.1.1 hboth.1.2 hboth.2⟩
  cases hkept with
  | integer _ hnone => cases hnone.symm.trans hpower
  | plain _ hnone => cases hnone.symm.trans hpower
  | scientific hpower' hscientific hplain hprecise =>
    obtain rfl := Option.some.inj (hpower'.symm.trans hpower)
    exact ⟨⟨hscientific, hplain⟩, hprecise⟩

/-! ### Short literals -/

theorem double?_of_isShort (h : l.IsShort) :
    l.double? = Double.ofScaled? l.negative l.decimal.digits l.decimal.scale := by
  have hsize : 10 ^ 15 < UInt64.size := by decide
  have hword : 44 < UInt32.size / 2 := by decide
  have hscale := h.scale
  have hplaces := h.places
  rw [double?, numeral_of_lt (h.digits.trans hsize), Numeral.double?]
  unfold decimal Double.Decimal.ofParts at hscale ⊢
  cases hpower : l.power with
  | none =>
    rw [if_neg (by simp only [Option.elim]; omega)]
    simp [digits]
  | some p =>
    have hsign : (p.sign.getD false = true) = (p.sign = some true) := by cases p.sign <;> simp
    rw [hpower] at hscale
    simp only [Option.elim, Power.exponent, hsign] at hscale ⊢
    have hexponent : Nat.ofDigitChars 10 p.digits.chars 0 ≤ 44 := by split at hscale <;> omega
    rw [if_neg (by omega), neg_add_eq_sub]
    rfl

/-- A short literal is read as the double nearest to it. -/
theorem double?_eq_ofDecimal? (h : l.IsShort) :
    l.double? = Double.ofDecimal? l.negative l.decimal.digits l.decimal.scale :=
  (double?_of_isShort h).trans (Double.ofScaled?_eq_ofDecimal? l.negative h.digits h.scale)

/-- A short literal is the shortest decimal of its double. -/
theorem exists_double?_eq_of_isShort (h : l.IsShort) :
    ∃ x, l.double? = some x ∧ x.shortest.value = l.decimal.value := by
  rw [double?_eq_ofDecimal? h]
  rcases Nat.eq_zero_or_pos l.decimal.digits with hzero | hpos
  · refine ⟨Double.zero l.negative, by rw [hzero]; rfl, ?_⟩
    have hshortest : (Double.zero l.negative).shortest = ⟨0, 0⟩ := rfl
    rw [hshortest, Double.Decimal.value, Double.Decimal.value, hzero, Nat.cast_zero, zero_mul, zero_mul]
  · obtain ⟨hlow, hhigh⟩ := Double.range_of_short hpos h.digits h.scale
    obtain ⟨x, hx, hnormal, hcovers⟩ := Double.exists_ofDecimal?_eq l.negative hpos hlow hhigh
    exact ⟨x, hx, Double.value_shortest_eq hnormal h.digits hcovers⟩

-- Ten to the 23rd is no double, and the quotient by the nearest one is not the nearest to the literal.
example : (double? ⟨false, 1, none, some ⟨false, some true, .ofNat 23⟩⟩).map Double.chars =
    some "1.0000000000000001e-23".toList := by
  decide +kernel

theorem value_shortest_eq_iff_isPrecise {x : Double} (hx : l.double? = some x) :
    x.shortest.value = l.decimal.value ↔ l.IsPrecise := by
  have hbits := (Numeral.of_double?_eq_some hx).2
  constructor
  · exact .shortest hx (Double.isShortest_shortest hbits)
  · intro h
    cases h with
    | short hshort =>
      obtain ⟨x', hx', hvalue⟩ := exists_double?_eq_of_isShort hshort
      obtain rfl := Option.some.inj (hx.symm.trans hx')
      exact hvalue
    | shortest hx' hd hvalue =>
      obtain rfl := Option.some.inj (hx.symm.trans hx')
      exact (Double.value_shortest_eq_iff hbits).2 ⟨_, hd, hvalue⟩

/-! ### The numbers that are read -/

theorem number?_of_fits (hfraction : l.fraction = none) (hpower : l.power = none)
    (hfits : Numeral.Fits l.negative l.whole) :
    l.number? = some (.integer (if l.negative then -(l.whole : Int) else l.whole)) := by
  obtain ⟨negative, whole, fraction, power⟩ := l
  subst hfraction hpower
  exact Numeral.number?_ofWhole_of_fits hfits

theorem number?_of_not_fits (hfraction : l.fraction = none) (hpower : l.power = none)
    (hfits : ¬ Numeral.Fits l.negative l.whole) : l.number? = l.double?.map .double := by
  obtain ⟨negative, whole, fraction, power⟩ := l
  subst hfraction hpower
  exact Numeral.number?_ofWhole_of_not_fits hfits

theorem number?_of_isSome (h : l.fraction.isSome ∨ l.power.isSome) :
    l.number? = l.double?.map .double := by
  have hphase : ¬ (l.numeral.phase = .zero ∨ l.numeral.phase = .whole) := by
    rw [phase_numeral, phase_mantissa]
    split
    next => simp
    next hpower => simp [h.resolve_right hpower]
  rw [number?, Numeral.number?, if_neg fun hboth => hphase hboth.1]
  rfl

theorem fractionChars_eq_pointed (l : NumberLiteral) : l.fractionChars = Double.pointed l.places := by
  obtain ⟨negative, whole, fraction, power⟩ := l
  cases fraction with
  | none => rfl
  | some ds =>
    have hne := ds.ne_nil
    simp [fractionChars, places, Double.pointed, hne]

/-! ### The texts of numbers -/

theorem chars_integer_of_fits (hfraction : l.fraction = none) (hpower : l.power = none)
    (hfits : Numeral.Fits l.negative l.whole) :
    (Number.integer (if l.negative then -(l.whole : Int) else l.whole)).chars = l.chars := by
  obtain ⟨negative, whole, fraction, power⟩ := l
  subst hfraction hpower
  simp only [chars, fractionChars, powerChars, Number.chars, List.append_nil]
  cases negative with
  | false =>
    simp only [Bool.false_eq_true, ↓reduceIte, Int.natAbs_natCast]
    rw [if_neg (by omega)]
  | true =>
    have hpos : 0 < whole := hfits.1
    simp only [↓reduceIte, Int.natAbs_neg, Int.natAbs_natCast]
    rw [if_pos (by omega)]

/-- Digits alone are not how a double is written. -/
theorem chars_double_ne (hfraction : l.fraction = none) (hpower : l.power = none) (x : Double) :
    x.chars ≠ l.chars := by
  intro h
  have hmem : ∀ c ∈ l.chars, c = '-' ∨ c.isDigit := by
    simp only [chars, fractionChars, powerChars, hfraction, hpower, List.append_nil]
    refine List.forall_mem_append.2 ⟨?_, fun c hc => .inr (Text.forall_mem_toDigits l.whole c hc)⟩
    split
    · exact List.forall_mem_singleton.2 (.inl rfl)
    · exact List.forall_mem_nil _
  rcases Double.layout.point_or_mark_mem_chars x.shortest with hpoint | hmark
  · exact absurd (hmem '.' (h ▸ List.mem_append_right _ hpoint)) (by decide)
  · exact absurd (hmem 'e' (h ▸ List.mem_append_right _ hmark)) (by decide)

theorem forall_mem_places (l : NumberLiteral) : ∀ c ∈ l.places, c.isDigit := by
  unfold places
  cases l.fraction with
  | none => exact List.forall_mem_nil _
  | some ds => exact ds.isDigit

theorem chars_double_eq_iff_of_fraction {ds : Digits} (hfraction : l.fraction = some ds)
    (hpower : l.power = none) {x : Double} (hx : l.double? = some x) :
    x.chars = l.chars ↔ Double.IsPlain l.whole ds.chars ∧ l.IsPrecise := by
  obtain ⟨hsign, hbits⟩ := Numeral.of_double?_eq_some hx
  rw [negative_numeral] at hsign
  have hchars : l.chars = (if l.negative then ['-'] else []) ++
      (Nat.toDigits 10 l.whole ++ '.' :: ds.chars) := by
    simp only [chars, fractionChars, powerChars, hfraction, hpower, List.append_nil,
      List.append_assoc]
  have hdecimal : Double.Decimal.ofParts l.whole ds.chars 0 = l.decimal := by
    rw [decimal, places, hfraction, hpower]
    rfl
  rw [hchars, Double.chars, hsign, List.append_cancel_left_eq,
    Double.layout_chars_eq_plain_iff (Double.isTrimmed_shortest hbits) ds.isDigit ds.ne_nil, hdecimal,
    eq_comm (a := l.decimal.value), value_shortest_eq_iff_isPrecise hx]

theorem chars_double_eq_iff_of_power {p : Power} (hpower : l.power = some p) {x : Double}
    (hx : l.double? = some x) :
    x.chars = l.chars ↔
      (Double.IsScientific l.whole l.places p.exponent ∧ p.IsPlain) ∧ l.IsPrecise := by
  obtain ⟨hsign, hbits⟩ := Numeral.of_double?_eq_some hx
  rw [negative_numeral] at hsign
  have hmark : ¬ ((if p.capital then 'E' else 'e') = '.' ∨
      (if p.capital then 'E' else 'e').isDigit) := by
    cases p.capital <;> decide
  have hchars : l.chars = (if l.negative then ['-'] else []) ++
      (Nat.toDigits 10 l.whole ++ Double.pointed l.places ++ p.chars) := by
    simp only [chars, fractionChars_eq_pointed, powerChars, hpower, List.append_assoc]
  have hdecimal : Double.Decimal.ofParts l.whole l.places p.exponent = l.decimal := by
    rw [decimal, hpower]
    rfl
  have hplain : p.chars = Double.layout.exponent p.exponent ↔ p.IsPlain :=
    Power.chars_eq_iff.trans (and_iff_left rfl)
  have hlayout : Double.layout.chars x.shortest =
      Nat.toDigits 10 l.whole ++ Double.pointed l.places ++ p.chars ↔
        Double.IsScientific l.whole l.places p.exponent ∧
          p.chars = Double.layout.exponent p.exponent ∧
            (Double.Decimal.ofParts l.whole l.places p.exponent).value = x.shortest.value :=
    Double.layout_chars_eq_marked_iff l.forall_mem_places (Double.isTrimmed_shortest hbits) hmark
      fun e he => (Power.chars_eq_iff.1 he).2
  rw [hchars, Double.chars, hsign, List.append_cancel_left_eq, hlayout, hplain, hdecimal,
    eq_comm (a := l.decimal.value), value_shortest_eq_iff_isPrecise hx, and_assoc]

/-- A number that is read as a double. -/
theorem chars_double_eq_iff_isKept (h : l.fraction.isSome ∨ l.power.isSome) {x : Double}
    (hx : l.double? = some x) : x.chars = l.chars ↔ l.IsKept := by
  cases hpower : l.power with
  | none =>
    rw [hpower, Option.isSome_none, Bool.false_eq_true, or_false] at h
    obtain ⟨ds, hfraction⟩ := Option.isSome_iff_exists.1 h
    rw [chars_double_eq_iff_of_fraction hfraction hpower hx, isKept_iff_of_fraction hfraction hpower]
  | some p => rw [chars_double_eq_iff_of_power hpower hx, isKept_iff_of_power hpower]

/-- The number that is read is written as the literal exactly when the literal is kept. -/
theorem chars_eq_iff_isKept {n : Number} (hn : l.number? = some n) : n.chars = l.chars ↔ l.IsKept := by
  by_cases hsome : l.fraction.isSome ∨ l.power.isSome
  · rw [number?_of_isSome hsome] at hn
    obtain ⟨x, hx, rfl⟩ := Option.map_eq_some_iff.1 hn
    exact chars_double_eq_iff_isKept hsome hx
  · have hnone := hsome
    simp only [not_or, Option.not_isSome_iff_eq_none] at hnone
    obtain ⟨hfraction, hpower⟩ := hnone
    rw [isKept_iff_of_whole hfraction hpower]
    by_cases hfits : Numeral.Fits l.negative l.whole
    · rw [number?_of_fits hfraction hpower hfits] at hn
      obtain rfl := Option.some.inj hn
      exact iff_of_true (chars_integer_of_fits hfraction hpower hfits) hfits
    · rw [number?_of_not_fits hfraction hpower hfits] at hn
      obtain ⟨x, -, rfl⟩ := Option.map_eq_some_iff.1 hn
      exact iff_of_false (chars_double_ne hfraction hpower x) hfits

end NumberLiteral

/-! ### Booleans and numbers -/

namespace Literal

def value? : Literal → Option Value
  | .bool b => some (.bool b)
  | .number l => l.number?.map .number

/-- Whether the value of a literal is written as the literal was. -/
def IsKept : Literal → Prop
  | .bool _ => True
  | .number l => l.IsKept

theorem chars_value_eq_iff_isKept {l : Literal} {v : Value} (hv : l.value? = some v) :
    v.chars = l.chars ↔ l.IsKept := by
  cases l with
  | bool b =>
    obtain rfl := Option.some.inj hv
    exact iff_of_true (by cases b <;> rfl) trivial
  | number l =>
    obtain ⟨n, hn, rfl⟩ := Option.map_eq_some_iff.1 hv
    exact NumberLiteral.chars_eq_iff_isKept hn

end Literal

end SeriesQuery.Json
