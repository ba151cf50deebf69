import SeriesQuery.Json.Numeral
import SeriesQuery.Proofs.Double.Scaling

/-!
# Numbers digit by digit

The digits of a literal are pushed one after the other, before the point, behind it and in the
exponent. They add up to the number that they are together while this fits a 64-bit word; beyond
that the literal is no integer any more.
-/

namespace SeriesQuery.Json.Numeral

/-! ### One digit -/

section

variable (n : Numeral) (c : Char)

@[simp]
theorem phase_addDigit : (n.addDigit c).phase = n.phase := by
  unfold addDigit
  split <;> rfl

@[simp]
theorem negative_addDigit : (n.addDigit c).negative = n.negative := by
  unfold addDigit
  split <;> rfl

@[simp]
theorem exponentNegative_addDigit : (n.addDigit c).exponentNegative = n.exponentNegative := by
  unfold addDigit
  split <;> rfl

@[simp]
theorem phase_addPlace : (n.addPlace c).phase = n.phase := by
  unfold addPlace
  split <;> rfl

@[simp]
theorem negative_addPlace : (n.addPlace c).negative = n.negative := by
  unfold addPlace
  split <;> rfl

@[simp]
theorem exponentNegative_addPlace : (n.addPlace c).exponentNegative = n.exponentNegative := by
  unfold addPlace
  split <;> rfl

@[simp]
theorem phase_addPower : (n.addPower c).phase = n.phase := by
  rw [addPower]

@[simp]
theorem negative_addPower : (n.addPower c).negative = n.negative := by
  rw [addPower]

variable {n c}

theorem addDigit_of_lt (hfull : n.full = false)
    (h : 10 * n.significand + digitValue c < UInt64.size) :
    n.addDigit c = { n with significand := 10 * n.significand + digitValue c } := by
  rw [Nat.mul_comm] at h ⊢
  exact if_neg fun hor => hor.elim (by simp [hfull]) (Nat.not_le.2 h)

theorem addPlace_of_lt (hfull : n.full = false)
    (h : 10 * n.significand + digitValue c < UInt64.size) :
    n.addPlace c =
      { n with significand := 10 * n.significand + digitValue c, scale := n.scale - 1 } := by
  rw [Nat.mul_comm] at h ⊢
  exact if_neg fun hor => hor.elim (by simp [hfull]) (Nat.not_le.2 h)

theorem full_addDigit_of_full (h : n.full) : (n.addDigit c).full := by
  unfold addDigit
  rw [if_pos (.inl h)]

theorem full_addDigit_of_le (h : UInt64.size ≤ 10 * n.significand + digitValue c) :
    (n.addDigit c).full := by
  rw [Nat.mul_comm] at h
  unfold addDigit
  rw [if_pos (.inr h)]

end

/-! ### Many digits -/

section

variable {n : Numeral} {cs : List Char}

/-- What no digit changes. -/
theorem foldl_keeps {α : Type} {push : Numeral → Char → Numeral} {field : Numeral → α}
    (h : ∀ n c, field (push n c) = field n) (n : Numeral) (cs : List Char) :
    field (cs.foldl push n) = field n := by
  induction cs generalizing n with
  | nil => rfl
  | cons c cs ih => rw [List.foldl_cons, ih, h]

theorem foldl_addDigit_of_lt (hfull : n.full = false)
    (h : Nat.ofDigitChars 10 cs n.significand < UInt64.size) :
    cs.foldl addDigit n = { n with significand := Nat.ofDigitChars 10 cs n.significand } := by
  induction cs generalizing n with
  | nil => rfl
  | cons c cs ih =>
    rw [Nat.ofDigitChars_cons] at h ⊢
    have hstep := addDigit_of_lt hfull ((Text.le_ofDigitChars cs _).trans_lt h)
    rw [List.foldl_cons, hstep]
    exact ih hfull h

theorem foldl_addPlace_of_lt (hfull : n.full = false)
    (h : Nat.ofDigitChars 10 cs n.significand < UInt64.size) :
    cs.foldl addPlace n =
      { n with
        significand := Nat.ofDigitChars 10 cs n.significand, scale := n.scale - cs.length } := by
  induction cs generalizing n with
  | nil => simp
  | cons c cs ih =>
    rw [Nat.ofDigitChars_cons] at h ⊢
    have hstep := addPlace_of_lt hfull ((Text.le_ofDigitChars cs _).trans_lt h)
    have hscale : n.scale - 1 - cs.length = n.scale - (c :: cs).length := by
      rw [List.length_cons]
      omega
    rw [List.foldl_cons, hstep, ← hscale]
    exact ih hfull h

theorem foldl_addPower (n : Numeral) (cs : List Char) :
    cs.foldl addPower n = { n with exponent := Nat.ofDigitChars 10 cs n.exponent } := by
  induction cs generalizing n with
  | nil => rfl
  | cons c cs ih =>
    rw [List.foldl_cons, ih, Nat.ofDigitChars_cons, Nat.mul_comm]
    rfl

theorem full_foldl_addDigit_of_full (h : n.full) : (cs.foldl addDigit n).full := by
  induction cs generalizing n with
  | nil => exact h
  | cons c cs ih => exact ih (full_addDigit_of_full h)

/-- Digits that do not fit are noticed. -/
theorem full_foldl_addDigit (hlt : n.significand < UInt64.size)
    (h : UInt64.size ≤ Nat.ofDigitChars 10 cs n.significand) : (cs.foldl addDigit n).full := by
  induction cs generalizing n with
  | nil => exact absurd h (Nat.not_le.2 hlt)
  | cons c cs ih =>
    rw [List.foldl_cons]
    by_cases hfull : n.full
    · exact full_foldl_addDigit_of_full (full_addDigit_of_full hfull)
    by_cases hfits : 10 * n.significand + digitValue c < UInt64.size
    · rw [addDigit_of_lt (Bool.eq_false_iff.2 hfull) hfits]
      exact ih hfits h
    · exact full_foldl_addDigit_of_full (full_addDigit_of_le (Nat.not_lt.1 hfits))

end

/-! ### Whole numbers -/

/-- A literal of digits alone, before the first digit other than zero. -/
def ofSign (negative : Bool) : Numeral := ⟨.whole, negative, 0, false, 0, false, 0⟩

/-- A literal that is a whole part only. -/
def ofWhole (negative : Bool) (n : Nat) : Numeral :=
  if n = 0 then { ofSign negative with phase := .zero }
  else (Nat.toDigits 10 n).foldl addDigit (ofSign negative)

section

variable {negative : Bool} {n : Nat}

theorem phase_ofWhole (negative : Bool) (n : Nat) :
    (ofWhole negative n).phase = if n = 0 then .zero else .whole := by
  unfold ofWhole
  split
  next => rfl
  next => exact foldl_keeps phase_addDigit _ _

theorem negative_ofWhole (negative : Bool) (n : Nat) : (ofWhole negative n).negative = negative := by
  unfold ofWhole
  split
  next => rfl
  next => exact foldl_keeps negative_addDigit _ _

theorem exponentNegative_ofWhole (negative : Bool) (n : Nat) :
    (ofWhole negative n).exponentNegative = false := by
  unfold ofWhole
  split
  next => rfl
  next => exact foldl_keeps exponentNegative_addDigit _ _

theorem phase_ofWhole_eq_or (negative : Bool) (n : Nat) :
    (ofWhole negative n).phase = .zero ∨ (ofWhole negative n).phase = .whole := by
  rw [phase_ofWhole]
  split
  next => exact .inl rfl
  next => exact .inr rfl

theorem isComplete_ofWhole (negative : Bool) (n : Nat) : (ofWhole negative n).isComplete := by
  rcases phase_ofWhole_eq_or negative n with h | h <;> rw [isComplete, h] <;> rfl

theorem ofWhole_of_lt (h : n < UInt64.size) :
    ofWhole negative n = { ofSign negative with
      phase := if n = 0 then .zero else .whole, significand := n } := by
  unfold ofWhole
  split
  next hzero => rw [hzero]; rfl
  next =>
    rw [foldl_addDigit_of_lt rfl] <;> simp only [ofSign, Nat.ofDigitChars_ten_toDigits]
    exact h

theorem full_ofWhole (h : UInt64.size ≤ n) : (ofWhole negative n).full := by
  have hsize : 0 < UInt64.size := by decide
  rw [ofWhole, if_neg (by omega)]
  apply full_foldl_addDigit hsize
  rwa [ofSign, Nat.ofDigitChars_ten_toDigits]

/-- Whether a whole number fits a 64-bit word. Minus zero is not a whole number. -/
def Fits (negative : Bool) (n : Nat) : Prop :=
  if negative then 0 < n ∧ n ≤ UInt64.size / 2 else n < UInt64.size

theorem number?_ofWhole_of_fits (h : Fits negative n) :
    (ofWhole negative n).number? = some (.integer (if negative then -(n : Int) else n)) := by
  have hsize : UInt64.size / 2 < UInt64.size := by decide
  have hphase := phase_ofWhole_eq_or negative n
  cases negative with
  | false =>
    rw [ofWhole_of_lt h] at hphase ⊢
    rw [number?, if_pos ⟨hphase, Bool.false_ne_true⟩]
    rfl
  | true =>
    rw [ofWhole_of_lt (h.2.trans_lt hsize)] at hphase ⊢
    rw [number?, if_pos ⟨hphase, Bool.false_ne_true⟩]
    exact if_pos h

theorem number?_ofWhole_of_not_fits (h : ¬ Fits negative n) :
    (ofWhole negative n).number? = (ofWhole negative n).double?.map .double := by
  have hphase := phase_ofWhole_eq_or negative n
  by_cases hlt : n < UInt64.size
  · cases negative with
    | false => exact absurd hlt h
    | true =>
      rw [ofWhole_of_lt hlt] at hphase ⊢
      rw [number?, if_pos ⟨hphase, Bool.false_ne_true⟩]
      exact if_neg h
  · rw [number?, if_neg fun hboth => hboth.2 (full_ofWhole (Nat.not_lt.1 hlt))]

end

/-! ### Doubles -/

theorem of_double?_eq_some {n : Numeral} {x : Double} (hx : n.double? = some x) :
    x.negative = n.negative ∧ x.significand < 2 * Double.leastNormal := by
  have hzero : 0 < 2 * Double.leastNormal := by decide
  unfold double? at hx
  split at hx
  next =>
    split at hx
    next => exact Option.some.inj hx ▸ ⟨rfl, hzero⟩
    next => cases hx
  next => exact Double.of_ofScaled?_eq_some hx

end SeriesQuery.Json.Numeral
