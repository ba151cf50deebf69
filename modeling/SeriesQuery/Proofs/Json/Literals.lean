import SeriesQuery.Proofs.Json.Scanning

/-!
# Literals as they are written

A number is written with an optional minus, a whole part without superfluous zeros, and optionally
the digits of a fraction and a power of ten. Such a text, and that of a boolean, is scanned as one
token, whatever stands behind it that does not continue a number.
-/

namespace SeriesQuery.Json

/-- One digit or more. -/
structure Digits where
  chars : List Char
  ne_nil : chars ≠ []
  isDigit : ∀ c ∈ chars, c.isDigit

/-- The digits of a number, without zeros in front. -/
def Digits.ofNat (n : Nat) : Digits :=
  ⟨Nat.toDigits 10 n, Nat.toDigits_ne_nil, Text.forall_mem_toDigits n⟩

/-- A power of ten, as it is written behind a number. -/
structure Power where
  capital : Bool
  /-- The sign if one is written, `true` for a minus. -/
  sign : Option Bool
  digits : Digits

namespace Power

def signChars (p : Power) : List Char :=
  match p.sign with
  | none => []
  | some negative => if negative then ['-'] else ['+']

def chars (p : Power) : List Char :=
  (if p.capital then 'E' else 'e') :: (p.signChars ++ p.digits.chars)

end Power

structure NumberLiteral where
  negative : Bool
  whole : Nat
  fraction : Option Digits
  power : Option Power

namespace NumberLiteral

/-- The digits behind the point. -/
def places (l : NumberLiteral) : List Char := l.fraction.elim [] Digits.chars

/-- All the digits, read as one number. -/
def digits (l : NumberLiteral) : Nat := Nat.ofDigitChars 10 l.places l.whole

def fractionChars (l : NumberLiteral) : List Char :=
  match l.fraction with
  | none => []
  | some ds => '.' :: ds.chars

def powerChars (l : NumberLiteral) : List Char :=
  match l.power with
  | none => []
  | some p => p.chars

def chars (l : NumberLiteral) : List Char :=
  (if l.negative then ['-'] else []) ++ Nat.toDigits 10 l.whole ++ l.fractionChars ++ l.powerChars

/-- What is scanned of the digits before and behind the point. -/
def mantissa (l : NumberLiteral) : Numeral :=
  let whole := Numeral.ofWhole l.negative l.whole
  match l.fraction with
  | none => whole
  | some ds => ds.chars.foldl Numeral.addPlace { whole with phase := .fraction, full := false }

/-- What is scanned of the literal once its last character has been met. -/
def numeral (l : NumberLiteral) : Numeral :=
  match l.power with
  | none => l.mantissa
  | some p =>
    p.digits.chars.foldl Numeral.addPower
      { l.mantissa with phase := .exponent, exponentNegative := p.sign.getD false }

/-- The number that the literal is read as, if it is not too large. -/
def number? (l : NumberLiteral) : Option Number := l.numeral.number?

theorem phase_mantissa (l : NumberLiteral) :
    l.mantissa.phase = if l.fraction.isSome then .fraction else if l.whole = 0 then .zero else .whole := by
  unfold mantissa
  cases l.fraction with
  | none => exact Numeral.phase_ofWhole l.negative l.whole
  | some ds => exact Numeral.foldl_keeps Numeral.phase_addPlace _ _

theorem phase_numeral (l : NumberLiteral) :
    l.numeral.phase = if l.power.isSome then .exponent else l.mantissa.phase := by
  unfold numeral
  cases l.power with
  | none => rfl
  | some p => exact Numeral.foldl_keeps Numeral.phase_addPower _ _

theorem negative_mantissa (l : NumberLiteral) : l.mantissa.negative = l.negative := by
  unfold mantissa
  cases l.fraction with
  | none => exact Numeral.negative_ofWhole l.negative l.whole
  | some ds =>
    exact (Numeral.foldl_keeps Numeral.negative_addPlace _ _).trans
      (Numeral.negative_ofWhole l.negative l.whole)

theorem negative_numeral (l : NumberLiteral) : l.numeral.negative = l.negative := by
  unfold numeral
  cases l.power with
  | none => exact l.negative_mantissa
  | some p =>
    exact (Numeral.foldl_keeps Numeral.negative_addPower _ _).trans l.negative_mantissa

theorem exponentNegative_mantissa (l : NumberLiteral) : l.mantissa.exponentNegative = false := by
  unfold mantissa
  cases l.fraction with
  | none => exact Numeral.exponentNegative_ofWhole l.negative l.whole
  | some ds =>
    exact (Numeral.foldl_keeps Numeral.exponentNegative_addPlace _ _).trans
      (Numeral.exponentNegative_ofWhole l.negative l.whole)

theorem isComplete_numeral (l : NumberLiteral) : l.numeral.isComplete := by
  rw [Numeral.isComplete, phase_numeral, phase_mantissa]
  split
  next => rfl
  next =>
    split
    next => rfl
    next => split <;> rfl

theorem mantissa_of_lt {l : NumberLiteral} (h : l.digits < UInt64.size) :
    l.mantissa =
      ⟨if l.fraction.isSome then .fraction else if l.whole = 0 then .zero else .whole,
        l.negative, l.digits, false, -l.places.length, false, 0⟩ := by
  obtain ⟨negative, whole, fraction, power⟩ := l
  have hwhole : whole < UInt64.size := (Text.le_ofDigitChars _ _).trans_lt h
  cases fraction with
  | none => exact Numeral.ofWhole_of_lt hwhole
  | some ds =>
    simp only [mantissa, Numeral.ofWhole_of_lt hwhole]
    rw [Numeral.foldl_addPlace_of_lt]
    · simp [digits, places, Numeral.ofSign]
    · rfl
    · exact h

/-- All that is scanned of digits that fit a 64-bit word. -/
theorem numeral_of_lt {l : NumberLiteral} (h : l.digits < UInt64.size) :
    l.numeral = ⟨l.numeral.phase, l.negative, l.digits, false, -l.places.length,
      l.power.elim false fun p => p.sign.getD false,
      l.power.elim 0 fun p => Nat.ofDigitChars 10 p.digits.chars 0⟩ := by
  have hmantissa := mantissa_of_lt h
  rw [phase_numeral, phase_mantissa]
  unfold numeral
  cases l.power with
  | none => exact hmantissa
  | some p =>
    refine (Numeral.foldl_addPower _ _).trans ?_
    rw [hmantissa]
    rfl

end NumberLiteral

/-! ### Scanning a number -/

namespace Scan

/-- The first digit may be pushed to a literal of another phase. -/
theorem run_digits {phase : Numeral.Phase} {push : Numeral → Char → Numeral}
    (hpush : ∀ n c, n.phase = phase → c.isDigit → n.push? c = some (push n c))
    (hphase : ∀ n c, (push n c).phase = n.phase) {start next : Numeral} (hnext : next.phase = phase)
    (hstart : ∀ c, c.isDigit → start.push? c = some (push next c)) (ds : Digits) (rest : List Char) :
    run (.number start) (ds.chars ++ rest) = run (.number (ds.chars.foldl push next)) rest := by
  obtain ⟨chars, hne, hdigits⟩ := ds
  obtain ⟨c, cs, rfl⟩ := List.exists_cons_of_ne_nil hne
  rw [List.forall_mem_cons] at hdigits
  rw [List.cons_append, run_push (hstart c hdigits.1), List.foldl_cons]
  exact run_foldl hpush hphase ((hphase next c).trans hnext) hdigits.2 rest

theorem run_fraction (negative : Bool) (n : Nat) (ds : Digits) (rest : List Char) :
    run (.number (Numeral.ofWhole negative n)) ('.' :: (ds.chars ++ rest)) =
      run (.number (ds.chars.foldl Numeral.addPlace
        { Numeral.ofWhole negative n with phase := .fraction, full := false })) rest := by
  have hpoint : (Numeral.ofWhole negative n).push? '.' =
      some { Numeral.ofWhole negative n with phase := .point, full := false } := by
    have hphase := Numeral.phase_ofWhole negative n
    split at hphase
    next hzero => rw [hzero]; rfl
    next => simp [Numeral.push?, hphase]
  rw [run_push hpoint]
  refine run_digits (fun n c hn hc => ?_) Numeral.phase_addPlace rfl (fun c hc => ?_) ds rest
  · have he : c ≠ 'e' := ne_of_isDigit hc (by decide)
    have hE : c ≠ 'E' := ne_of_isDigit hc (by decide)
    simp [Numeral.push?, hn, hc, he, hE]
  · simp [Numeral.push?, hc]

/-- A power behind a whole part or a fraction. -/
theorem run_power {n : Numeral} (hphase : n.phase ∈ [.zero, .whole, .fraction])
    (hsign : n.exponentNegative = false) (p : Power) (rest : List Char) :
    run (.number n) (p.chars ++ rest) =
      run (.number (p.digits.chars.foldl Numeral.addPower
        { n with phase := .exponent, exponentNegative := p.sign.getD false })) rest := by
  have hmark : n.push? (if p.capital then 'E' else 'e') = some { n with phase := .mark } := by
    simp only [List.mem_cons, List.not_mem_nil, or_false] at hphase
    rcases hphase with h | h | h <;> cases p.capital <;> simp [Numeral.push?, h]
  have hpush (n : Numeral) (c : Char) (hn : n.phase = .exponent) (hc : c.isDigit) :
      n.push? c = some (n.addPower c) := by
    simp [Numeral.push?, hn, hc]
  rw [Power.chars, List.cons_append, List.append_assoc, run_push hmark]
  unfold Power.signChars
  cases p.sign with
  | none =>
    refine run_digits hpush Numeral.phase_addPower rfl (fun c hc => ?_) p.digits rest
    have hplus : c ≠ '+' := ne_of_isDigit hc (by decide)
    have hminus : c ≠ '-' := ne_of_isDigit hc (by decide)
    simp [Numeral.push?, hc, hplus, hminus, hsign]
  | some minus =>
    have hmarkSign : Numeral.push? { n with phase := .mark } (if minus then '-' else '+') =
        some { n with phase := .markSign, exponentNegative := minus } := by
      cases minus <;> simp [Numeral.push?, hsign]
    have hchars : (if minus then ['-'] else ['+']) = [if minus then '-' else '+'] := by
      cases minus <;> rfl
    simp only [hchars, List.singleton_append]
    rw [run_push hmarkSign]
    refine run_digits hpush Numeral.phase_addPower rfl (fun c hc => ?_) p.digits rest
    simp [Numeral.push?, hc]

theorem run_mantissa (l : NumberLiteral) (rest : List Char) :
    run .between ((if l.negative then ['-'] else []) ++ Nat.toDigits 10 l.whole ++ l.fractionChars ++
      rest) = run (.number l.mantissa) rest := by
  rw [List.append_assoc, List.append_assoc, run_whole]
  unfold NumberLiteral.fractionChars NumberLiteral.mantissa
  cases l.fraction with
  | none => rfl
  | some ds => exact run_fraction l.negative l.whole ds rest

/-- A number literal leads to what is scanned of it. -/
theorem run_numberLiteral (l : NumberLiteral) (rest : List Char) :
    run .between (l.chars ++ rest) = run (.number l.numeral) rest := by
  rw [NumberLiteral.chars, List.append_assoc, run_mantissa]
  unfold NumberLiteral.powerChars NumberLiteral.numeral
  cases l.power with
  | none => rfl
  | some p =>
    refine run_power ?_ l.exponentNegative_mantissa p rest
    rw [NumberLiteral.phase_mantissa]
    split
    next => decide
    next => split <;> decide

end Scan

/-! ### Literals -/

/-- A boolean or a number. -/
inductive Literal where
  | bool (b : Bool)
  | number (l : NumberLiteral)

namespace Literal

def chars : Literal → List Char
  | .bool true => ['t', 'r', 'u', 'e']
  | .bool false => ['f', 'a', 'l', 's', 'e']
  | .number l => l.chars

def token : Literal → Token
  | .bool b => .bool b
  | .number l => .number l.number?

end Literal

theorem Scan.run_literal (l : Literal) {rest : List Char} (hrest : EndsNumber rest) :
    run .between (l.chars ++ rest) = l.token :: run .between rest := by
  cases l with
  | bool b => cases b <;> rfl
  | number l =>
    rw [Literal.chars, run_numberLiteral, run_number l.isComplete_numeral hrest, Literal.token,
      NumberLiteral.number?]

end SeriesQuery.Json
