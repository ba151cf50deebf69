import SeriesQuery.Double.Scaling
import SeriesQuery.Json.Value

/-!
# Number literals

A number literal is read one character at a time. The phase says which part of the literal the
last character belonged to, and so which characters may follow; a literal that ends in the middle
of a part, or has a digit after a leading zero, is not well formed.

The digits are kept as far as they fit a 64-bit word. A digit that does not fit is left out, and so
are those behind it in the whole part, or in the fraction; of the whole part they still count.
-/

namespace SeriesQuery.Json

inductive Numeral.Phase where
  | sign
  | zero
  | padded
  | whole
  | point
  | fraction
  | mark
  | markSign
  | exponent
  deriving DecidableEq, Repr

structure Numeral where
  phase : Numeral.Phase
  negative : Bool
  /-- The digits before and after the point, read as one number. -/
  significand : Nat
  /-- Whether the digits of the part under way are being left out. -/
  full : Bool
  /-- The power of ten that the digits are multiplied with, but for the exponent. -/
  scale : Int
  exponentNegative : Bool
  exponent : Nat
  deriving DecidableEq, Repr

namespace Numeral

def digitValue (c : Char) : Nat := c.toNat - '0'.toNat

/-- The literal with one more digit before the point. -/
def addDigit (n : Numeral) (c : Char) : Numeral :=
  if n.full ∨ UInt64.size ≤ n.significand * 10 + digitValue c then
    { n with full := true, scale := n.scale + 1 }
  else { n with significand := n.significand * 10 + digitValue c }

/-- The literal with one more digit after the point. -/
def addPlace (n : Numeral) (c : Char) : Numeral :=
  if n.full ∨ UInt64.size ≤ n.significand * 10 + digitValue c then { n with full := true }
  else { n with significand := n.significand * 10 + digitValue c, scale := n.scale - 1 }

def addPower (n : Numeral) (c : Char) : Numeral :=
  { n with exponent := n.exponent * 10 + digitValue c }

/-- The literal that starts with a character, if one does. -/
def start? (c : Char) : Option Numeral :=
  if c = '-' then some ⟨.sign, true, 0, false, 0, false, 0⟩
  else if c = '0' then some ⟨.zero, false, 0, false, 0, false, 0⟩
  else if c.isDigit then some ⟨.whole, false, digitValue c, false, 0, false, 0⟩
  else none

/-- The literal with one more character, if the character belongs to it. -/
def push? (n : Numeral) (c : Char) : Option Numeral :=
  match n.phase with
  | .sign =>
    if c = '0' then some { n with phase := .zero }
    else if c.isDigit then some (addDigit { n with phase := .whole } c)
    else none
  | .zero =>
    if c = '.' then some { n with phase := .point }
    else if c = 'e' ∨ c = 'E' then some { n with phase := .mark }
    else if c.isDigit then some { n with phase := .padded }
    else none
  | .padded => none
  | .whole =>
    if c = '.' then some { n with phase := .point, full := false }
    else if c = 'e' ∨ c = 'E' then some { n with phase := .mark }
    else if c.isDigit then some (addDigit n c)
    else none
  | .point =>
    if c.isDigit then some (addPlace { n with phase := .fraction } c) else none
  | .fraction =>
    if c = 'e' ∨ c = 'E' then some { n with phase := .mark }
    else if c.isDigit then some (addPlace n c)
    else none
  | .mark =>
    if c = '+' then some { n with phase := .markSign }
    else if c = '-' then some { n with phase := .markSign, exponentNegative := true }
    else if c.isDigit then some (addPower { n with phase := .exponent } c)
    else none
  | .markSign => if c.isDigit then some (addPower { n with phase := .exponent } c) else none
  | .exponent => if c.isDigit then some (addPower n c) else none

def isComplete (n : Numeral) : Bool :=
  n.phase == .zero || n.phase == .whole || n.phase == .fraction || n.phase == .exponent

/-- The digits scaled by the power of ten. An exponent beyond a signed 32-bit word leaves zero, or no
double, whatever the digits but for zero. -/
def double? (n : Numeral) : Option Double :=
  if UInt32.size / 2 ≤ n.exponent then
    if n.significand = 0 ∨ n.exponentNegative then some (.zero n.negative) else none
  else
    Double.ofScaled? n.negative n.significand
      (n.scale + if n.exponentNegative then -(n.exponent : Int) else n.exponent)

/-- A literal without point and exponent is an integer when it fits a 64-bit word, signed or
unsigned; minus zero and all other literals are doubles, and there is no number for a literal
beyond the largest double. -/
def number? (n : Numeral) : Option Number :=
  let double := n.double?.map Number.double
  if (n.phase = .zero ∨ n.phase = .whole) ∧ ¬ n.full then
    if n.negative then
      if 0 < n.significand ∧ n.significand ≤ UInt64.size / 2 then
        some (.integer (-(n.significand : Int)))
      else double
    else some (.integer n.significand)
  else double

end Numeral

end SeriesQuery.Json
