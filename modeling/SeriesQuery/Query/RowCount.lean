import SeriesQuery.Text.Blank

/-!
# Row counts as text

The size of a moving window may be given as text: decimal digits, perhaps after a plus sign and
with white space around, of a number that fits a 32-bit word.
-/

namespace SeriesQuery.Query.RowCount

def dropPlus : List Char → List Char
  | '+' :: cs => cs
  | cs => cs

def ofChars? (cs : List Char) : Option UInt32 :=
  let digits := dropPlus (Text.trim cs)
  if digits ≠ [] ∧ digits.all Char.isDigit then
    let n := Nat.ofDigitChars 10 digits 0
    if n < UInt32.size then some (UInt32.ofNat n) else none
  else none

def ofText? (s : String) : Option UInt32 := ofChars? s.toList

end SeriesQuery.Query.RowCount
