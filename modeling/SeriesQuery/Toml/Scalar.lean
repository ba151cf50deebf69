import SeriesQuery.Double.Basic
import SeriesQuery.Toml.Value

/-!
# Numbers, dates and words

A value that is not quoted and not a container is one run of characters, which may have blanks in
it. Its shape is checked where it stands; whether a number of the right shape has a value is a
matter for those who read it. An integer must then lie between `-2 ^ 127` and `2 ^ 128`, and a float
not be beyond the largest double.
-/

namespace SeriesQuery.Toml

/-- Blanks; a carriage return counts as one, since the line feed behind it ends the line. -/
def isBlank (c : Char) : Bool := c == ' ' || c == '\t' || c == '\r'

namespace Scalar

def isHexDigit (c : Char) : Bool :=
  c.isDigit || ('a' ≤ c && c ≤ 'f') || ('A' ≤ c && c ≤ 'F')

def isOctalDigit (c : Char) : Bool := '0' ≤ c && c ≤ '7'

def isBinaryDigit (c : Char) : Bool := c == '0' || c == '1'

def hexValue (c : Char) : Nat :=
  if c.isDigit then c.toNat - '0'.toNat
  else if 'a' ≤ c then c.toNat - 'a'.toNat + 10
  else c.toNat - 'A'.toNat + 10

def number (base : Nat) (digits : List Char) : Nat :=
  digits.foldl (fun n c => n * base + hexValue c) 0

/-- Whether every underscore stands between two digits, given whether a digit comes before. -/
def underscoresFitAfter (isDigit : Char → Bool) (digit : Bool) : List Char → Bool
  | [] => true
  | c :: cs =>
    if c = '_' then digit && cs.head?.any isDigit && underscoresFitAfter isDigit false cs
    else underscoresFitAfter isDigit (isDigit c) cs

def underscoresFit (isDigit : Char → Bool) (cs : List Char) : Bool :=
  underscoresFitAfter isDigit false cs

/-- The value of an integer from what follows its sign or its base. -/
def integer (negative : Bool) (base : Nat) (isDigit : Char → Bool) (cs : List Char) : Value :=
  let digits := cs.filter (· != '_')
  if digits.isEmpty || !digits.all isDigit then .unreadable
  else
    let n : Int := if negative then -(number base digits : Int) else number base digits
    if -(Nat.pow 2 127 : Int) ≤ n ∧ n < Nat.pow 2 128 then .integer n else .unreadable

/-- An integer of another base from what follows the base, which may be nothing. -/
def based? (base : Nat) (isDigit : Char → Bool) (cs : List Char) : Option Value :=
  if cs.all (fun c => isDigit c || c == '_') && underscoresFit isHexDigit cs then
    some (integer false base isDigit cs)
  else none

/-- Whether there is a minus sign, and what follows the sign, if there is one. -/
def sign : List Char → Bool × List Char
  | '-' :: cs => (true, cs)
  | '+' :: cs => (false, cs)
  | cs => (false, cs)

/-- Whether digits without a zero in front reach up to the end or to the first underscore. What
follows the underscore matters only to those who read the number, unless it has a space in it. -/
def hasDecimalShape (cs : List Char) : Bool :=
  match cs.dropWhile Char.isDigit with
  | [] => cs == ['0'] || (!cs.isEmpty && cs.head? != some '0')
  | c :: rest => c == '_' && cs.head? != some '0' && !rest.contains ' '

/-- The digits at the head of the input, if there are any, and what follows them. -/
def digits? (cs : List Char) : Option (List Char × List Char) :=
  let isPart (c : Char) := c.isDigit || c == '_'
  let digits := (cs.takeWhile isPart).filter Char.isDigit
  if digits.isEmpty then none else some (digits, cs.dropWhile isPart)

def fraction? : List Char → Option (List Char × List Char)
  | '.' :: cs => digits? cs
  | cs => some ([], cs)

def exponent? : List Char → Option Int
  | [] => some 0
  | c :: cs =>
    if c = 'e' ∨ c = 'E' then
      let (negative, cs) := sign cs
      match digits? cs with
      | some (digits, []) => some (if negative then -(number 10 digits : Int) else number 10 digits)
      | _ => none
    else none

def float? (cs : List Char) : Option Value := do
  let (whole, rest) ← digits? cs
  let (places, rest) ← fraction? rest
  let exponent ← exponent? rest
  if 1 < whole.length && cs.head? == some '0' then none
  else
    match Double.ofDecimal? false (number 10 (whole ++ places)) (exponent - places.length) with
    | some _ => some .float
    | none => some .unreadable

/-- A number to the base ten; a point or an exponent makes it a float. -/
def decimal? (cs : List Char) : Option Value :=
  let (negative, cs) := sign cs
  if cs = ['i', 'n', 'f'] ∨ cs = ['n', 'a', 'n'] then some .float
  else if cs.any fun c => c == '.' || c == 'e' || c == 'E' then
    if underscoresFit Char.isDigit cs then float? cs else none
  else if hasDecimalShape cs && underscoresFit isHexDigit cs then
    some (integer negative 10 Char.isDigit cs)
  else none

def twoDigits? : List Char → Option (Nat × List Char)
  | a :: b :: cs =>
    if a.isDigit ∧ b.isDigit then some (10 * hexValue a + hexValue b, cs) else none
  | _ => none

def daysInMonth (year month : Nat) : Nat :=
  if month = 2 then if year % 4 = 0 ∧ (year % 100 ≠ 0 ∨ year % 400 = 0) then 29 else 28
  else if month = 4 ∨ month = 6 ∨ month = 9 ∨ month = 11 then 30
  else 31

def date? (cs : List Char) : Option (List Char) := do
  let (century, cs) ← twoDigits? cs
  let (year, cs) ← twoDigits? cs
  match cs with
  | '-' :: cs =>
    let (month, cs) ← twoDigits? cs
    match cs with
    | '-' :: cs =>
      let (day, cs) ← twoDigits? cs
      if 1 ≤ month ∧ month ≤ 12 ∧ 1 ≤ day ∧ day ≤ daysInMonth (100 * century + year) month then
        some cs
      else none
    | _ => none
  | _ => none

/-- What follows the seconds of a time, which may be left out. -/
def seconds? : List Char → Option (List Char)
  | ':' :: cs => do
    let (second, cs) ← twoDigits? cs
    if 60 < second then none
    else
      match cs with
      | '.' :: cs =>
        let places := cs.takeWhile Char.isDigit
        if places.isEmpty then none else some (cs.drop places.length)
      | cs => some cs
  | cs => some cs

def time? (cs : List Char) : Option (List Char) := do
  let (hour, cs) ← twoDigits? cs
  match cs with
  | ':' :: cs =>
    let (minute, cs) ← twoDigits? cs
    if hour ≤ 23 ∧ minute ≤ 59 then seconds? cs else none
  | _ => none

def isOffset : List Char → Bool
  | [] => true
  | ['Z'] => true
  | ['z'] => true
  | c :: cs =>
    (c == '+' || c == '-') &&
      match twoDigits? cs with
      | some (hour, ':' :: cs) =>
        match twoDigits? cs with
        | some (minute, []) => hour ≤ 23 && minute ≤ 59
        | _ => false
      | _ => false

def isDate (cs : List Char) : Bool :=
  match date? cs with
  | some [] => true
  | some (c :: cs) =>
    (c == 'T' || c == 't' || c == ' ') &&
      match time? cs with
      | some rest => isOffset rest
      | none => false
  | none => time? cs == some []

def ofChars? (cs : List Char) : Option Value :=
  if cs = ['t', 'r', 'u', 'e'] then some (.bool true)
  else if cs = ['f', 'a', 'l', 's', 'e'] then some (.bool false)
  else if isDate cs then some .date
  else
    match cs with
    | '0' :: 'x' :: cs => based? 16 isHexDigit cs
    | '0' :: 'o' :: cs => based? 8 isOctalDigit cs
    | '0' :: 'b' :: cs => based? 2 isBinaryDigit cs
    | cs => decimal? cs

/-- The characters that end a run, unless they are blanks within it. -/
def runEnds : List Char := ['=', ',', '[', ']', '\x7b', '\x7d', '#', ' ', '\t', '\r', '\n']

def isScalarChar (c : Char) : Bool := !runEnds.contains c

/-- Whether a run goes on behind blanks, as a date does with its time; a string starts anew. -/
def goesOn (cs : List Char) : Bool :=
  match cs.dropWhile isBlank with
  | [] => false
  | c :: _ => isScalarChar c && c != '"' && c != '\''

/-- The run at the head of the input, and what follows it. -/
def span : List Char → List Char × List Char
  | [] => ([], [])
  | c :: cs =>
    if isScalarChar c || isBlank c && goesOn cs then
      let (run, rest) := span cs
      (c :: run, rest)
    else ([], c :: cs)

def read (cs : List Char) : Option (Value × List Char) :=
  let (run, rest) := span cs
  (ofChars? run).map fun value => (value, rest)

end Scalar

end SeriesQuery.Toml
