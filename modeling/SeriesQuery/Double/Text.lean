import SeriesQuery.Double.Basic

/-!
# The shortest decimal of a double

A double is written with the fewest digits that read back as the same double, and of those
decimals the nearest one. `shortest` finds the digits, by trying one digit, two digits, and so on,
against the interval of reals that round to the double; `Layout` says how digits become text.
-/

namespace SeriesQuery.Double

/-- The decimal `digits * 10 ^ scale`. -/
structure Decimal where
  digits : Nat
  scale : Int
  deriving DecidableEq, Repr

/-- The reals that round to a double, in units of a quarter of its last place: from `low` to
`high`, ends included for an even significand. -/
structure Interval where
  low : Nat
  middle : Nat
  high : Nat
  closed : Bool
  /-- The power of two of the unit. -/
  exponent : Int
  deriving DecidableEq, Repr

/-- Below a power of two the doubles are twice as dense, so the interval is shorter there. -/
def interval (x : Double) : Interval where
  low := if x.significand = leastNormal ∧ minExponent < x.exponent then 4 * x.significand - 1
    else 4 * x.significand - 2
  middle := 4 * x.significand
  high := 4 * x.significand + 2
  closed := x.significand % 2 = 0
  exponent := x.exponent - 2

/-- Compares `a * 10 ^ scale` with `b * 2 ^ exponent`. -/
def compareScaled (a : Nat) (scale : Int) (b : Nat) (exponent : Int) : Ordering :=
  let a := a * power 10 scale * power 2 (-exponent)
  let b := b * power 2 exponent * power 10 (-scale)
  compare a b

def Interval.contains (i : Interval) (d : Decimal) : Bool :=
  let low := compareScaled d.digits d.scale i.low i.exponent
  let high := compareScaled d.digits d.scale i.high i.exponent
  (low == .gt && high == .lt) || (i.closed && (low == .eq || high == .eq))

/-- The multiples of `10 ^ scale` next to the middle of an interval, the nearer one first, the even
one first where both are equally near. -/
def Interval.neighbours (i : Interval) (scale : Int) : List Decimal :=
  let num := i.middle * power 2 i.exponent * power 10 (-scale)
  let den := power 10 scale * power 2 (-i.exponent)
  let below := num / den
  let near := roundHalfEven num den
  [⟨near, scale⟩, ⟨if near = below then below + 1 else below, scale⟩]

/-- The number of digits before the point of a positive fraction; zero and less for fractions below
a tenth. -/
def wholeDigits (num den : Nat) : Int :=
  let length : Nat → Int := fun n => (Nat.toDigits 10 n).length
  let guess := length num - length den
  if den * power 10 guess ≤ num * power 10 (-guess) then guess + 1 else guess

/-- Tries `count` digits, then one more, as long as there is fuel. -/
def shortestFrom (i : Interval) (whole : Int) : Nat → Nat → Decimal
  | 0, count => ⟨i.middle, whole - count⟩
  | fuel + 1, count =>
    match (i.neighbours (whole - count)).find? i.contains with
    | some d => d
    | none => shortestFrom i whole fuel (count + 1)

def Decimal.normalize : Nat → Decimal → Decimal
  | 0, d => d
  | fuel + 1, d =>
    if d.digits ≠ 0 ∧ d.digits % 10 = 0 then normalize fuel ⟨d.digits / 10, d.scale + 1⟩ else d

/-- Seventeen digits tell any two doubles apart. -/
def shortest (x : Double) : Decimal :=
  if x.significand = 0 then ⟨0, 0⟩
  else
    let whole := wholeDigits (x.significand * power 2 x.exponent) (power 2 (-x.exponent))
    (shortestFrom x.interval whole 17 1).normalize 20

structure Layout where
  /-- The number of digits before the point, at least and at most, of numbers written without an
  exponent. -/
  leastWhole : Int
  mostWhole : Int
  mark : Char
  /-- Whether a positive exponent has a sign. -/
  plus : Bool
  deriving Repr

/-- Numbers from `10 ^ (-5)` up to `10 ^ 16` have no exponent. -/
def layout : Layout := ⟨-4, 16, 'e', true⟩

def Layout.exponent (l : Layout) (e : Int) : List Char :=
  l.mark :: ((if e < 0 then ['-'] else if l.plus then ['+'] else []) ++ Nat.toDigits 10 e.natAbs)

def Layout.chars (l : Layout) (d : Decimal) : List Char :=
  let digits := Nat.toDigits 10 d.digits
  let whole := digits.length + d.scale
  if l.leastWhole ≤ whole ∧ whole ≤ l.mostWhole then
    if 0 ≤ d.scale then digits ++ List.replicate d.scale.toNat '0' ++ ['.', '0']
    else if 0 < whole then digits.take whole.toNat ++ '.' :: digits.drop whole.toNat
    else '0' :: '.' :: List.replicate (-whole).toNat '0' ++ digits
  else
    match digits with
    | first :: rest =>
      first :: (if rest.isEmpty then [] else '.' :: rest) ++ l.exponent (whole - 1)
    | [] => []

def chars (x : Double) : List Char :=
  (if x.negative then ['-'] else []) ++ layout.chars x.shortest

end SeriesQuery.Double
