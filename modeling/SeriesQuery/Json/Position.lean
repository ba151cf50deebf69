/-!
# Positions in messages

A message may end with a position, given as ` at line L column C`. Whoever prints the message prints
the position in plain decimal, and nothing at all for line zero.
-/

namespace SeriesQuery.Json

structure Position where
  line : Nat
  column : Nat
  deriving DecidableEq, Repr

namespace Position

def text (p : Position) : String :=
  " at line " ++ toString p.line ++ " column " ++ toString p.column

/-- The number that ends a reversed text, if it fits a 64-bit word, and what stands before it. -/
def lastNumber? (cs : List Char) : Option (Nat × List Char) :=
  let digits := (cs.takeWhile Char.isDigit).reverse
  let n := digits.foldl (fun n c => n * 10 + (c.toNat - '0'.toNat)) 0
  if digits.isEmpty ∨ UInt64.size ≤ n then none else some (n, cs.dropWhile Char.isDigit)

/-- What stands before given words at the end of a reversed text. -/
def beforeWords? (words : String) (cs : List Char) : Option (List Char) :=
  let words := words.toList.reverse
  if words.isPrefixOf cs then some (cs.drop words.length) else none

/-- The position that ends a message, and what stands before it. -/
def split? (message : String) : Option (String × Position) := do
  let (column, rest) ← lastNumber? message.toList.reverse
  let rest ← beforeWords? " column " rest
  let (line, rest) ← lastNumber? rest
  let rest ← beforeWords? " at line " rest
  return (String.ofList rest.reverse, ⟨line, column⟩)

def printed (message : String) : String :=
  match split? message with
  | some (words, p) => if p.line = 0 then words else words ++ p.text
  | none => message

end Position

end SeriesQuery.Json
