import SeriesQuery.Toml.Scalar

/-!
# Quoted strings

Strings between double quotes have escapes and strings between single quotes have none. Three
quotes open a string that may run over several lines; a line break right after them is dropped, and
up to two quotes may stand before the three that close. Each reader here starts behind the opening
quotes and gives the characters of the string and what follows it. A line break is a line feed with
or without a carriage return before it, and a string keeps it as it is.
-/

namespace SeriesQuery.Toml.Quoted

/-- Characters that may stand in a string or a comment as they are. -/
def isAllowed (c : Char) : Bool := c == '\t' || (0x20 ≤ c.toNat && c.toNat != 0x7f)

/-- Characters that may stand in a string over several lines. -/
def isAllowedInLines (c : Char) : Bool := isAllowed c || c == '\n' || c == '\r'

def hexChar? (cs : List Char) : Option Char :=
  let n := Scalar.number 16 cs
  if cs.all Scalar.isHexDigit then if n.isValidChar then some (Char.ofNat n) else none else none

def shortEscape? : Char → Option Char
  | 'b' => some '\x08'
  | 't' => some '\t'
  | 'n' => some '\n'
  | 'f' => some '\x0c'
  | 'r' => some '\r'
  | 'e' => some '\x1b'
  | '"' => some '"'
  | '\\' => some '\\'
  | _ => none

def prepend (c : Option Char) (rest : Option (List Char × List Char)) :
    Option (List Char × List Char) := do
  let c ← c
  let (cs, after) ← rest
  return (c :: cs, after)

def basic : List Char → Option (List Char × List Char)
  | [] => none
  | '"' :: cs => some ([], cs)
  | '\\' :: 'x' :: a :: b :: cs => prepend (hexChar? [a, b]) (basic cs)
  | '\\' :: 'u' :: a :: b :: c :: d :: cs => prepend (hexChar? [a, b, c, d]) (basic cs)
  | '\\' :: 'U' :: a :: b :: c :: d :: e :: f :: g :: h :: cs =>
    prepend (hexChar? [a, b, c, d, e, f, g, h]) (basic cs)
  | '\\' :: c :: cs => prepend (shortEscape? c) (basic cs)
  | c :: cs => if isAllowed c then prepend (some c) (basic cs) else none

def literal : List Char → Option (List Char × List Char)
  | [] => none
  | '\'' :: cs => some ([], cs)
  | c :: cs => if isAllowed c then prepend (some c) (literal cs) else none

/-- Where a string over several lines stands: in its text, after a backslash at the end of a line,
or in the blanks and line breaks that such a backslash removes. -/
inductive Gap where
  | none
  | lineEnd
  | nextLines
  deriving DecidableEq, Repr

def multiBasic : Gap → List Char → Option (List Char × List Char)
  | _, [] => .none
  | .lineEnd, c :: cs =>
    if c = '\n' then multiBasic .nextLines cs
    else if isBlank c then multiBasic .lineEnd cs
    else .none
  | _, '"' :: '"' :: '"' :: '"' :: '"' :: cs => some (['"', '"'], cs)
  | _, '"' :: '"' :: '"' :: '"' :: cs => some (['"'], cs)
  | _, '"' :: '"' :: '"' :: cs => some ([], cs)
  | _, '\\' :: 'x' :: a :: b :: cs => prepend (hexChar? [a, b]) (multiBasic .none cs)
  | _, '\\' :: 'u' :: a :: b :: c :: d :: cs =>
    prepend (hexChar? [a, b, c, d]) (multiBasic .none cs)
  | _, '\\' :: 'U' :: a :: b :: c :: d :: e :: f :: g :: h :: cs =>
    prepend (hexChar? [a, b, c, d, e, f, g, h]) (multiBasic .none cs)
  | _, '\\' :: c :: cs =>
    if c = '\n' then multiBasic .nextLines cs
    else if isBlank c then multiBasic .lineEnd cs
    else prepend (shortEscape? c) (multiBasic .none cs)
  | gap, c :: cs =>
    if gap = .nextLines ∧ (isBlank c ∨ c = '\n') then multiBasic .nextLines cs
    else if isAllowedInLines c then prepend (some c) (multiBasic .none cs)
    else .none

def multiLiteral : List Char → Option (List Char × List Char)
  | [] => none
  | '\'' :: '\'' :: '\'' :: '\'' :: '\'' :: cs => some (['\'', '\''], cs)
  | '\'' :: '\'' :: '\'' :: '\'' :: cs => some (['\''], cs)
  | '\'' :: '\'' :: '\'' :: cs => some ([], cs)
  | c :: cs => if isAllowedInLines c then prepend (some c) (multiLiteral cs) else none

def dropLineBreak : List Char → List Char
  | '\n' :: cs => cs
  | '\r' :: '\n' :: cs => cs
  | cs => cs

/-- A string on one line, as keys may be written. -/
def readLine : List Char → Option (List Char × List Char)
  | '"' :: cs => basic cs
  | '\'' :: cs => literal cs
  | _ => none

def read : List Char → Option (List Char × List Char)
  | '"' :: '"' :: '"' :: cs => multiBasic .none (dropLineBreak cs)
  | '\'' :: '\'' :: '\'' :: cs => multiLiteral (dropLineBreak cs)
  | cs => readLine cs

end SeriesQuery.Toml.Quoted
