import SeriesQuery.Json.Numeral

/-!
# JSON tokens

`Token.scan` cuts a text into tokens, one character at a time: `Scan` is what has been read of the
token under way. The blanks between tokens leave no trace. The first character that cannot
continue gives the token `bad`, and nothing after it is looked at.
-/

namespace SeriesQuery.Json

inductive Token where
  | openBracket
  | closeBracket
  | openBrace
  | closeBrace
  | comma
  | colon
  | null
  | bool (value : Bool)
  /-- No number for a literal beyond the largest double. -/
  | number (value : Option Number)
  /-- No text for a string with half of a surrogate pair. -/
  | string (value : Option String)
  | bad
  deriving DecidableEq, Repr

/-- A character of a string, or a code unit written as an escape of four hexadecimal digits. -/
inductive Unit16 where
  | char (c : Char)
  | escaped (unit : Nat)
  deriving DecidableEq, Repr

/-- The characters of a string, where an escaped high surrogate must be followed by an escaped low
one. -/
def Unit16.decode : List Unit16 → Option (List Char)
  | [] => some []
  | .char c :: rest => (decode rest).map (c :: ·)
  | [.escaped unit] => if 0xd800 ≤ unit ∧ unit ≤ 0xdfff then none else some [Char.ofNat unit]
  | .escaped unit :: next :: rest =>
    if 0xd800 ≤ unit ∧ unit ≤ 0xdbff then
      match next with
      | .escaped low =>
        if 0xdc00 ≤ low ∧ low ≤ 0xdfff then
          (decode rest).map (Char.ofNat (0x10000 + (unit - 0xd800) * 0x400 + (low - 0xdc00)) :: ·)
        else none
      | .char _ => none
    else if 0xdc00 ≤ unit ∧ unit ≤ 0xdfff then none
    else (decode (next :: rest)).map (Char.ofNat unit :: ·)

def hexValue? (c : Char) : Option Nat :=
  if c.isDigit then some (c.toNat - '0'.toNat)
  else if 'a' ≤ c ∧ c ≤ 'f' then some (c.toNat - 'a'.toNat + 10)
  else if 'A' ≤ c ∧ c ≤ 'F' then some (c.toNat - 'A'.toNat + 10)
  else none

def shortEscape? : Char → Option Char
  | '"' => some '"'
  | '\\' => some '\\'
  | '/' => some '/'
  | 'b' => some '\x08'
  | 'f' => some '\x0c'
  | 'n' => some '\n'
  | 'r' => some '\r'
  | 't' => some '\t'
  | _ => none

/-- What has been read of the token under way; the units of a string are in reverse. -/
inductive Scan where
  | between
  | word (rest : List Char) (token : Token)
  | number (literal : Numeral)
  | string (units : List Unit16)
  | escape (units : List Unit16)
  | hex (units : List Unit16) (digitsLeft : Nat) (unit : Nat)
  | stuck
  deriving DecidableEq, Repr

namespace Scan

/-- What a character does that does not continue a token. -/
def start (c : Char) : List Token × Scan :=
  match c with
  | ' ' | '\t' | '\n' | '\r' => ([], .between)
  | '[' => ([.openBracket], .between)
  | ']' => ([.closeBracket], .between)
  | '\x7b' => ([.openBrace], .between)
  | '\x7d' => ([.closeBrace], .between)
  | ',' => ([.comma], .between)
  | ':' => ([.colon], .between)
  | '"' => ([], .string [])
  | 'n' => ([], .word ['u', 'l', 'l'] .null)
  | 't' => ([], .word ['r', 'u', 'e'] (.bool true))
  | 'f' => ([], .word ['a', 'l', 's', 'e'] (.bool false))
  | c =>
    match Numeral.start? c with
    | some literal => ([], .number literal)
    | none => ([.bad], .stuck)

def numberToken (literal : Numeral) : Token :=
  if literal.isComplete then .number literal.number? else .bad

def step : Scan → Char → List Token × Scan
  | .between, c => start c
  | .word (expected :: rest) token, c =>
    if c = expected then if rest = [] then ([token], .between) else ([], .word rest token)
    else ([.bad], .stuck)
  | .word [] _, _ => ([.bad], .stuck)
  | .number literal, c =>
    match literal.push? c with
    | some literal => ([], .number literal)
    | none =>
      if literal.isComplete then
        let (tokens, next) := start c
        (.number literal.number? :: tokens, next)
      else ([.bad], .stuck)
  | .string units, c =>
    if c = '"' then ([.string ((Unit16.decode units.reverse).map String.ofList)], .between)
    else if c = '\\' then ([], .escape units)
    else if c.toNat < 0x20 then ([.bad], .stuck)
    else ([], .string (.char c :: units))
  | .escape units, c =>
    if c = 'u' then ([], .hex units 4 0)
    else
      match shortEscape? c with
      | some c => ([], .string (.char c :: units))
      | none => ([.bad], .stuck)
  | .hex units digitsLeft unit, c =>
    match hexValue? c with
    | some digit =>
      if digitsLeft ≤ 1 then ([], .string (.escaped (unit * 16 + digit) :: units))
      else ([], .hex units (digitsLeft - 1) (unit * 16 + digit))
    | none => ([.bad], .stuck)
  | .stuck, _ => ([], .stuck)

def finish : Scan → List Token
  | .between => []
  | .stuck => []
  | .number literal => [numberToken literal]
  | _ => [.bad]

def run : Scan → List Char → List Token
  | scan, [] => scan.finish
  | scan, c :: cs =>
    let (tokens, next) := scan.step c
    tokens ++ run next cs

end Scan

def Token.scan (text : String) : List Token := Scan.between.run text.toList

end SeriesQuery.Json
