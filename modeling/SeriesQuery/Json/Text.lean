import SeriesQuery.Json.Value

/-!
# Compact JSON text

Values are written without blanks. In strings the quote, the backslash and the controls are
escaped, with a short escape where there is one, and every other character stands for itself.
-/

namespace SeriesQuery.Json

def escapeChar (c : Char) : List Char :=
  if c = '"' then ['\\', '"']
  else if c = '\\' then ['\\', '\\']
  else if c = '\x08' then ['\\', 'b']
  else if c = '\x0c' then ['\\', 'f']
  else if c = '\n' then ['\\', 'n']
  else if c = '\r' then ['\\', 'r']
  else if c = '\t' then ['\\', 't']
  else if c.toNat < 0x20 then
    ['\\', 'u', '0', '0', Nat.digitChar (c.toNat / 16), Nat.digitChar (c.toNat % 16)]
  else [c]

def stringChars (s : String) : List Char := '"' :: s.toList.flatMap escapeChar ++ ['"']

def Number.chars : Number → List Char
  | .integer n => (if n < 0 then ['-'] else []) ++ Nat.toDigits 10 n.natAbs
  | .double x => x.chars

namespace Value

mutual

def chars : Value → List Char
  | .null => ['n', 'u', 'l', 'l']
  | .bool true => ['t', 'r', 'u', 'e']
  | .bool false => ['f', 'a', 'l', 's', 'e']
  | .number n => n.chars
  | .string s => stringChars s
  | .array items => '[' :: itemsChars items ++ [']']
  | .object fields => '\x7b' :: fieldsChars fields ++ ['\x7d']

def itemsChars : List Value → List Char
  | [] => []
  | [item] => item.chars
  | item :: items => item.chars ++ ',' :: itemsChars items

def fieldsChars : List (String × Value) → List Char
  | [] => []
  | [(key, value)] => stringChars key ++ ':' :: value.chars
  | (key, value) :: fields => stringChars key ++ ':' :: value.chars ++ ',' :: fieldsChars fields

end

def text (value : Value) : String := String.ofList value.chars

end Value

end SeriesQuery.Json
