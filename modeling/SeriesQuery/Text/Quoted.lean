import SeriesQuery.Text.Printable

/-!
# Quoted text for messages

How a message shows a text that it quotes: between double quotes, with a backslash before quotes
and backslashes, short escapes for the common controls, and the code point in braces for anything
else that cannot be printed.
-/

namespace SeriesQuery.Text

def quotedChar (c : Char) : List Char :=
  if c = '"' then ['\\', '"']
  else if c = '\\' then ['\\', '\\']
  else if c = '\n' then ['\\', 'n']
  else if c = '\r' then ['\\', 'r']
  else if c = '\t' then ['\\', 't']
  else if c = '\x00' then ['\\', '0']
  else if isPrintable c then [c]
  else '\\' :: 'u' :: '\x7b' :: Nat.toDigits 16 c.toNat ++ ['\x7d']

def quoted (s : String) : String :=
  String.ofList ('"' :: s.toList.flatMap quotedChar ++ ['"'])

end SeriesQuery.Text
