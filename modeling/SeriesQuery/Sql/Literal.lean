/-!
# Single-quoted literals

Inside a single-quoted literal a quote is written twice and every other character stands for
itself. `escape` doubles the quotes of a text and `quote` wraps the result, so that a reader of the
same rule finds the closing quote exactly at the end.
-/

namespace SeriesQuery.Sql.Literal

def escapeChars : List Char → List Char
  | [] => []
  | c :: cs => if c = '\'' then '\'' :: '\'' :: escapeChars cs else c :: escapeChars cs

def quoteChars (cs : List Char) : List Char := '\'' :: escapeChars cs ++ ['\'']

def escape (s : String) : String := String.ofList (escapeChars s.toList)

def quote (s : String) : String := String.ofList (quoteChars s.toList)

@[simp] theorem escapeChars_nil : escapeChars [] = [] := rfl

theorem escapeChars_append (a b : List Char) :
    escapeChars (a ++ b) = escapeChars a ++ escapeChars b := by
  induction a with
  | nil => rfl
  | cons c cs ih => by_cases h : c = '\'' <;> simp [escapeChars, h, ih]

end SeriesQuery.Sql.Literal
