/-!
# Statement tokens

A statement is a sequence of tokens, each with one fixed text. Names coming from a query are
written as they stand: quoting them is the caller's business.
-/

namespace SeriesQuery.Sql

inductive Keyword where
  | select
  | source
  | filter
  | conjunction
  | naming
  | helperNaming
  | groupBy
  | orderBy
  | caseStart
  | caseWhen
  | caseThen
  | caseElse
  | caseEnd
  | isNull
  | null
  | withinGroup
  | overRows
  | partitionBy
  | rows
  | preceding
  deriving DecidableEq, Repr

def Keyword.text : Keyword → String
  | .select => "SELECT"
  | .source => "FROM"
  | .filter => "WHERE"
  | .conjunction => "AND"
  | .naming => "AS"
  | .helperNaming => "as"
  | .groupBy => "GROUP BY"
  | .orderBy => "ORDER BY"
  | .caseStart => "CASE"
  | .caseWhen => "WHEN"
  | .caseThen => "THEN"
  | .caseElse => "ELSE"
  | .caseEnd => "END"
  | .isNull => "IS NULL"
  | .null => "NULL"
  | .withinGroup => "WITHIN GROUP"
  | .overRows => "OVER"
  | .partitionBy => "PARTITION BY"
  | .rows => "ROWS"
  | .preceding => "PRECEDING"

inductive Token where
  /-- The line that selects the standard dialect. -/
  | dialect
  | keyword (word : Keyword)
  | comma
  | dot
  | openParen
  | closeParen
  | atLeast
  | minus
  | divide
  | space
  | newline
  | indent (levels : Nat)
  /-- A column, table or alias name. -/
  | name (text : String)
  | function (name : String)
  /-- A call that the query engine expands on its own, such as the time filter. -/
  | engineCall (name : String)
  | position (ordinal : Int)
  /-- Text taken over unchanged, such as a condition typed by the user. -/
  | fragment (sql : String)
  deriving DecidableEq, Repr

/-- One level of indentation is two blanks. -/
def indentation (levels : Nat) : String := String.ofList (List.replicate (2 * levels) ' ')

def Token.text : Token → String
  | .dialect => "#standardSQL"
  | .keyword k => k.text
  | .comma => ","
  | .dot => "."
  | .openParen => "("
  | .closeParen => ")"
  | .atLeast => ">="
  | .minus => "-"
  | .divide => "/"
  | .space => " "
  | .newline => "\n"
  | .indent n => indentation n
  | .name s => s
  | .function f => f
  | .engineCall f => "$__" ++ f
  | .position n => toString n
  | .fragment s => s

@[simp] theorem Token.text_name (s : String) : (Token.name s).text = s := rfl

@[simp] theorem Token.text_function (s : String) : (Token.function s).text = s := rfl

@[simp] theorem Token.text_fragment (s : String) : (Token.fragment s).text = s := rfl

end SeriesQuery.Sql
