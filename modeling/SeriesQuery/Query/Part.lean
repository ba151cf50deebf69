/-!
# The parts of a query

A query selects value columns, each an ordered list of column parts, restricts rows by conditions
and groups them. The size of a moving window is a 32-bit word.
-/

namespace SeriesQuery.Query

/-- How a row is compared with the row before it. -/
inductive WindowKind where
  | increase
  | delta
  | rate
  deriving DecidableEq, Repr

def WindowKind.name : WindowKind → String
  | .increase => "increase"
  | .delta => "delta"
  | .rate => "rate"

def WindowKind.ofName? : String → Option WindowKind
  | "increase" => some .increase
  | "delta" => some .delta
  | "rate" => some .rate
  | _ => none

inductive ColumnPart where
  | column (name : String)
  /-- The name of the output column. -/
  | label (name : String)
  | aggregate (function : String)
  /-- An aggregate over the rows in the order of the value. -/
  | percentile (function argument : String)
  | window (kind : WindowKind)
  /-- An aggregate over the preceding rows, whose number may be left open. -/
  | movingWindow (function : String) (rows : Option UInt32)
  deriving DecidableEq, Repr

abbrev ColumnSpec := List ColumnPart

/-- A condition that the query engine fills in. -/
inductive EngineFilter where
  | time
  deriving DecidableEq, Repr

def EngineFilter.name : EngineFilter → String
  | .time => "$__timeFilter"

def EngineFilter.ofName? : String → Option EngineFilter
  | "$__timeFilter" => some .time
  | _ => none

inductive Condition where
  | engine (filter : EngineFilter)
  /-- The three texts are written as they stand. -/
  | expression (left op right : String)
  deriving DecidableEq, Repr

/-- What an optional selector holds when nothing is selected. -/
def noneText : String := "none"

/-- An optional text, where the text `none` counts as absent. -/
def unlessNone : Option String → Option String
  | some s => if s = noneText then none else some s
  | none => none

inductive Grouping where
  /-- Buckets of time, and how empty ones are filled. -/
  | time (interval : String) (fill : Option String)
  | column (name : String)
  deriving DecidableEq, Repr

def Grouping.isTime : Grouping → Bool
  | .time _ _ => true
  | .column _ => false

def Grouping.fillMode : Grouping → Option String
  | .time _ fill => unlessNone fill
  | .column _ => none

end SeriesQuery.Query
