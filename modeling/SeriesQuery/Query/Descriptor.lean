import SeriesQuery.Query.Part

/-!
# Query descriptors

A descriptor is the structured form of a query, as an editor holds it.
-/

namespace SeriesQuery.Query

structure Descriptor where
  dataset : Option String
  table : String
  /-- Whether the raw text is to be run as it stands. -/
  rawQuery : Bool
  rawSql : Option String
  timeColumn : Option String
  /-- Kept with the query; it has no influence on the statement. -/
  timeColumnType : Option String
  metricColumn : Option String
  select : List ColumnSpec
  conditions : List Condition
  group : List Grouping
  deriving DecidableEq, Repr

namespace Descriptor

def new (table : String) : Descriptor :=
  ⟨none, table, false, none, none, none, none, [], [], []⟩

/-- The metric column that is in effect. -/
def metric (d : Descriptor) : Option String := unlessNone d.metricColumn

def timeGroup (d : Descriptor) : Option Grouping := d.group.find? Grouping.isTime

def withRawSql (d : Descriptor) (sql : String) : Descriptor :=
  { d with rawQuery := true, rawSql := some sql }

end Descriptor

end SeriesQuery.Query
