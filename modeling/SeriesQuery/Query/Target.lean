import SeriesQuery.Query.Descriptor

/-!
# Stored targets

A target is a query as a dashboard stores it, with every field optional. Reading it as a descriptor
fills in what an editor gives to a fresh query: one column named `value` and the time filter. A
target that only holds raw text is a raw query.
-/

namespace SeriesQuery.Query

structure Target where
  dataset : Option String
  table : Option String
  rawQuery : Option Bool
  rawSql : Option String
  timeColumn : Option String
  timeColumnType : Option String
  metricColumn : Option String
  select : Option (List ColumnSpec)
  conditions : Option (List Condition)
  group : Option (List Grouping)
  deriving DecidableEq, Repr

namespace Target

def empty : Target := ⟨none, none, none, none, none, none, none, none, none, none⟩

def descriptor (t : Target) : Descriptor where
  dataset := t.dataset
  table := t.table.getD ""
  rawQuery := t.rawQuery.getD t.rawSql.isSome
  rawSql := t.rawSql
  timeColumn := t.timeColumn
  timeColumnType := t.timeColumnType
  metricColumn := t.metricColumn
  select := t.select.getD [[.column "value"]]
  conditions := t.conditions.getD [.engine .time]
  group := t.group.getD []

/-- The target with every field of a descriptor present. -/
def ofDescriptor (d : Descriptor) : Target where
  dataset := d.dataset
  table := some d.table
  rawQuery := some d.rawQuery
  rawSql := d.rawSql
  timeColumn := d.timeColumn
  timeColumnType := d.timeColumnType
  metricColumn := d.metricColumn
  select := some d.select
  conditions := some d.conditions
  group := some d.group

theorem descriptor_ofDescriptor (d : Descriptor) : (ofDescriptor d).descriptor = d := rfl

end Target

end SeriesQuery.Query
