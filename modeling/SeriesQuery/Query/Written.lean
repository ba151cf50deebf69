import SeriesQuery.Query.TaggedPart
import SeriesQuery.Query.Target

/-!
# Queries as JSON

A target is written with all ten fields in their order, null for the absent ones. A descriptor is
written as the target that has everything it has.
-/

namespace SeriesQuery.Query

def optionJson {α : Type} (toJson : α → Json.Value) : Option α → Json.Value
  | some a => toJson a
  | none => .null

def ColumnPart.toJson (p : ColumnPart) : Json.Value := p.tagged.toJson

def ColumnSpec.toJson (spec : ColumnSpec) : Json.Value := .array (spec.map ColumnPart.toJson)

def Condition.toJson (c : Condition) : Json.Value := c.tagged.toJson

def Grouping.toJson (g : Grouping) : Json.Value := g.tagged.toJson

def Target.toJson (t : Target) : Json.Value :=
  .object [
    ("dataset", optionJson .string t.dataset),
    ("table", optionJson .string t.table),
    ("rawQuery", optionJson .bool t.rawQuery),
    ("rawSql", optionJson .string t.rawSql),
    ("timeColumn", optionJson .string t.timeColumn),
    ("timeColumnType", optionJson .string t.timeColumnType),
    ("metricColumn", optionJson .string t.metricColumn),
    ("select", optionJson (fun specs => .array (specs.map ColumnSpec.toJson)) t.select),
    ("where", optionJson (fun conditions => .array (conditions.map Condition.toJson)) t.conditions),
    ("group", optionJson (fun group => .array (group.map Grouping.toJson)) t.group)]

def Descriptor.toJson (d : Descriptor) : Json.Value := (Target.ofDescriptor d).toJson

def Descriptor.text (d : Descriptor) : String := d.toJson.text

end SeriesQuery.Query
