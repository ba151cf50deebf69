import SeriesQuery.Compile.Scope
import SeriesQuery.Sql.Stream

/-!
# Clauses

The time and metric columns, the conditions, and the grouping and ordering, each from the query
and the placeholders alone. Rows are grouped and ordered by the position of the time column and,
where there is one, of the metric column.
-/

namespace SeriesQuery.Compile

open Query (Descriptor Condition Grouping)
open Sql (Stream)

namespace Clause

/-- The time column, with a name of its own or for use within an expression. A query that is
grouped by time leaves the bucketing to the engine. -/
def time (d : Descriptor) (o : Options) (isNamed : Bool) : Stream :=
  match d.timeGroup with
  | some (.time interval fill) =>
    .of [.engineCall (if isNamed then "timeGroupAlias" else "timeGroup"), .openParen,
      .name (timeName d o), .comma, .fragment interval] ++
      (match (Grouping.time interval fill).fillMode with
        | some mode => .of [.comma, .fragment mode]
        | none => .empty) ++
      .of [.closeParen]
  | _ => .of [.name (timeName d o), .space, .keyword .naming, .space, .name "time"]

def metric? (d : Descriptor) : Option Stream :=
  d.metric.map fun name => .of [.name name, .space, .keyword .naming, .space, .name "metric"]

def metric (d : Descriptor) : Stream := (metric? d).getD .empty

def condition (d : Descriptor) (o : Options) : Condition → Stream
  | .engine .time =>
    .of [.engineCall "timeFilter", .openParen, .name (timeName d o), .closeParen]
  | .expression left op right =>
    .of [.fragment left, .space, .fragment op, .space, .fragment right]

def conditions (d : Descriptor) (o : Options) : Stream :=
  if d.conditions.isEmpty then .empty
  else
    (Stream.of [.newline, .keyword .filter, .newline, .indent 1]).join
      (d.conditions.map (condition d o))
      (.of [.space, .keyword .conjunction, .newline, .indent 1])

/-- The positions of the time column and the metric column in the output. -/
def ordinals (d : Descriptor) : List Int := if d.metric.isSome then [1, 2] else [1]

def ordinalList (d : Descriptor) (keyword : Sql.Keyword) : Stream :=
  (Stream.of [.newline, .keyword keyword, .space]).join
    ((ordinals d).map fun n => .of [.position n]) (.of [.comma])

def group (d : Descriptor) : Stream :=
  if d.group.isEmpty then .empty else ordinalList d .groupBy

def order (d : Descriptor) : Stream := ordinalList d .orderBy

/-- The path of the table, with a placeholder for a dataset that is not set. -/
def table (d : Descriptor) (o : Options) : Stream :=
  (match d.dataset with
    | some dataset => .of [.name dataset]
    | none => .of [.fragment o.datasetPlaceholder]) ++
    .of [.dot, .name d.table]

end Clause

end SeriesQuery.Compile
