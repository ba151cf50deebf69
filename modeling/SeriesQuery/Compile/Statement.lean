import SeriesQuery.Compile.Clause
import SeriesQuery.Compile.ValueColumn
import SeriesQuery.Trace

/-!
# Statements

A statement selects the time column, the metric column where there is one, and the value columns in
order. It fails at the first value column that has no shape.
-/

namespace SeriesQuery.Compile

open Query (Descriptor ColumnSpec)
open Sql (Stream)

inductive CompileFault where
  | invalidShape (shape : ShapeFault)
  | invalidSelect (index : Nat) (shape : ShapeFault)
  deriving DecidableEq, Repr

namespace CompileFault

def shape : CompileFault → ShapeFault
  | .invalidShape s => s
  | .invalidSelect _ s => s

def message : CompileFault → String
  | .invalidShape s => "Invalid query shape: " ++ s.message
  | .invalidSelect index s =>
    "Invalid query shape in select column " ++ toString index ++ ": " ++ s.message

end CompileFault

def valueText (d : Descriptor) (o : Options) (spec : ColumnSpec) : Except CompileFault String :=
  match valueColumn (Scope.of d o) spec with
  | .ok stream => .ok stream.text
  | .error fault => .error (.invalidShape fault)

abbrev Compiling := ExceptT CompileFault Traced

namespace Statement

/-- An item of the selection after the first. -/
def item (stream : Stream) : Stream := .of [.comma, .newline, .indent 1] ++ stream

def values (scope : Scope) (index : Nat) : List ColumnSpec → Compiling Stream
  | [] => return .empty
  | spec :: specs =>
    match valueColumn scope spec with
    | .error fault => throw (.invalidSelect index fault)
    | .ok stream => do
      Traced.emit (.valueColumn spec.length)
      return item stream ++ (← values scope (index + 1) specs)

def build (d : Descriptor) (o : Options) : Compiling String := do
  Traced.emit (.statement d.table)
  Traced.emit (.timeColumn true)
  let columns ← values (Scope.of d o) 0 d.select
  Traced.emitIf d.dataset.isNone (.datasetUnset d.table o.datasetPlaceholder)
  Traced.emitIf (!d.conditions.isEmpty) (.conditions d.conditions.length)
  Traced.emitIf (!d.group.isEmpty) (.group d.group.length)
  let stream := .of [.dialect, .newline, .keyword .select, .newline, .space] ++
    Clause.time d o true ++
    (match Clause.metric? d with
      | some metric => item metric
      | none => .empty) ++
    columns ++ .of [.newline, .keyword .source, .space] ++ Clause.table d o ++
    Clause.conditions d o ++ Clause.group d ++ Clause.order d
  let sql := stream.text
  Traced.emit (.compiled d.select.length sql.utf8ByteSize)
  return sql

end Statement

/-- The statement of a query, whether or not the query is raw, with the events on the way. -/
def compileTraced (d : Descriptor) (o : Options) : Traced (Except CompileFault String) :=
  (Statement.build d o).run

def compile (d : Descriptor) (o : Options) : Except CompileFault String := (compileTraced d o).value

end SeriesQuery.Compile
