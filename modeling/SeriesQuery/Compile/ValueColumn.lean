import SeriesQuery.Compile.Scope
import SeriesQuery.Compile.Shape
import SeriesQuery.Sql.Stream

/-!
# Value columns

A value column is reduced first and windowed second, whatever the order of its parts. A window
repeats the reduced value in helper columns ahead of the value itself.
-/

namespace SeriesQuery.Compile

open Query (ColumnSpec WindowKind)
open Sql (Stream)

namespace ValueColumn

/-- Whether an aggregate also takes the time column, by which it orders its rows. -/
def isTimeOrdered (function : String) : Bool := function == "first" || function == "last"

def reduce (scope : Scope) (column : Stream) : Reducer → Stream
  | .aggregate function =>
    .of [.function function, .openParen] ++ column ++
      (if isTimeOrdered function then .of [.comma, .name scope.time] else .empty) ++
      .of [.closeParen]
  | .percentile function argument =>
    .of [.function function, .openParen, .fragment argument, .closeParen, .space,
      .keyword .withinGroup, .space, .openParen, .keyword .orderBy, .space] ++ column ++
      .of [.closeParen]

/-- The value before windowing. -/
def reduced (scope : Scope) (shape : ColumnShape) : Stream :=
  let column := Stream.of [.name shape.column]
  match shape.reducer with
  | some reducer => reduce scope column reducer
  | none => column

def helper (value : Stream) : Stream :=
  value ++ .of [.space, .keyword .helperNaming, .space, .name "tmpv"]

/-- The order of the rows that a window function looks at, each partition by itself. -/
def windowOrder (partition : Option String) (time : String) : Stream :=
  (match partition with
    | some metric => .of [.keyword .partitionBy, .space, .name metric, .space]
    | none => .empty) ++
    .of [.keyword .orderBy, .space, .name time]

/-- The value in the row before. -/
def lag (value rows : Stream) : Stream :=
  .of [.function "lag", .openParen] ++ value ++
    .of [.closeParen, .space, .keyword .overRows, .space, .openParen] ++ rows ++ .of [.closeParen]

/-- The growth of a counter that may start again from zero. -/
def increase (current previous : Stream) : Stream :=
  .of [.openParen, .keyword .caseStart, .space, .keyword .caseWhen, .space] ++ current ++
    .of [.space, .atLeast, .space] ++ previous ++
    .of [.space, .keyword .caseThen, .space] ++ current ++ .of [.space, .minus, .space] ++
    previous ++ .of [.space, .keyword .caseWhen, .space] ++ previous ++
    .of [.space, .keyword .isNull, .space, .keyword .caseThen, .space, .keyword .null, .space,
      .keyword .caseElse, .space] ++ current ++ .of [.space, .keyword .caseEnd, .closeParen]

def unixSeconds (time : Stream) : Stream :=
  .of [.function "UNIX_SECONDS", .openParen] ++ time ++ .of [.closeParen]

/-- The time at the grain of the value: that of the row, or the first one of the group. -/
def timeOfValue (scope : Scope) (isReduced : Bool) : Stream :=
  if isReduced then .of [.function "min", .openParen, .name scope.time, .closeParen]
  else .of [.name scope.time]

/-- The seconds since the row before, whichever metric it belongs to. -/
def elapsed (scope : Scope) (isReduced : Bool) : Stream :=
  let time := timeOfValue scope isReduced
  unixSeconds time ++ .of [.space, .minus] ++
    unixSeconds (.of [.space, .space] ++ lag time (windowOrder none scope.time))

def compareWithPrevious (scope : Scope) (isReduced : Bool) (value : Stream) : WindowKind → Stream
  | .delta => value ++ .of [.space, .minus, .space] ++ lag value (windowOrder scope.metric scope.time)
  | .increase => increase value (lag value (windowOrder scope.metric scope.time))
  | .rate =>
    increase value (lag value (windowOrder scope.metric scope.time)) ++ .of [.divide, .openParen] ++
      elapsed scope isReduced ++ .of [.closeParen]

/-- The number of rows, in decimal, or its placeholder. -/
def rowsToken (scope : Scope) : Option UInt32 → Sql.Token
  | some n => .position n.toNat
  | none => .fragment scope.rowsPlaceholder

def moving (scope : Scope) (value : Stream) (function : String) (rows : Option UInt32) : Stream :=
  .of [.function function, .openParen] ++ value ++
    .of [.closeParen, .space, .keyword .overRows, .space, .openParen] ++ windowOrder none scope.time ++
    .of [.space, .keyword .rows, .space, rowsToken scope rows, .space, .keyword .preceding,
      .closeParen]

/-- A window with its helper columns; a moving window has two. -/
def windowed (scope : Scope) (isReduced : Bool) (value : Stream) : Window → Stream
  | .lag kind =>
    helper value ++ .of [.comma, .space] ++ compareWithPrevious scope isReduced value kind
  | .moving function rows =>
    helper value ++ .of [.comma, .space] ++ helper value ++ .of [.comma, .space] ++
      moving scope value function rows

/-- The output name: the label, or the column name when the value is not the bare column. -/
def outputName (shape : ColumnShape) : Option String :=
  match shape.label with
  | some label => some label
  | none => if shape.reducer.isSome || shape.window.isSome then some shape.column else none

def named (value : Stream) : Option String → Stream
  | some name => value ++ .of [.space, .keyword .naming, .space, .name name]
  | none => value

def ofShape (scope : Scope) (shape : ColumnShape) : Stream :=
  let value := reduced scope shape
  let value := match shape.window with
    | some window => windowed scope shape.reducer.isSome value window
    | none => value
  named value (outputName shape)

end ValueColumn

def valueColumn (scope : Scope) (spec : ColumnSpec) : Except ShapeFault Stream := do
  return ValueColumn.ofShape scope (← ColumnShape.ofSpec spec)

end SeriesQuery.Compile
