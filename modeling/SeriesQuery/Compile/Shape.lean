import SeriesQuery.Query.Part

/-!
# The shape of a value column

A value column has one base column, and at most one label, one reducer and one window, in any
order. `ColumnShape.ofSpec` sorts the parts of a column into these roles and reports the first part
whose role is already taken, or else a missing base column.
-/

namespace SeriesQuery.Compile

open Query (ColumnPart ColumnSpec WindowKind)

inductive ShapeFault where
  | missingColumn
  | multipleColumns
  | multipleLabels
  | multipleReducers
  | multipleWindows
  | conflictingWindows
  deriving DecidableEq, Repr

def ShapeFault.message : ShapeFault → String
  | .missingColumn => "column spec has no column part"
  | .multipleColumns => "column spec has more than one column part"
  | .multipleLabels => "column spec has more than one alias part"
  | .multipleReducers => "column spec has more than one aggregate or percentile part"
  | .multipleWindows => "column spec has more than one window part of the same kind"
  | .conflictingWindows => "column spec combines a window part with a moving_window part"

inductive Reducer where
  | aggregate (function : String)
  | percentile (function argument : String)
  deriving DecidableEq, Repr

inductive Window where
  /-- A comparison with the row before. -/
  | lag (kind : WindowKind)
  | moving (function : String) (rows : Option UInt32)
  deriving DecidableEq, Repr

structure ColumnShape where
  column : String
  label : Option String
  reducer : Option Reducer
  window : Option Window
  deriving DecidableEq, Repr

/-- The roles taken by the parts seen so far. -/
structure ShapeDraft where
  column : Option String
  label : Option String
  reducer : Option Reducer
  window : Option Window
  deriving DecidableEq, Repr

/-- Takes a role unless it is taken. -/
def takeOnce {α : Type} (fault : ShapeFault) (value : α) : Option α → Except ShapeFault (Option α)
  | none => .ok (some value)
  | some _ => .error fault

/-- Two windows of one kind are one too many; two of different kinds conflict. -/
def takeWindow (window : Window) : Option Window → Except ShapeFault (Option Window)
  | none => .ok (some window)
  | some (.lag _) =>
    match window with
    | .lag _ => .error .multipleWindows
    | .moving _ _ => .error .conflictingWindows
  | some (.moving _ _) =>
    match window with
    | .lag _ => .error .conflictingWindows
    | .moving _ _ => .error .multipleWindows

namespace ShapeDraft

def empty : ShapeDraft := ⟨none, none, none, none⟩

def add (d : ShapeDraft) : ColumnPart → Except ShapeFault ShapeDraft
  | .column name => do return { d with column := ← takeOnce .multipleColumns name d.column }
  | .label name => do return { d with label := ← takeOnce .multipleLabels name d.label }
  | .aggregate function => do
    return { d with reducer := ← takeOnce .multipleReducers (.aggregate function) d.reducer }
  | .percentile function argument => do
    return { d with
      reducer := ← takeOnce .multipleReducers (.percentile function argument) d.reducer }
  | .window kind => do return { d with window := ← takeWindow (.lag kind) d.window }
  | .movingWindow function rows => do
    return { d with window := ← takeWindow (.moving function rows) d.window }

def addAll (d : ShapeDraft) : ColumnSpec → Except ShapeFault ShapeDraft
  | [] => .ok d
  | part :: parts => do addAll (← d.add part) parts

def shape (d : ShapeDraft) : Except ShapeFault ColumnShape :=
  match d.column with
  | some column => .ok ⟨column, d.label, d.reducer, d.window⟩
  | none => .error .missingColumn

end ShapeDraft

def ColumnShape.ofSpec (spec : ColumnSpec) : Except ShapeFault ColumnShape := do
  (← ShapeDraft.empty.addAll spec).shape

end SeriesQuery.Compile
