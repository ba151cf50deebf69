import SeriesQuery.Proofs.Compile.Shape
import SeriesQuery.Proofs.Compile.Statement
import SeriesQuery.Proofs.Text.Nesting

/-!
# The formula of a value column

The text of a value column, written out: the value, reduced where there is a reducer, and the
formula of its window over this value. A stream of tokens has exactly the text of its formula.
-/

namespace SeriesQuery.Compile

open Query (ColumnSpec Descriptor WindowKind)
open Sql (Keyword Stream Token)
open Text (parens)

/-! ### Formulas -/

namespace Formula

/-- The value before windowing. -/
def reduced (time column : String) : Option Reducer → String
  | none => column
  | some (.aggregate function) =>
    function ++
      parens (if function ∈ ["first", "last"] then column ++ "," ++ time else column)
  | some (.percentile function argument) =>
    function ++ parens argument ++ " WITHIN GROUP " ++ parens ("ORDER BY " ++ column)

def order (metric : Option String) (time : String) : String :=
  match metric with
  | some metric => "PARTITION BY " ++ metric ++ " ORDER BY " ++ time
  | none => "ORDER BY " ++ time

def lag (value order : String) : String := "lag" ++ parens value ++ " OVER " ++ parens order

def increase (current previous : String) : String :=
  parens ("CASE WHEN " ++ current ++ " >= " ++ previous ++ " THEN " ++ current ++ " - " ++
    previous ++ " WHEN " ++ previous ++ " IS NULL THEN NULL ELSE " ++ current ++ " END")

/-- The seconds between two rows, whatever their metric. -/
def elapsed (time grain : String) : String :=
  "UNIX_SECONDS" ++ parens grain ++ " -UNIX_SECONDS" ++ parens ("  " ++ lag grain (order none time))

/-- The time of a value, the first one where several rows are reduced. -/
def grain (time : String) (isReduced : Bool) : String :=
  if isReduced then "min" ++ parens time else time

def compared (scope : Scope) (isReduced : Bool) (value : String) : WindowKind → String
  | .delta => value ++ " - " ++ lag value (order scope.metric scope.time)
  | .increase => increase value (lag value (order scope.metric scope.time))
  | .rate =>
    increase value (lag value (order scope.metric scope.time)) ++ "/" ++
      parens (elapsed scope.time (grain scope.time isReduced))

def rowCount (scope : Scope) : Option UInt32 → String
  | some n => toString n.toNat
  | none => scope.rowsPlaceholder

def moving (scope : Scope) (value function : String) (rows : Option UInt32) : String :=
  function ++ parens value ++ " OVER " ++
    parens (order none scope.time ++ " ROWS " ++ rowCount scope rows ++ " PRECEDING")

/-- A window behind its helper columns. -/
def windowed (scope : Scope) (isReduced : Bool) (value : String) : Window → String
  | .lag kind => value ++ " as tmpv, " ++ compared scope isReduced value kind
  | .moving function rows =>
    value ++ " as tmpv, " ++ value ++ " as tmpv, " ++ moving scope value function rows

def ofShape (scope : Scope) (shape : ColumnShape) : String :=
  let value := reduced scope.time shape.column shape.reducer
  let name := shape.label.getD shape.column
  match shape.window with
  | some window => windowed scope shape.reducer.isSome value window ++ " AS " ++ name
  | none => if shape.label.isSome || shape.reducer.isSome then value ++ " AS " ++ name else value

end Formula

/-! ### The text of a stream is its formula -/

namespace ValueColumn

theorem text_reduced (scope : Scope) (shape : ColumnShape) :
    (reduced scope shape).text = Formula.reduced scope.time shape.column shape.reducer := by
  unfold reduced Formula.reduced
  apply String.toList_injective
  cases shape.reducer with
  | none => simp
  | some reducer =>
    cases reducer with
    | aggregate function =>
      by_cases hordered : function = "first" ∨ function = "last" <;>
        simp [reduce, isTimeOrdered, parens, hordered, Token.text]
    | percentile function argument =>
      simp [reduce, parens, Token.text, Keyword.text]

theorem text_windowOrder (partition : Option String) (time : String) :
    (windowOrder partition time).text = Formula.order partition time := by
  apply String.toList_injective
  cases partition <;> simp [windowOrder, Formula.order, Token.text, Keyword.text]

theorem text_lag (value rows : Stream) :
    (lag value rows).text = Formula.lag value.text rows.text := by
  apply String.toList_injective
  simp [lag, Formula.lag, parens, Token.text, Keyword.text]

theorem text_increase (current previous : Stream) :
    (increase current previous).text = Formula.increase current.text previous.text := by
  apply String.toList_injective
  simp [increase, Formula.increase, parens, Token.text, Keyword.text]

theorem text_timeOfValue (scope : Scope) (isReduced : Bool) :
    (timeOfValue scope isReduced).text = Formula.grain scope.time isReduced := by
  apply String.toList_injective
  cases isReduced <;> simp [timeOfValue, Formula.grain, parens, Token.text]

theorem text_elapsed (scope : Scope) (isReduced : Bool) :
    (elapsed scope isReduced).text =
      Formula.elapsed scope.time (Formula.grain scope.time isReduced) := by
  apply String.toList_injective
  simp [elapsed, unixSeconds, Formula.elapsed, parens, Token.text, text_lag, text_windowOrder,
    text_timeOfValue]

theorem text_compareWithPrevious (scope : Scope) (isReduced : Bool) (value : Stream)
    (kind : WindowKind) :
    (compareWithPrevious scope isReduced value kind).text =
      Formula.compared scope isReduced value.text kind := by
  apply String.toList_injective
  cases kind <;>
    simp [compareWithPrevious, Formula.compared, parens, Token.text, text_lag, text_windowOrder,
      text_increase, text_elapsed]

theorem text_rowsToken (scope : Scope) (rows : Option UInt32) :
    (rowsToken scope rows).text = Formula.rowCount scope rows := by
  cases rows <;> rfl

theorem text_moving (scope : Scope) (value : Stream) (function : String) (rows : Option UInt32) :
    (moving scope value function rows).text = Formula.moving scope value.text function rows := by
  simp only [moving, Formula.moving, Stream.text_append, Stream.text_of_cons, text_rowsToken,
    text_windowOrder]
  apply String.toList_injective
  simp [parens, Token.text, Keyword.text]

theorem text_windowed (scope : Scope) (isReduced : Bool) (value : Stream) (window : Window) :
    (windowed scope isReduced value window).text =
      Formula.windowed scope isReduced value.text window := by
  apply String.toList_injective
  cases window <;>
    simp [windowed, helper, Formula.windowed, Token.text, Keyword.text, text_compareWithPrevious,
      text_moving]

theorem text_ofShape (scope : Scope) (shape : ColumnShape) :
    (ofShape scope shape).text = Formula.ofShape scope shape := by
  obtain ⟨column, label, reducer, window⟩ := shape
  have hreduced := text_reduced scope ⟨column, label, reducer, window⟩
  apply String.toList_injective
  cases label <;> cases reducer <;> cases window <;>
    simp [ofShape, Formula.ofShape, named, outputName, hreduced, text_windowed, Token.text,
      Keyword.text]

end ValueColumn

/-- A value column has a text exactly when its parts are those of a shape in some order, and then
the text is the formula of the shape over the time column and the row count, or their placeholders,
and over the metric column in effect. -/
theorem valueText_eq_ok_iff_formula (d : Descriptor) (o : Options) (spec : ColumnSpec)
    (text : String) :
    valueText d o spec = .ok text ↔ ∃ shape : ColumnShape, spec.Perm shape.parts ∧
      text = Formula.ofShape
        ⟨d.timeColumn.getD o.timePlaceholder, d.metric, o.rowsPlaceholder⟩ shape := by
  rw [valueText_eq_ok_iff]
  constructor
  · rintro ⟨s, hs, rfl⟩
    obtain ⟨shape, hshape, heq⟩ := Except.bind_eq_ok_iff.1 hs
    cases heq
    exact ⟨shape, ColumnShape.ofSpec_eq_ok_iff_perm.1 hshape, ValueColumn.text_ofShape _ shape⟩
  · rintro ⟨shape, hperm, rfl⟩
    refine ⟨ValueColumn.ofShape (Scope.of d o) shape, ?_, ValueColumn.text_ofShape _ shape⟩
    rw [valueColumn, ColumnShape.ofSpec_eq_ok_iff_perm.2 hperm]
    rfl

example : Formula.ofShape ⟨"ts", some "host", "undefined"⟩
    ⟨"v", none, some (.percentile "p" "0.5"), some (.lag .rate)⟩ =
      "p(0.5) WITHIN GROUP (ORDER BY v) as tmpv, (CASE WHEN p(0.5) WITHIN GROUP (ORDER BY v) >= " ++
      "lag(p(0.5) WITHIN GROUP (ORDER BY v)) OVER (PARTITION BY host ORDER BY ts) THEN " ++
      "p(0.5) WITHIN GROUP (ORDER BY v) - lag(p(0.5) WITHIN GROUP (ORDER BY v)) OVER " ++
      "(PARTITION BY host ORDER BY ts) WHEN lag(p(0.5) WITHIN GROUP (ORDER BY v)) OVER " ++
      "(PARTITION BY host ORDER BY ts) IS NULL THEN NULL ELSE p(0.5) WITHIN GROUP (ORDER BY v) " ++
      "END)/(UNIX_SECONDS(min(ts)) -UNIX_SECONDS(  lag(min(ts)) OVER (ORDER BY ts))) AS v" := by
  decide +kernel

end SeriesQuery.Compile
