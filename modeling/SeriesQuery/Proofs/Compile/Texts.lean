import SeriesQuery.Proofs.Compile.Formula

/-!
# The texts that a statement is made of

Whatever is not a word of the statement itself is a text of the query or a placeholder, written as
it stands. Value columns and clauses are composed of these texts with words in between, and every
parenthesis that is opened for them is closed again.
-/

namespace SeriesQuery

namespace Query

def ColumnPart.texts : ColumnPart → List String
  | .column name => [name]
  | .label name => [name]
  | .aggregate function => [function]
  | .percentile function argument => [function, argument]
  | .window _ => []
  | .movingWindow function _ => [function]

def Condition.texts : Condition → List String
  | .engine _ => []
  | .expression left op right => [left, op, right]

def Grouping.texts : Grouping → List String
  | .time interval fill => interval :: fill.toList
  | .column name => [name]

/-- The texts of a query that may come into its statement. -/
def Descriptor.texts (d : Descriptor) : List String :=
  d.dataset.toList ++ [d.table] ++ d.timeColumn.toList ++ d.metricColumn.toList ++
    d.select.flatMap (List.flatMap ColumnPart.texts) ++ d.conditions.flatMap Condition.texts ++
    d.group.flatMap Grouping.texts

namespace Descriptor

variable {d : Descriptor}

theorem texts_subset_of_select {spec : ColumnSpec} (h : spec ∈ d.select) :
    spec.flatMap ColumnPart.texts ⊆ d.texts := by
  intro text htext
  simp only [texts, List.mem_append, List.mem_flatMap]
  exact .inl (.inl (.inr ⟨spec, h, List.mem_flatMap.1 htext⟩))

theorem texts_subset_of_conditions {c : Condition} (h : c ∈ d.conditions) : c.texts ⊆ d.texts := by
  intro text htext
  simp only [texts, List.mem_append, List.mem_flatMap]
  exact .inl (.inr ⟨c, h, htext⟩)

theorem texts_subset_of_group {g : Grouping} (h : g ∈ d.group) : g.texts ⊆ d.texts := by
  intro text htext
  simp only [texts, List.mem_append, List.mem_flatMap]
  exact .inr ⟨g, h, htext⟩

theorem eq_some_of_unlessNone {slot : Option String} {s : String} (h : unlessNone slot = some s) :
    slot = some s := by
  cases slot with
  | none => cases h
  | some held =>
    change (if held = noneText then none else some held) = some s at h
    split at h
    · cases h
    · exact h

theorem mem_texts_of_metric {metric : String} (h : d.metric = some metric) : metric ∈ d.texts := by
  have hcolumn : d.metricColumn = some metric := eq_some_of_unlessNone h
  simp [texts, hcolumn]

end Descriptor

end Query

namespace Compile

open Query (Descriptor ColumnPart ColumnSpec Condition Grouping WindowKind)
open Sql (Keyword Stream Token)
open Text (Composed IsWord parens)

def Options.texts (o : Options) : List String :=
  [o.timePlaceholder, o.datasetPlaceholder, o.rowsPlaceholder]

def Reducer.texts : Reducer → List String
  | .aggregate function => [function]
  | .percentile function argument => [function, argument]

def Window.texts : Window → List String
  | .lag _ => []
  | .moving function _ => [function]

def ColumnShape.texts (shape : ColumnShape) : List String :=
  shape.column :: shape.label.toList ++ shape.reducer.toList.flatMap Reducer.texts ++
    shape.window.toList.flatMap Window.texts

def Scope.texts (scope : Scope) : List String :=
  scope.time :: scope.metric.toList ++ [scope.rowsPlaceholder]

/-- What the parts give to a role has no texts but theirs. -/
theorem flatMap_texts_subset {α : Type} {role : ColumnPart → Option α} {texts : α → List String}
    (h : ∀ part a, role part = some a → texts a ⊆ part.texts) (spec : ColumnSpec) :
    (spec.filterMap role).flatMap texts ⊆ spec.flatMap ColumnPart.texts := by
  intro text htext
  obtain ⟨a, ha, hmem⟩ := List.mem_flatMap.1 htext
  obtain ⟨part, hpart, hrole⟩ := List.mem_filterMap.1 ha
  exact List.mem_flatMap.2 ⟨part, hpart, h part a hrole hmem⟩

theorem ColumnShape.texts_subset {spec : ColumnSpec} {shape : ColumnShape}
    (h : ColumnShape.ofSpec spec = .ok shape) : shape.texts ⊆ spec.flatMap ColumnPart.texts := by
  have hextends := ColumnShape.ofSpec_eq_ok_iff.1 h
  have hcolumn : [shape.column] = spec.filterMap columnOf? := hextends.column
  have hlabel : shape.label.toList = spec.filterMap labelOf? := hextends.label
  have hreducer : shape.reducer.toList = spec.filterMap reducerOf? := hextends.reducer
  have hwindow : shape.window.toList = spec.filterMap windowOf? := hextends.window
  have hroles : shape.texts =
      (spec.filterMap columnOf?).flatMap (fun name => [name]) ++
        (spec.filterMap labelOf?).flatMap (fun name => [name]) ++
        (spec.filterMap reducerOf?).flatMap Reducer.texts ++
        (spec.filterMap windowOf?).flatMap Window.texts := by
    rw [← hcolumn, ← hlabel, ← hreducer, ← hwindow]
    simp [ColumnShape.texts]
  rw [hroles]
  refine List.append_subset.2 ⟨List.append_subset.2 ⟨List.append_subset.2 ⟨?_, ?_⟩, ?_⟩, ?_⟩ <;>
    refine flatMap_texts_subset (fun part a hrole => ?_) spec <;>
    cases part <;> cases hrole <;>
    simp [ColumnPart.texts, Reducer.texts, Window.texts]

theorem timeName_mem_texts (d : Descriptor) (o : Options) : timeName d o ∈ d.texts ++ o.texts := by
  unfold timeName
  cases h : d.timeColumn <;> simp [Descriptor.texts, Options.texts, h]

/-! ### Value columns -/

theorem isWord_toString (n : Nat) : IsWord (toString n) := by
  intro c hc hforbidden
  change c ∈ (String.ofList (Nat.toDigits 10 n)).toList at hc
  rw [String.toList_ofList] at hc
  have hdigit := Nat.isDigit_of_mem_toDigits (by decide) (by decide) hc
  simp only [List.mem_cons, List.not_mem_nil, or_false] at hforbidden
  rcases hforbidden with rfl | rfl | rfl <;> cases hdigit

namespace Formula

section

variable {texts : List String} {scope : Scope} {value time : String}

theorem composed_reduced {column : String} {reducer : Option Reducer}
    (htime : Composed texts time) (hcolumn : Composed texts column)
    (hreducer : ∀ text ∈ reducer.toList.flatMap Reducer.texts, Composed texts text) :
    Composed texts (reduced time column reducer) := by
  match reducer with
  | none => exact hcolumn
  | some (.aggregate function) =>
    have hfunction : Composed texts function := hreducer _ (by simp [Reducer.texts])
    have hargument :
        Composed texts (if function ∈ ["first", "last"] then column ++ "," ++ time else column) := by
      split
      · exact .append (.append hcolumn (.word (by decide))) htime
      · exact hcolumn
    exact hfunction.append hargument.parens
  | some (.percentile function argument) =>
    have hfunction : Composed texts function := hreducer _ (by simp [Reducer.texts])
    have hargument : Composed texts argument := hreducer _ (by simp [Reducer.texts])
    have horder : Composed texts ("ORDER BY " ++ column) := .append (.word (by decide)) hcolumn
    exact .append (.append (hfunction.append hargument.parens) (.word (by decide))) horder.parens

theorem composed_order (metric : Option String) (hmetric : ∀ name ∈ metric, Composed texts name)
    (htime : Composed texts time) : Composed texts (order metric time) := by
  cases metric with
  | none => exact .append (.word (by decide)) htime
  | some name =>
    have hname := hmetric name rfl
    unfold order
    apply_rules only [hname, htime, Composed.append] <;> exact .word (by decide)

theorem composed_lag {rows : String} (hvalue : Composed texts value) (hrows : Composed texts rows) :
    Composed texts (lag value rows) := by
  unfold lag
  apply_rules only [hvalue, hrows, Composed.append, Composed.parens] <;> exact .word (by decide)

theorem composed_increase {current previous : String} (hcurrent : Composed texts current)
    (hprevious : Composed texts previous) : Composed texts (increase current previous) := by
  unfold increase
  apply_rules only [hcurrent, hprevious, Composed.append, Composed.parens] <;> exact .word (by decide)

theorem composed_grain (htime : Composed texts time) (isReduced : Bool) :
    Composed texts (grain time isReduced) := by
  cases isReduced with
  | false => exact htime
  | true => exact .append (.word (by decide)) htime.parens

theorem composed_elapsed {grain : String} (htime : Composed texts time)
    (hgrain : Composed texts grain) : Composed texts (elapsed time grain) := by
  have hprevious := composed_lag hgrain (composed_order none nofun htime)
  unfold elapsed
  apply_rules only [hgrain, hprevious, Composed.append, Composed.parens] <;> exact .word (by decide)

section

variable (hscope : ∀ text ∈ scope.texts, Composed texts text) (hvalue : Composed texts value)
include hscope hvalue

theorem composed_compared (isReduced : Bool) (kind : WindowKind) :
    Composed texts (compared scope isReduced value kind) := by
  have htime : Composed texts scope.time := hscope _ List.mem_cons_self
  have hmetric : ∀ name ∈ scope.metric, Composed texts name := fun name hname =>
    hscope _ (by simp [Scope.texts, Option.mem_def.1 hname])
  have hprevious := composed_lag hvalue (composed_order scope.metric hmetric htime)
  have hincrease := composed_increase hvalue hprevious
  have helapsed := composed_elapsed htime (composed_grain htime isReduced)
  cases kind with
  | delta => exact .append (.append hvalue (.word (by decide))) hprevious
  | increase => exact hincrease
  | rate => exact .append (.append hincrease (.word (by decide))) helapsed.parens

theorem composed_moving {function : String} (hfunction : Composed texts function)
    (rows : Option UInt32) : Composed texts (moving scope value function rows) := by
  have horder := composed_order none nofun (hscope _ List.mem_cons_self)
  have hrows : Composed texts (rowCount scope rows) := by
    cases rows with
    | none => exact hscope scope.rowsPlaceholder (by simp [Scope.texts])
    | some n => exact .word (isWord_toString n.toNat)
  unfold moving
  apply_rules only [hfunction, hvalue, horder, hrows, Composed.append, Composed.parens] <;>
    exact .word (by decide)

theorem composed_windowed (isReduced : Bool) {window : Window}
    (hwindow : ∀ text ∈ window.texts, Composed texts text) :
    Composed texts (windowed scope isReduced value window) := by
  have hhelper : Composed texts (value ++ " as tmpv, ") := hvalue.append (.word (by decide))
  cases window with
  | lag kind => exact hhelper.append (composed_compared hscope hvalue isReduced kind)
  | moving function rows =>
    have hmoving := composed_moving hscope hvalue (hwindow function List.mem_cons_self) rows
    exact .append (.append (.append hhelper hvalue) (.word (by decide))) hmoving

end

theorem composed_ofShape {shape : ColumnShape}
    (hscope : ∀ text ∈ scope.texts, Composed texts text)
    (hshape : ∀ text ∈ shape.texts, Composed texts text) :
    Composed texts (ofShape scope shape) := by
  obtain ⟨column, label, reducer, window⟩ := shape
  have hcolumn : Composed texts column := hshape _ (by simp [ColumnShape.texts])
  have hvalue : Composed texts (reduced scope.time column reducer) :=
    composed_reduced (hscope _ List.mem_cons_self) hcolumn fun text htext =>
      hshape _ (by simp [ColumnShape.texts, htext])
  have hname : Composed texts (" AS " ++ label.getD column) := by
    refine .append (.word (by decide)) ?_
    cases label with
    | none => exact hcolumn
    | some label => exact hshape _ (by simp [ColumnShape.texts])
  cases window with
  | none =>
    by_cases hnamed : label.isSome || reducer.isSome
    · simpa [ofShape, hnamed, String.append_assoc] using hvalue.append hname
    · simpa [ofShape, hnamed] using hvalue
  | some window =>
    have hwindow : ∀ text ∈ window.texts, Composed texts text := fun text htext =>
      hshape _ (by simp [ColumnShape.texts, htext])
    have hwindowed := composed_windowed hscope hvalue reducer.isSome hwindow
    simpa [ofShape, String.append_assoc] using hwindowed.append hname

end

end Formula

theorem Scope.texts_of_subset (d : Descriptor) (o : Options) :
    (Scope.of d o).texts ⊆ d.texts ++ o.texts := by
  intro text htext
  rcases List.mem_append.1 htext with hmem | hrows
  · rcases List.mem_cons.1 hmem with rfl | hmetric
    · exact timeName_mem_texts d o
    · exact List.mem_append_left _ (Descriptor.mem_texts_of_metric (Option.mem_toList.1 hmetric))
  · cases List.mem_singleton.1 hrows
    exact List.mem_append_right _ (by simp [Scope.of, Options.texts])

theorem composed_valueText {d : Descriptor} {o : Options} {spec : ColumnSpec} {text : String}
    (h : valueText d o spec = .ok text) :
    Composed (d.texts ++ o.texts ++ spec.flatMap ColumnPart.texts) text := by
  obtain ⟨s, hs, rfl⟩ := valueText_eq_ok_iff.1 h
  obtain ⟨shape, hshape, heq⟩ := Except.bind_eq_ok_iff.1 hs
  cases heq
  rw [ValueColumn.text_ofShape]
  apply Formula.composed_ofShape
  · exact fun text htext => .given (List.mem_append_left _ (Scope.texts_of_subset d o htext))
  · exact fun text htext => .given (List.mem_append_right _ (ColumnShape.texts_subset hshape htext))

/-! ### Clauses -/

section

variable (d : Descriptor) (o : Options)

theorem text_time (isNamed : Bool) :
    (Clause.time d o isNamed).text =
      match d.timeGroup with
      | some (.time interval fill) =>
        (if isNamed then "$__timeGroupAlias" else "$__timeGroup") ++
          parens (timeName d o ++ "," ++ interval ++
            match Query.unlessNone fill with
            | some mode => "," ++ mode
            | none => "")
      | _ => timeName d o ++ " AS time" := by
  apply String.toList_injective
  unfold Clause.time
  rcases d.timeGroup with - | (⟨interval, fill⟩ | name)
  · simp [Token.text, Keyword.text]
  · cases hfill : (Grouping.time interval fill).fillMode <;> cases isNamed <;>
      simp_all [Grouping.fillMode, parens, Token.text]
  · simp [Token.text, Keyword.text]

theorem composed_time (isNamed : Bool) :
    Composed (d.texts ++ o.texts) (Clause.time d o isNamed).text := by
  have htime : Composed (d.texts ++ o.texts) (timeName d o) := .given (timeName_mem_texts d o)
  have hplain : Composed (d.texts ++ o.texts) (timeName d o ++ " AS time") :=
    htime.append (.word (by decide))
  rw [text_time]
  cases hgroup : d.timeGroup with
  | none => exact hplain
  | some g =>
    have hg : ∀ text ∈ g.texts, Composed (d.texts ++ o.texts) text := fun text htext =>
      .given (List.mem_append_left _
        (Descriptor.texts_subset_of_group (List.mem_of_find?_eq_some hgroup) htext))
    cases g with
    | column name => exact hplain
    | time interval fill =>
      have hinterval : Composed (d.texts ++ o.texts) interval := hg _ List.mem_cons_self
      have hfill : Composed (d.texts ++ o.texts)
          (match Query.unlessNone fill with
            | some mode => "," ++ mode
            | none => "") := by
        cases hmode : Query.unlessNone fill with
        | none => exact .word (by decide)
        | some mode =>
          have hheld : fill = some mode := Descriptor.eq_some_of_unlessNone hmode
          exact .append (.word (by decide)) (hg mode (by simp [Grouping.texts, hheld]))
      refine .append ?_ (.parens (.append (.append (htime.append (.word (by decide))) hinterval) hfill))
      cases isNamed <;> exact .word (by decide)

variable {d} in
theorem text_metric {metric : String} (h : d.metric = some metric) :
    (Clause.metric d).text = metric ++ " AS metric" := by
  have hname : (Stream.of [.space, .keyword .naming, .space, .name "metric"]).text =
      " AS metric" := by decide
  rw [Clause.metric, Clause.metric?, h, Option.map_some, Option.getD_some, Stream.text_of_cons,
    hname]
  rfl

theorem composed_metric : Composed (d.texts ++ o.texts) (Clause.metric d).text := by
  cases hmetric : d.metric with
  | none =>
    rw [Clause.metric, Clause.metric?, hmetric]
    exact .word (by decide)
  | some metric =>
    rw [text_metric hmetric]
    exact .append (.given (List.mem_append_left _ (Descriptor.mem_texts_of_metric hmetric)))
      (.word (by decide))

theorem text_condition (c : Condition) :
    (Clause.condition d o c).text =
      match c with
      | .engine .time => "$__timeFilter" ++ parens (timeName d o)
      | .expression left op right => left ++ " " ++ op ++ " " ++ right := by
  apply String.toList_injective
  rcases c with (_ | _) | _ <;> simp [Clause.condition, parens, Token.text]

theorem text_conditions_intercalate :
    (Clause.conditions d o).text =
      if d.conditions = [] then ""
      else "\nWHERE\n  " ++
        " AND\n  ".intercalate (d.conditions.map fun c => (Clause.condition d o c).text) := by
  have hlead : (Stream.of [.newline, .keyword .filter, .newline, .indent 1]).text =
      "\nWHERE\n  " := by decide
  have hseparator : (Stream.of [.space, .keyword .conjunction, .newline, .indent 1]).text =
      " AND\n  " := by decide
  unfold Clause.conditions
  cases d.conditions with
  | nil => rfl
  | cons c conditions =>
    rw [if_neg (by simp), if_neg (by simp), Stream.text_join, hlead, hseparator, List.map_map]
    rfl

theorem composed_condition {c : Condition} (hc : c ∈ d.conditions) :
    Composed (d.texts ++ o.texts) (Clause.condition d o c).text := by
  rw [text_condition]
  cases c with
  | engine filter =>
    cases filter
    exact .append (.word (by decide)) (.parens (.given (timeName_mem_texts d o)))
  | expression left op right =>
    have hmem : ∀ text ∈ (Condition.expression left op right).texts,
        Composed (d.texts ++ o.texts) text := fun text htext =>
      .given (List.mem_append_left _ (Descriptor.texts_subset_of_conditions hc htext))
    simp only [Condition.texts, List.forall_mem_cons] at hmem
    obtain ⟨hleft, hop, hright, -⟩ := hmem
    apply_rules only [hleft, hop, hright, Composed.append] <;> exact .word (by decide)

theorem composed_table : Composed (d.texts ++ o.texts) (Clause.table d o).text := by
  have htable : Composed (d.texts ++ o.texts) d.table := .given (by simp [Descriptor.texts])
  have hdataset : Composed (d.texts ++ o.texts) (d.dataset.getD o.datasetPlaceholder) := by
    cases h : d.dataset with
    | none => exact .given (by simp [Options.texts])
    | some dataset => exact .given (by simp [Descriptor.texts, h])
  rw [Statement.text_table]
  exact .append (.append hdataset (.word (by decide))) htable

end

end Compile

end SeriesQuery
