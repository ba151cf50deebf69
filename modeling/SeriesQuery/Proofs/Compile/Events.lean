import SeriesQuery.Compile.Render
import SeriesQuery.Proofs.Compile.Statement

/-!
# What compiling reports

The start of the statement and its time column are reported first, then each value column up to the
first that has no shape. What comes after the value columns is only reported for a statement that
is complete, the size of its text last.
-/

namespace SeriesQuery

/-- An event as it is seen from outside: a span with its name or an event with its message, and the
fields of either. -/
inductive Event.Record where
  | span (name : String) (fields : List (String × FieldValue))
  | event (message : String) (fields : List (String × FieldValue))
  deriving DecidableEq, Repr

def Event.record (e : Event) : Event.Record :=
  if e.isSpan then .span e.title e.fields else .event e.title e.fields

namespace Compile

open Query (Descriptor ColumnSpec)
open Sql (Stream)

namespace Statement

/-- What is reported before the value columns. -/
def openingRecords (d : Descriptor) : List Event.Record :=
  [.span "build_query" [("table", .text d.table)], .event "time column" [("alias", .flag true)]]

def valueRecord (spec : ColumnSpec) : Event.Record :=
  .event "value column" [("parts", .count spec.length)]

/-- What is reported after the value columns of a statement with the given text. -/
def closingRecords (d : Descriptor) (o : Options) (sql : String) : List Event.Record :=
  (if d.dataset = none then
    [.event "dataset is unset, emitting placeholder"
      [("table", .text d.table), ("placeholder", .text o.datasetPlaceholder)]] else []) ++
  (if d.conditions = [] then []
    else [.event "where clause" [("conditions", .count d.conditions.length)]]) ++
  (if d.group = [] then []
    else [.event "group clause" [("parts", .count d.group.length)]]) ++
  [.event "compiled query"
    [("columns", .count d.select.length), ("bytes", .count sql.utf8ByteSize)]]

theorem records_values_cons_of_error (scope : Scope) (index : Nat) {spec : ColumnSpec}
    (specs : List ColumnSpec) {shape : ShapeFault} (h : valueColumn scope spec = .error shape) :
    (values scope index (spec :: specs)).run.events.map Event.record = [] := by
  rw [values, h]
  rfl

theorem records_values_cons_of_ok (scope : Scope) (index : Nat) {spec : ColumnSpec}
    (specs : List ColumnSpec) {s : Stream} (h : valueColumn scope spec = .ok s) :
    (values scope index (spec :: specs)).run.events.map Event.record =
      valueRecord spec :: (values scope (index + 1) specs).run.events.map Event.record := by
  rw [values, h]
  simp only [Traced.events_run_bind, Traced.events_run_lift, Traced.value_run_lift,
    List.map_append]
  cases (values scope (index + 1) specs).run.value with
  | ok rest => exact congrArg (valueRecord spec :: ·) (List.append_nil _)
  | error fault => exact congrArg (valueRecord spec :: ·) (List.append_nil _)

/-- Value columns that have a shape are reported one by one, ahead of what comes after them. -/
theorem records_values_append (scope : Scope) (index : Nat) {before : List ColumnSpec}
    (h : ∀ spec ∈ before, ∃ s, valueColumn scope spec = .ok s) (specs : List ColumnSpec) :
    (values scope index (before ++ specs)).run.events.map Event.record =
      before.map valueRecord ++
        (values scope (index + before.length) specs).run.events.map Event.record := by
  induction before generalizing index with
  | nil => rfl
  | cons spec before ih =>
    rw [List.forall_mem_cons] at h
    obtain ⟨⟨s, hs⟩, hbefore⟩ := h
    rw [List.cons_append, records_values_cons_of_ok scope index _ hs, ih (index + 1) hbefore,
      List.length_cons, Nat.add_right_comm, Nat.add_assoc]
    rfl

variable {d : Descriptor} {o : Options}

theorem records_of_error {fault : CompileFault} (h : compile d o = .error fault) :
    (compileTraced d o).events.map Event.record =
      openingRecords d ++ (values (Scope.of d o) 0 d.select).run.events.map Event.record := by
  rw [compile_eq, Except.map_eq_error_iff] at h
  unfold compileTraced build
  simp only [Traced.events_run_bind, Traced.events_run_lift, Traced.value_run_lift, h,
    List.append_nil]
  rfl

theorem records_emitIf (condition : Bool) (e : Event) :
    (Traced.emitIf condition e).events.map Event.record = if condition then [e.record] else [] := by
  cases condition <;> rfl

/-- The text whose size is reported is the text that comes out. -/
theorem records_of_ok {sql : String} (h : compile d o = .ok sql) :
    (compileTraced d o).events.map Event.record =
      openingRecords d ++ (values (Scope.of d o) 0 d.select).run.events.map Event.record ++
        closingRecords d o sql := by
  obtain ⟨columns, hcolumns, -⟩ := Except.map_eq_ok_iff.1 (compile_eq d o ▸ h)
  unfold compile compileTraced build at h
  unfold compileTraced build
  simp only [Traced.value_run_bind, Traced.value_run_lift, hcolumns, Except.bind] at h
  simp only [Traced.events_run_bind, Traced.events_run_lift, Traced.value_run_lift, hcolumns]
  have hsql := Except.ok.inj h
  rw [hsql]
  simp only [List.map_append, records_emitIf, Option.isNone_iff_eq_none, Bool.not_eq_true',
    List.isEmpty_eq_false_iff, ne_eq, ite_not, closingRecords, List.append_assoc]
  rfl

end Statement

open Statement

variable {d : Descriptor} {o : Options}

theorem exists_valueColumn_of_valueText {specs : List ColumnSpec}
    (h : ∀ spec ∈ specs, ∃ text, valueText d o spec = .ok text) :
    ∀ spec ∈ specs, ∃ s, valueColumn (Scope.of d o) spec = .ok s := by
  intro spec hspec
  obtain ⟨text, htext⟩ := h spec hspec
  obtain ⟨s, hs, -⟩ := valueText_eq_ok_iff.1 htext
  exact ⟨s, hs⟩

theorem records_of_all_valid (h : ∀ spec ∈ d.select, ∃ text, valueText d o spec = .ok text) :
    ∃ sql, compile d o = .ok sql ∧ (compileTraced d o).events.map Event.record =
      openingRecords d ++ d.select.map valueRecord ++ closingRecords d o sql := by
  obtain ⟨texts, htexts⟩ := exists_forall₂_valueText_iff.2 h
  have hcompile := compile_eq_ok_iff.2 ⟨texts, htexts, rfl⟩
  have hvalues := records_values_append (Scope.of d o) 0 (exists_valueColumn_of_valueText h) []
  rw [List.append_nil] at hvalues
  refine ⟨_, hcompile, ?_⟩
  rw [records_of_ok hcompile, hvalues]
  exact congrArg (openingRecords d ++ · ++ _) (List.append_nil _)

theorem records_of_first_invalid {before after : List ColumnSpec} {spec : ColumnSpec}
    (hselect : d.select = before ++ spec :: after)
    (hbefore : ∀ x ∈ before, ∃ text, valueText d o x = .ok text)
    (hspec : ∀ text, valueText d o spec ≠ .ok text) :
    (compileTraced d o).events.map Event.record =
      openingRecords d ++ before.map valueRecord := by
  cases hcompile : compile d o with
  | ok sql =>
    obtain ⟨texts, htexts, -⟩ := compile_eq_ok_iff.1 hcompile
    have hmem : spec ∈ d.select := hselect ▸ List.mem_append_right _ List.mem_cons_self
    obtain ⟨text, -, htext⟩ := htexts.exists_of_mem_left hmem
    exact absurd htext (hspec text)
  | error fault =>
    obtain ⟨shape, hshape⟩ : ∃ shape, valueColumn (Scope.of d o) spec = .error shape := by
      cases h : valueColumn (Scope.of d o) spec with
      | ok s => exact absurd (valueText_eq_ok_iff.2 ⟨s, h, rfl⟩) (hspec _)
      | error shape => exact ⟨shape, rfl⟩
    rw [records_of_error hcompile, hselect,
      records_values_append _ 0 (exists_valueColumn_of_valueText hbefore),
      records_values_cons_of_error _ _ _ hshape, List.append_nil]

end Compile

end SeriesQuery
