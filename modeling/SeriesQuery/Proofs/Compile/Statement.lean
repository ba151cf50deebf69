import Mathlib.Data.List.Forall2
import SeriesQuery.Compile.Statement
import SeriesQuery.Proofs.Outcome

/-!
# The text of a statement, and where compiling stops

A statement is built as one stream of tokens. Its text is nevertheless that of the clauses and the
value columns taken one by one, and compiling fails exactly where the first value column fails.
-/

namespace SeriesQuery.Compile

open Query (Descriptor ColumnSpec)
open Sql (Stream)

namespace Statement

/-- The clauses of a statement around the text of its value columns. -/
def framed (d : Descriptor) (o : Options) (columns : String) : String :=
  "#standardSQL\nSELECT\n " ++ (Clause.time d o true).text ++
    (if d.metric.isSome then ",\n  " ++ (Clause.metric d).text else "") ++ columns ++
    "\nFROM " ++ (d.dataset.getD o.datasetPlaceholder ++ "." ++ d.table) ++
    (Clause.conditions d o).text ++ (Clause.group d).text ++ (Clause.order d).text

/-- A statement with the given texts of its value columns. -/
def layout (d : Descriptor) (o : Options) (values : List String) : String :=
  framed d o (String.join (values.map fun value => ",\n  " ++ value))

theorem text_item (s : Stream) : (item s).text = ",\n  " ++ s.text := by
  have hlead : (Stream.of [.comma, .newline, .indent 1]).text = ",\n  " := by decide
  rw [item, Stream.text_append, hlead]

theorem text_table (d : Descriptor) (o : Options) :
    (Clause.table d o).text = d.dataset.getD o.datasetPlaceholder ++ "." ++ d.table := by
  cases h : d.dataset <;> simp [Clause.table, h, Sql.Token.text, String.append_assoc]

theorem text_head :
    (Stream.of [.dialect, .newline, .keyword .select, .newline, .space]).text =
      "#standardSQL\nSELECT\n " := by decide

theorem text_source :
    (Stream.of [.newline, .keyword .source, .space]).text = "\nFROM " := by decide

/-- The value columns decide whether there is a statement; the clauses around them never fail. -/
theorem compile_eq (d : Descriptor) (o : Options) :
    compile d o = (values (Scope.of d o) 0 d.select).run.value.map fun columns =>
      framed d o columns.text := by
  unfold compile compileTraced build
  simp only [Traced.value_run_bind, Traced.value_run_lift, Except.bind, ExceptT.run_pure,
    Traced.value_pure]
  cases (values (Scope.of d o) 0 d.select).run.value with
  | error fault => rfl
  | ok columns =>
    simp only [Except.map, Except.ok.injEq, Stream.text_append]
    rw [text_head, text_source, text_table]
    unfold framed
    cases hm : d.metric with
    | none =>
      have hs : Clause.metric? d = none := by rw [Clause.metric?, hm, Option.map_none]
      rw [hs]
      rfl
    | some name =>
      have hs : Clause.metric? d = some (Clause.metric d) := by
        rw [Clause.metric, Clause.metric?, hm, Option.map_some, Option.getD_some]
      rw [hs, text_item]
      rfl

section

variable (scope : Scope)

/-! The value columns are looked at in order, each with its index. -/

theorem values_nil (index : Nat) : (values scope index []).run.value = .ok .empty := rfl

theorem values_cons_of_error (index : Nat) {spec : ColumnSpec} (specs : List ColumnSpec)
    {shape : ShapeFault} (h : valueColumn scope spec = .error shape) :
    (values scope index (spec :: specs)).run.value = .error (.invalidSelect index shape) := by
  rw [values, h]
  rfl

theorem values_cons_of_ok (index : Nat) {spec : ColumnSpec} (specs : List ColumnSpec)
    {s : Stream} (h : valueColumn scope spec = .ok s) :
    (values scope index (spec :: specs)).run.value =
      (values scope (index + 1) specs).run.value.map fun rest => item s ++ rest := by
  rw [values, h]
  simp only [Traced.value_run_bind, Traced.value_run_lift]
  cases (values scope (index + 1) specs).run.value <;> rfl

/-- The value columns come out exactly when each of them does, in their order. -/
theorem values_eq_ok_iff (index : Nat) (specs : List ColumnSpec) (columns : Stream) :
    (values scope index specs).run.value = .ok columns ↔
      ∃ streams, List.Forall₂ (fun spec s => valueColumn scope spec = .ok s) specs streams ∧
        streams.foldr (fun s rest => item s ++ rest) .empty = columns := by
  induction specs generalizing index columns with
  | nil => simp [values_nil]
  | cons spec specs ih =>
    cases h : valueColumn scope spec with
    | error shape => simp [values_cons_of_error scope index specs h, List.forall₂_cons_left_iff, h]
    | ok s =>
      rw [values_cons_of_ok scope index specs h, Except.map_eq_ok_iff]
      constructor
      · rintro ⟨rest, hrest, rfl⟩
        obtain ⟨streams, hstreams, rfl⟩ := (ih _ _).mp hrest
        exact ⟨s :: streams, .cons h hstreams, rfl⟩
      · rintro ⟨_, hstreams, rfl⟩
        cases hstreams with
        | cons hs hrest =>
          cases h.symm.trans hs
          exact ⟨_, (ih _ _).mpr ⟨_, hrest, rfl⟩, rfl⟩

/-- Where the value columns fail, the first one that fails gives the index and the shape. -/
theorem values_eq_error_iff (index : Nat) (specs : List ColumnSpec) (fault : CompileFault) :
    (values scope index specs).run.value = .error fault ↔
      ∃ i shape, fault = .invalidSelect (index + i) shape ∧
        (∃ spec, specs[i]? = some spec ∧ valueColumn scope spec = .error shape) ∧
        ∀ spec ∈ specs.take i, ∃ s, valueColumn scope spec = .ok s := by
  induction specs generalizing index with
  | nil => simp [values_nil]
  | cons spec specs ih =>
    cases h : valueColumn scope spec with
    | error shape =>
      rw [values_cons_of_error scope index specs h]
      constructor
      · rintro ⟨⟩
        exact ⟨0, shape, rfl, ⟨spec, rfl, h⟩, by simp⟩
      · rintro ⟨i, shape', rfl, ⟨spec', hspec, hshape⟩, hbefore⟩
        cases i with
        | zero =>
          cases hspec
          cases h.symm.trans hshape
          rfl
        | succ i => simp [h] at hbefore
    | ok s =>
      rw [values_cons_of_ok scope index specs h, Except.map_eq_error_iff, ih]
      constructor
      · rintro ⟨i, shape, rfl, hspec, hbefore⟩
        refine ⟨i + 1, shape, by rw [Nat.add_right_comm, Nat.add_assoc], hspec, ?_⟩
        simpa [h] using hbefore
      · rintro ⟨i, shape, rfl, ⟨spec', hspec, hshape⟩, hbefore⟩
        cases i with
        | zero =>
          cases hspec
          cases h.symm.trans hshape
        | succ i =>
          refine ⟨i, shape, by rw [Nat.add_right_comm, Nat.add_assoc], ⟨spec', hspec, hshape⟩, ?_⟩
          simpa [h] using hbefore

end

theorem text_foldr_item (streams : List Stream) :
    (streams.foldr (fun s rest => item s ++ rest) .empty).text =
      String.join ((streams.map Stream.text).map fun value => ",\n  " ++ value) := by
  induction streams with
  | nil => simp
  | cons s streams ih =>
    rw [List.foldr_cons, Stream.text_append, text_item, ih]
    simp

end Statement

section

variable {d : Descriptor} {o : Options} {spec : ColumnSpec}

theorem valueText_eq_ok_iff {text : String} :
    valueText d o spec = .ok text ↔
      ∃ s, valueColumn (Scope.of d o) spec = .ok s ∧ s.text = text := by
  cases h : valueColumn (Scope.of d o) spec <;> simp [valueText, h]

theorem valueText_eq_invalidShape_iff {shape : ShapeFault} :
    valueText d o spec = .error (.invalidShape shape) ↔
      valueColumn (Scope.of d o) spec = .error shape := by
  cases h : valueColumn (Scope.of d o) spec <;> simp [valueText, h]

theorem forall₂_valueText_iff {specs : List ColumnSpec} {texts : List String} :
    List.Forall₂ (fun spec text => valueText d o spec = .ok text) specs texts ↔
      ∃ streams, List.Forall₂ (fun spec s => valueColumn (Scope.of d o) spec = .ok s) specs streams ∧
        streams.map Stream.text = texts := by
  induction specs generalizing texts with
  | nil => simp [eq_comm]
  | cons spec specs ih =>
    rw [List.forall₂_cons_left_iff]
    constructor
    · rintro ⟨_, _, htext, hrest, rfl⟩
      obtain ⟨s, hs, rfl⟩ := valueText_eq_ok_iff.mp htext
      obtain ⟨streams, hstreams, rfl⟩ := ih.mp hrest
      exact ⟨s :: streams, .cons hs hstreams, rfl⟩
    · rintro ⟨_, hall, rfl⟩
      cases hall with
      | cons hs hrest =>
        exact ⟨_, _, valueText_eq_ok_iff.mpr ⟨_, hs, rfl⟩, ih.mpr ⟨_, hrest, rfl⟩, rfl⟩

/-- A query compiles to the layout of its clauses around the texts of its value columns. -/
theorem compile_eq_ok_iff {sql : String} :
    compile d o = .ok sql ↔
      ∃ texts, List.Forall₂ (fun spec text => valueText d o spec = .ok text) d.select texts ∧
        Statement.layout d o texts = sql := by
  rw [Statement.compile_eq, Except.map_eq_ok_iff]
  simp only [Statement.values_eq_ok_iff, forall₂_valueText_iff]
  constructor
  · rintro ⟨_, ⟨streams, hstreams, rfl⟩, rfl⟩
    exact ⟨_, ⟨streams, hstreams, rfl⟩, by rw [Statement.layout, Statement.text_foldr_item]⟩
  · rintro ⟨_, ⟨streams, hstreams, rfl⟩, rfl⟩
    exact ⟨_, ⟨streams, hstreams, rfl⟩, by rw [Statement.layout, Statement.text_foldr_item]⟩

/-- Compiling fails at the first value column that fails, with the same shape. -/
theorem compile_eq_error_iff {fault : CompileFault} :
    compile d o = .error fault ↔
      ∃ index shape, fault = .invalidSelect index shape ∧
        (∃ spec, d.select[index]? = some spec ∧
          valueText d o spec = .error (.invalidShape shape)) ∧
        ∀ spec ∈ d.select.take index, ∃ text, valueText d o spec = .ok text := by
  rw [Statement.compile_eq, Except.map_eq_error_iff, Statement.values_eq_error_iff]
  simp only [Nat.zero_add, valueText_eq_invalidShape_iff, valueText_eq_ok_iff]
  constructor
  · rintro ⟨i, shape, hfault, hspec, hbefore⟩
    refine ⟨i, shape, hfault, hspec, fun spec hmem => ?_⟩
    obtain ⟨s, hs⟩ := hbefore spec hmem
    exact ⟨s.text, s, hs, rfl⟩
  · rintro ⟨i, shape, hfault, hspec, hbefore⟩
    refine ⟨i, shape, hfault, hspec, fun spec hmem => ?_⟩
    obtain ⟨_, s, hs, _⟩ := hbefore spec hmem
    exact ⟨s, hs⟩

theorem exists_forall₂_valueText_iff {specs : List ColumnSpec} :
    (∃ texts, List.Forall₂ (fun spec text => valueText d o spec = .ok text) specs texts) ↔
      ∀ spec ∈ specs, ∃ text, valueText d o spec = .ok text :=
  List.Forall₂.exists_right_iff

end

/-- Compiling a query succeeds exactly when each of its value columns does, and then gives the
clauses and the value columns one after the other. Otherwise it reports the first value column that
fails, with its index and its own fault. -/
theorem compile_assembles_clauses (d : Descriptor) (o : Options) :
    ((∃ sql, compile d o = .ok sql) ↔ ∀ spec ∈ d.select, ∃ text, valueText d o spec = .ok text) ∧
    (∀ sql, compile d o = .ok sql ↔
      ∃ texts, List.Forall₂ (fun spec text => valueText d o spec = .ok text) d.select texts ∧
        sql = Statement.layout d o texts) ∧
    (∀ fault, compile d o = .error fault ↔
      ∃ index shape, fault = .invalidSelect index shape ∧
        (∃ spec, d.select[index]? = some spec ∧
          valueText d o spec = .error (.invalidShape shape)) ∧
        ∀ spec ∈ d.select.take index, ∃ text, valueText d o spec = .ok text) := by
  refine ⟨?_, fun sql => ?_, fun fault => compile_eq_error_iff⟩
  · rw [← exists_forall₂_valueText_iff]
    constructor
    · rintro ⟨sql, h⟩
      obtain ⟨texts, htexts, -⟩ := compile_eq_ok_iff.mp h
      exact ⟨texts, htexts⟩
    · rintro ⟨texts, htexts⟩
      exact ⟨_, compile_eq_ok_iff.mpr ⟨texts, htexts, rfl⟩⟩
  · rw [compile_eq_ok_iff]
    simp only [eq_comm]

end SeriesQuery.Compile
