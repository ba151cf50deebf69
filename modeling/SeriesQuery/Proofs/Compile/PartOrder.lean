import SeriesQuery.Proofs.Compile.Shape
import SeriesQuery.Proofs.Compile.Statement

/-!
# The order of the parts of a value column

Two queries whose value columns have the same parts, each in an order of its own, compile to the
same statement or fail at the same value column. Only the shape that is reported may differ, as the
first part whose role is taken may be another one.
-/

namespace SeriesQuery.Compile

open Query (Descriptor ColumnSpec)
open Sql (Stream)

/-- Two outcomes that differ at most in the shape reported for one and the same value column. -/
inductive SameUpToShape {α : Type} : Except CompileFault α → Except CompileFault α → Prop
  | ok (a : α) : SameUpToShape (.ok a) (.ok a)
  | error (index : Nat) (shape shape' : ShapeFault) :
    SameUpToShape (.error (.invalidSelect index shape)) (.error (.invalidSelect index shape'))

theorem SameUpToShape.map {α β : Type} (f : α → β) {x y : Except CompileFault α}
    (h : SameUpToShape x y) : SameUpToShape (x.map f) (y.map f) := by
  cases h with
  | ok a => exact .ok (f a)
  | error index shape shape' => exact .error index shape shape'

theorem exists_valueColumn_error_of_perm {scope : Scope} {spec spec' : ColumnSpec}
    {shape : ShapeFault} (hp : spec.Perm spec') (h : valueColumn scope spec = .error shape) :
    ∃ shape', valueColumn scope spec' = .error shape' := by
  cases h' : valueColumn scope spec' with
  | error shape' => exact ⟨shape', rfl⟩
  | ok s =>
    rw [← valueColumn_eq_ok_iff_of_perm hp, h] at h'
    cases h'

/-- Up to the first value column that fails the two agree, and there both fail. -/
theorem values_sameUpToShape (scope : Scope) (index : Nat) {specs specs' : List ColumnSpec}
    (h : List.Forall₂ List.Perm specs specs') :
    SameUpToShape (Statement.values scope index specs).run.value
      (Statement.values scope index specs').run.value := by
  induction h generalizing index with
  | nil => exact .ok _
  | @cons spec spec' specs specs' hp _ ih =>
    cases hv : valueColumn scope spec with
    | error shape =>
      obtain ⟨shape', hv'⟩ := exists_valueColumn_error_of_perm hp hv
      rw [Statement.values_cons_of_error scope index specs hv,
        Statement.values_cons_of_error scope index specs' hv']
      exact .error index shape shape'
    | ok s =>
      have hv' := (valueColumn_eq_ok_iff_of_perm hp).mp hv
      rw [Statement.values_cons_of_ok scope index specs hv,
        Statement.values_cons_of_ok scope index specs' hv']
      exact (ih (index + 1)).map _

/-- The order of the parts within each value column does not matter: neither to whether a query
compiles, nor to the statement, nor to the value column that is at fault, nor to the text of a value
column by itself. -/
theorem compile_part_order (d : Descriptor) (o : Options) (select : List ColumnSpec)
    (h : List.Forall₂ List.Perm d.select select) :
    SameUpToShape (compile d o) (compile { d with select := select } o) ∧
    ∀ spec spec', List.Perm spec spec' →
      ∀ text, valueText d o spec = .ok text ↔ valueText d o spec' = .ok text := by
  constructor
  · rw [Statement.compile_eq, Statement.compile_eq]
    exact (values_sameUpToShape (Scope.of d o) 0 h).map _
  · intro spec spec' hp text
    rw [valueText_eq_ok_iff, valueText_eq_ok_iff]
    simp only [valueColumn_eq_ok_iff_of_perm hp]

/-- The second value column is at fault in both orders, though not for the same shape. -/
theorem compile_part_order_of_second_column :
    let select : List ColumnSpec := [[.column "v", .aggregate "sum"],
      [.window .rate, .column "v", .movingWindow "avg" (some 3), .column "w"]]
    let select' : List ColumnSpec := [[.aggregate "sum", .column "v"],
      [.column "v", .column "w", .window .rate, .movingWindow "avg" (some 3)]]
    let d := { Descriptor.new "t" with select := select }
    List.Forall₂ List.Perm select select' ∧
      SameUpToShape (compile d .default) (compile { d with select := select' } .default) ∧
      compile d .default = .error (.invalidSelect 1 .conflictingWindows) ∧
      compile { d with select := select' } .default = .error (.invalidSelect 1 .multipleColumns) := by
  intro select select' d
  have hperm : List.Forall₂ List.Perm select select' := .cons (by decide) (.cons (by decide) .nil)
  exact ⟨hperm, (compile_part_order d .default select' hperm).1, rfl, rfl⟩

end SeriesQuery.Compile
