import SeriesQuery.Proofs.Compile.Shape
import SeriesQuery.Proofs.Compile.Statement

/-!
# Placeholders

A placeholder acts as the value that is missing: a query with the placeholders put in for its time
column and its dataset compiles as the query without them, and no placeholder shows where the query
sets everything. The same goes for the size of moving windows, whose placeholder may be a number.
-/

namespace SeriesQuery

open Compile (Options)

namespace Query

/-- The part with a size for a moving window that has none. -/
def ColumnPart.withRows (n : UInt32) : ColumnPart → ColumnPart
  | .movingWindow function none => .movingWindow function (some n)
  | part => part

def ColumnSpec.withRows (n : UInt32) (spec : ColumnSpec) : ColumnSpec :=
  spec.map (ColumnPart.withRows n)

/-- Whether some moving window of a value column has no size. -/
def ColumnSpec.LeavesRowsOpen (spec : ColumnSpec) : Prop :=
  ∃ function, ColumnPart.movingWindow function none ∈ spec

namespace Descriptor

def withRows (n : UInt32) (d : Descriptor) : Descriptor :=
  { d with select := d.select.map (ColumnSpec.withRows n) }

def LeavesRowsOpen (d : Descriptor) : Prop := ∃ spec ∈ d.select, spec.LeavesRowsOpen

/-- The query with placeholders put in for the time column and the dataset where they are unset. -/
def withPlaceholders (d : Descriptor) (o : Options) : Descriptor :=
  { d with
    timeColumn := d.timeColumn.or (some o.timePlaceholder)
    dataset := d.dataset.or (some o.datasetPlaceholder) }

theorem withPlaceholders_of_isSome {d : Descriptor} (htime : d.timeColumn.isSome)
    (hdataset : d.dataset.isSome) (o : Options) : d.withPlaceholders o = d := by
  rw [withPlaceholders, Option.or_of_isSome htime, Option.or_of_isSome hdataset]

end Descriptor

end Query

namespace Compile

open Query (ColumnPart ColumnSpec Descriptor)
open Sql (Stream)

/-! ### Two runs through the value columns -/

/-- Value columns with pairwise the same texts or faults are together the same text, or fail at the
same one. -/
theorem Statement.text_values_congr {scope scope' : Scope} {specs specs' : List ColumnSpec}
    (h : List.Forall₂ (fun spec spec' =>
      (valueColumn scope spec).map Stream.text = (valueColumn scope' spec').map Stream.text)
      specs specs') (index : Nat) :
    (values scope index specs).run.value.map Stream.text =
      (values scope' index specs').run.value.map Stream.text := by
  induction h generalizing index with
  | nil => rfl
  | @cons spec spec' specs specs' hspec _ ih =>
    cases hv : valueColumn scope spec with
    | error shape =>
      rw [hv] at hspec
      have hv' : valueColumn scope' spec' = .error shape := Except.map_eq_error_iff.1 hspec.symm
      rw [values_cons_of_error scope index specs hv, values_cons_of_error scope' index specs' hv']
    | ok s =>
      rw [hv] at hspec
      obtain ⟨s', hv', htext⟩ := Except.map_eq_ok_iff.1 hspec.symm
      have hrest := ih (index + 1)
      rw [values_cons_of_ok scope index specs hv, values_cons_of_ok scope' index specs' hv']
      cases hr : (values scope (index + 1) specs).run.value with
      | error fault =>
        rw [hr] at hrest
        rw [Except.map_eq_error_iff.1 hrest.symm]
        rfl
      | ok rest =>
        rw [hr] at hrest
        obtain ⟨rest', hr', hresttext⟩ := Except.map_eq_ok_iff.1 hrest.symm
        simp only [hr', Except.map, Stream.text_append, text_item, htext, hresttext]

theorem compile_congr {d d' : Descriptor} {o o' : Options}
    (hframed : Statement.framed d o = Statement.framed d' o')
    (hvalues : List.Forall₂ (fun spec spec' =>
      (valueColumn (Scope.of d o) spec).map Stream.text =
        (valueColumn (Scope.of d' o') spec').map Stream.text) d.select d'.select) :
    compile d o = compile d' o' := by
  have hmap {x : Except CompileFault Stream} {f : String → String} :
      (x.map fun columns => f columns.text) = (x.map Stream.text).map f := by cases x <;> rfl
  rw [Statement.compile_eq, Statement.compile_eq, hmap, hmap, hframed,
    Statement.text_values_congr hvalues 0]

/-! ### Time column and dataset -/

section

variable (d : Descriptor) (o o' : Options)

theorem timeName_withPlaceholders : timeName (d.withPlaceholders o) o' = timeName d o := by
  cases h : d.timeColumn <;> simp [timeName, Descriptor.withPlaceholders, h]

/-- Every clause looks the time column up in the same way. -/
theorem Statement.framed_withPlaceholders :
    framed (d.withPlaceholders o) o' = framed d o := by
  have htime : Clause.time (d.withPlaceholders o) o' true = Clause.time d o true := by
    unfold Clause.time
    rw [timeName_withPlaceholders]
    rfl
  have hcondition : Clause.condition (d.withPlaceholders o) o' = Clause.condition d o := by
    funext c
    cases c with
    | engine filter => cases filter; simp only [Clause.condition, timeName_withPlaceholders]
    | expression left op right => rfl
  have hconditions : Clause.conditions (d.withPlaceholders o) o' = Clause.conditions d o := by
    unfold Clause.conditions
    rw [hcondition]
    rfl
  have hdataset : (d.withPlaceholders o).dataset.getD o'.datasetPlaceholder =
      d.dataset.getD o.datasetPlaceholder := by
    cases h : d.dataset <;> simp [Descriptor.withPlaceholders, h]
  funext columns
  unfold framed
  rw [htime, hconditions, hdataset]
  rfl

end

/-! ### Sizes of moving windows -/

theorem mem_of_window_eq {spec : ColumnSpec} {shape : ColumnShape} {function : String}
    {rows : Option UInt32} (h : ColumnShape.ofSpec spec = .ok shape)
    (hwindow : shape.window = some (.moving function rows)) :
    ColumnPart.movingWindow function rows ∈ spec := by
  obtain ⟨part, hpart, hof⟩ := (ColumnShape.window_eq_some_iff h).1 hwindow
  cases part <;> simp_all [windowOf?]

/-- The placeholder for a size is only looked at where a moving window has none. -/
theorem valueColumn_eq_of_not_leavesRowsOpen {spec : ColumnSpec} (hspec : ¬ spec.LeavesRowsOpen)
    (scope : Scope) (rowsPlaceholder : String) :
    valueColumn { scope with rowsPlaceholder } spec = valueColumn scope spec := by
  cases hshape : ColumnShape.ofSpec spec with
  | error fault => rw [valueColumn, valueColumn, hshape, Except.error_bind, Except.error_bind]
  | ok shape =>
    rw [valueColumn, valueColumn, hshape, Except.ok_bind, Except.ok_bind]
    unfold ValueColumn.ofShape
    cases hwindow : shape.window with
    | none => rfl
    | some window =>
      cases window with
      | lag kind => rfl
      | moving function rows =>
        cases rows with
        | none => exact absurd ⟨function, mem_of_window_eq hshape hwindow⟩ hspec
        | some n => rfl

section

/-! A size is put into the parts of a value column, into its draft and into its shape. -/

variable (n : UInt32)

def Window.withRows : Window → Window
  | .moving function none => .moving function (some n)
  | window => window

def ShapeDraft.withRows (draft : ShapeDraft) : ShapeDraft :=
  { draft with window := draft.window.map (Window.withRows n) }

def ColumnShape.withRows (shape : ColumnShape) : ColumnShape :=
  { shape with window := shape.window.map (Window.withRows n) }

theorem takeWindow_withRows (window : Window) (slot : Option Window) :
    takeWindow (window.withRows n) (slot.map (Window.withRows n)) =
      (takeWindow window slot).map (Option.map (Window.withRows n)) := by
  rcases slot with - | (_ | ⟨_, - | _⟩) <;> rcases window with _ | ⟨_, - | _⟩ <;> rfl

theorem ShapeDraft.add_withRows (draft : ShapeDraft) (part : ColumnPart) :
    (draft.withRows n).add (part.withRows n) = (draft.add part).map (withRows n) := by
  obtain ⟨column, label, reducer, window⟩ := draft
  have hwindow (given : Window) : (takeWindow (given.withRows n) (window.map (Window.withRows n)) >>=
      fun window => .ok (⟨column, label, reducer, window⟩ : ShapeDraft)) =
      (takeWindow given window >>= fun window => .ok ⟨column, label, reducer, window⟩).map
        (withRows n) := by
    rw [takeWindow_withRows]
    cases takeWindow given window <;> rfl
  cases part with
  | column name => cases column <;> rfl
  | label name => cases label <;> rfl
  | aggregate function => cases reducer <;> rfl
  | percentile function argument => cases reducer <;> rfl
  | window kind => exact hwindow (.lag kind)
  | movingWindow function rows =>
    cases rows with
    | none => exact hwindow (.moving function none)
    | some given => exact hwindow (.moving function (some given))

theorem ShapeDraft.addAll_withRows (draft : ShapeDraft) (parts : ColumnSpec) :
    (draft.withRows n).addAll (parts.withRows n) = (draft.addAll parts).map (withRows n) := by
  induction parts generalizing draft with
  | nil => rfl
  | cons part parts ih =>
    change (draft.withRows n).add (part.withRows n) >>= _ = (draft.add part >>= _).map _
    rw [add_withRows]
    cases draft.add part with
    | error fault => rfl
    | ok next => exact ih next

theorem ColumnShape.ofSpec_withRows (spec : ColumnSpec) :
    ofSpec (spec.withRows n) = (ofSpec spec).map (withRows n) := by
  have hdraft := ShapeDraft.addAll_withRows n .empty spec
  change ShapeDraft.empty.addAll (spec.withRows n) = _ at hdraft
  rw [ofSpec, ofSpec, hdraft]
  cases ShapeDraft.empty.addAll spec with
  | error fault => rfl
  | ok draft =>
    obtain ⟨column, label, reducer, window⟩ := draft
    cases column <;> rfl

end

section

variable {scope : Scope} {n : UInt32} (h : scope.rowsPlaceholder = toString n.toNat)
include h

theorem text_moving_withRows (value : Stream) (function : String) :
    (ValueColumn.moving scope value function (some n)).text =
      (ValueColumn.moving scope value function none).text := by
  have htoken : (ValueColumn.rowsToken scope (some n)).text =
      (ValueColumn.rowsToken scope none).text := h.symm
  simp only [ValueColumn.moving, Stream.text_append, Stream.text_of_cons, htoken]

/-- A placeholder that is a number in decimal gives the text that the number gives. -/
theorem text_ofShape_withRows (shape : ColumnShape) :
    (ValueColumn.ofShape scope (shape.withRows n)).text =
      (ValueColumn.ofShape scope shape).text := by
  obtain ⟨column, label, reducer, window⟩ := shape
  rcases window with - | (kind | ⟨function, - | rows⟩)
  · rfl
  · rfl
  · cases label <;>
      simp only [ValueColumn.ofShape, ColumnShape.withRows, Option.map_some, Window.withRows,
        ValueColumn.windowed, ValueColumn.named, ValueColumn.outputName, Option.isSome_some,
        Bool.or_true, if_true, Stream.text_append, text_moving_withRows h] <;> rfl
  · rfl

theorem text_valueColumn_withRows (spec : ColumnSpec) :
    (valueColumn scope (spec.withRows n)).map Stream.text =
      (valueColumn scope spec).map Stream.text := by
  rw [valueColumn, valueColumn, ColumnShape.ofSpec_withRows]
  cases ColumnShape.ofSpec spec with
  | error fault => rfl
  | ok shape => exact congrArg Except.ok (text_ofShape_withRows h shape)

end

/-! ### Placeholders and values -/

theorem compile_withPlaceholders (d : Descriptor) {o o' : Options}
    (h : o'.rowsPlaceholder = o.rowsPlaceholder ∨ ¬ d.LeavesRowsOpen) :
    compile (d.withPlaceholders o) o' = compile d o := by
  apply compile_congr (Statement.framed_withPlaceholders d o o')
  have hscope : Scope.of (d.withPlaceholders o) o' =
      { Scope.of d o with rowsPlaceholder := o'.rowsPlaceholder } := by
    rw [Scope.of, timeName_withPlaceholders]
    rfl
  change List.Forall₂ _ d.select d.select
  rw [List.forall₂_same, hscope]
  intro spec hspec
  rcases h with hrows | hclosed
  · rw [hrows]
    rfl
  · rw [valueColumn_eq_of_not_leavesRowsOpen fun hopen => hclosed ⟨spec, hspec, hopen⟩]

/-- A query compiles as it does with the placeholders put in for its time column and its dataset,
under any placeholders with the same one for sizes, and under any placeholders at all when no moving
window lacks its size. A placeholder for sizes that is a number in decimal acts as this number. So
a query that lacks nothing compiles in one way under all placeholders. -/
theorem compile_placeholders_act_as_values (d : Descriptor) (o : Options) :
    (∀ o', o'.rowsPlaceholder = o.rowsPlaceholder → compile (d.withPlaceholders o) o' = compile d o) ∧
    (¬ d.LeavesRowsOpen → ∀ o', compile (d.withPlaceholders o) o' = compile d o) ∧
    (∀ n : UInt32, o.rowsPlaceholder = toString n.toNat → compile (d.withRows n) o = compile d o) ∧
    (d.timeColumn.isSome → d.dataset.isSome → ¬ d.LeavesRowsOpen →
      ∀ o', compile d o' = compile d o) := by
  refine ⟨fun o' hrows => compile_withPlaceholders d (.inl hrows),
    fun hclosed o' => compile_withPlaceholders d (.inr hclosed), ?_, ?_⟩
  · intro n hn
    refine compile_congr rfl ?_
    change List.Forall₂ _ (d.select.map (ColumnSpec.withRows n)) d.select
    rw [List.forall₂_map_left_iff, List.forall₂_same]
    intro spec _
    have hscope : (Scope.of d o).rowsPlaceholder = toString n.toNat := hn
    exact text_valueColumn_withRows hscope spec
  · intro htime hdataset hclosed o'
    have hfilled : compile (d.withPlaceholders o) o' = compile d o :=
      compile_withPlaceholders d (.inr hclosed)
    rwa [Descriptor.withPlaceholders_of_isSome htime hdataset] at hfilled

/-- A query that needs every placeholder, first as it is, then with a size for its moving window,
and then with its time column and its dataset as well. -/
theorem compile_placeholders_act_as_values_of_rate_and_average :
    let d : Descriptor := { Descriptor.new "t" with
      select := [[.column "v", .aggregate "first", .window .rate],
        [.column "w", .movingWindow "avg" none]]
      conditions := [.engine .time], group := [.time "1h" none] }
    let o : Options := ⟨"ts", "ds", "3"⟩
    let sized := d.withRows 3
    let filled := sized.withPlaceholders o
    compile (d.withPlaceholders o) ⟨"", "", "3"⟩ = compile d o ∧
      ¬ sized.LeavesRowsOpen ∧ compile filled .default = compile sized o ∧
      o.rowsPlaceholder = toString (3 : UInt32).toNat ∧ compile sized o = compile d o ∧
      filled.timeColumn.isSome ∧ filled.dataset.isSome ∧ ¬ filled.LeavesRowsOpen ∧
      compile filled .default = compile filled o := by
  intro d o sized filled
  have hsized : ¬ sized.LeavesRowsOpen := by
    simp [sized, d, Descriptor.LeavesRowsOpen, ColumnSpec.LeavesRowsOpen, Descriptor.withRows,
      ColumnSpec.withRows, ColumnPart.withRows]
  exact ⟨(compile_placeholders_act_as_values d o).1 ⟨"", "", "3"⟩ rfl, hsized,
    (compile_placeholders_act_as_values sized o).2.1 hsized .default, rfl,
    (compile_placeholders_act_as_values d o).2.2.1 3 rfl, rfl, rfl, hsized,
    (compile_placeholders_act_as_values filled o).2.2.2 rfl rfl hsized .default⟩

end Compile

end SeriesQuery
