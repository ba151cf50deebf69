import Mathlib.Data.List.Basic
import SeriesQuery.Compile.ValueColumn
import SeriesQuery.Proofs.Outcome

/-!
# The roles of the parts of a value column

Sorting the parts of a value column into roles succeeds exactly when no role is taken twice and
there is a base column. The shape then holds what each role was given, so it does not depend on the
order of the parts.
-/

namespace SeriesQuery.Compile

open Query (ColumnPart ColumnSpec)

def columnOf? : ColumnPart → Option String
  | .column name => some name
  | _ => none

def labelOf? : ColumnPart → Option String
  | .label name => some name
  | _ => none

def reducerOf? : ColumnPart → Option Reducer
  | .aggregate function => some (.aggregate function)
  | .percentile function argument => some (.percentile function argument)
  | _ => none

def windowOf? : ColumnPart → Option Window
  | .window kind => some (.lag kind)
  | .movingWindow function rows => some (.moving function rows)
  | _ => none

theorem some_eq_iff_toList {α : Type} {value : α} {slot : Option α} :
    some value = slot ↔ slot.toList = [value] := by
  cases slot with
  | none => simp
  | some held => simpa using eq_comm

theorem takeOnce_eq_ok_iff {α : Type} {fault : ShapeFault} {value : α} {slot slot' : Option α} :
    takeOnce fault value slot = .ok slot' ↔ slot'.toList = slot.toList ++ [value] := by
  cases slot with
  | none => simp [takeOnce, some_eq_iff_toList]
  | some held => cases slot' <;> simp [takeOnce]

theorem takeWindow_eq_ok_iff {window : Window} {slot slot' : Option Window} :
    takeWindow window slot = .ok slot' ↔ slot'.toList = slot.toList ++ [window] := by
  cases slot with
  | none => simp [takeWindow, some_eq_iff_toList]
  | some held => cases held <;> cases window <;> cases slot' <;> simp [takeWindow]

/-- A list of one thing at most has no other order. -/
theorem eq_toList_of_perm {α : Type} {slot : Option α} {given given' : List α}
    (hp : given.Perm given') (h : slot.toList = given) : slot.toList = given' := by
  rw [← h] at hp
  cases slot with
  | none => exact (List.nil_perm.mp hp).symm
  | some held => exact List.singleton_perm.mp hp

namespace ShapeDraft

/-- A draft holds what another one holds and, in each role, what some parts give to it. As a role
holds one thing at most, no role is given to twice. -/
@[mk_iff]
structure Extends (d : ShapeDraft) (parts : List ColumnPart) (d' : ShapeDraft) : Prop where
  column : d'.column.toList = d.column.toList ++ parts.filterMap columnOf?
  label : d'.label.toList = d.label.toList ++ parts.filterMap labelOf?
  reducer : d'.reducer.toList = d.reducer.toList ++ parts.filterMap reducerOf?
  window : d'.window.toList = d.window.toList ++ parts.filterMap windowOf?

theorem toList_eq_toList_iff {α : Type} {slot slot' : Option α} :
    slot'.toList = slot.toList ↔ slot = slot' := by
  cases slot <;> cases slot' <;> simp [eq_comm]

theorem add_eq_ok_iff {d d' : ShapeDraft} {part : ColumnPart} :
    d.add part = .ok d' ↔ d.Extends [part] d' := by
  obtain ⟨column, label, reducer, window⟩ := d
  obtain ⟨column', label', reducer', window'⟩ := d'
  rw [extends_iff]
  cases part <;>
    simp [add, pure, Except.pure, Except.bind_eq_ok_iff, takeOnce_eq_ok_iff,
      takeWindow_eq_ok_iff, toList_eq_toList_iff, List.filterMap_cons, columnOf?, labelOf?, reducerOf?,
      windowOf?] <;>
    tauto

theorem exists_toList_eq_of_append {α : Type} {slot : Option α} {a b : List α}
    (h : slot.toList = a ++ b) : ∃ held : Option α, held.toList = a := by
  cases a with
  | nil => exact ⟨none, rfl⟩
  | cons value rest =>
    have hlen : (value :: rest ++ b).length ≤ 1 := by rw [← h]; cases slot <;> simp
    have hrest : rest = [] := by
      apply List.eq_nil_of_length_eq_zero
      simp only [List.length_append, List.length_cons] at hlen
      omega
    exact ⟨some value, by rw [hrest]; rfl⟩

/-- One role after a part and then the others: there is always something to hold in between. -/
theorem exists_toList_iff {α : Type} {slot slot' : Option α} {f : ColumnPart → Option α}
    {part : ColumnPart} {parts : List ColumnPart} :
    (∃ held : Option α, held.toList = slot.toList ++ [part].filterMap f ∧
        slot'.toList = held.toList ++ parts.filterMap f) ↔
      slot'.toList = slot.toList ++ (part :: parts).filterMap f := by
  have hsplit : slot.toList ++ (part :: parts).filterMap f =
      (slot.toList ++ [part].filterMap f) ++ parts.filterMap f := by
    rw [List.append_assoc, ← List.filterMap_append, List.singleton_append]
  rw [hsplit]
  constructor
  · rintro ⟨held, hheld, h⟩
    rw [h, hheld]
  · intro h
    obtain ⟨held, hheld⟩ := exists_toList_eq_of_append h
    exact ⟨held, hheld, by rw [hheld, h]⟩

theorem extends_cons_iff {d d' : ShapeDraft} {part : ColumnPart} {parts : List ColumnPart} :
    d.Extends (part :: parts) d' ↔ ∃ e, d.Extends [part] e ∧ e.Extends parts d' := by
  constructor
  · rintro ⟨hcolumn, hlabel, hreducer, hwindow⟩
    obtain ⟨column, hc, hc'⟩ := exists_toList_iff.mpr hcolumn
    obtain ⟨label, hl, hl'⟩ := exists_toList_iff.mpr hlabel
    obtain ⟨reducer, hr, hr'⟩ := exists_toList_iff.mpr hreducer
    obtain ⟨window, hw, hw'⟩ := exists_toList_iff.mpr hwindow
    exact ⟨⟨column, label, reducer, window⟩, ⟨hc, hl, hr, hw⟩, ⟨hc', hl', hr', hw'⟩⟩
  · rintro ⟨e, h, h'⟩
    exact ⟨exists_toList_iff.mp ⟨_, h.column, h'.column⟩,
      exists_toList_iff.mp ⟨_, h.label, h'.label⟩,
      exists_toList_iff.mp ⟨_, h.reducer, h'.reducer⟩,
      exists_toList_iff.mp ⟨_, h.window, h'.window⟩⟩

theorem addAll_eq_ok_iff {d d' : ShapeDraft} {parts : List ColumnPart} :
    d.addAll parts = .ok d' ↔ d.Extends parts d' := by
  induction parts generalizing d with
  | nil =>
    obtain ⟨column, label, reducer, window⟩ := d
    obtain ⟨column', label', reducer', window'⟩ := d'
    simp [addAll, extends_iff, toList_eq_toList_iff]
  | cons part parts ih =>
    rw [addAll, Except.bind_eq_ok_iff, extends_cons_iff]
    simp only [add_eq_ok_iff, ih]

theorem Extends.perm {d d' : ShapeDraft} {parts parts' : List ColumnPart}
    (hp : parts.Perm parts') (h : d.Extends parts d') : d.Extends parts' d' where
  column := eq_toList_of_perm ((hp.filterMap columnOf?).append_left _) h.column
  label := eq_toList_of_perm ((hp.filterMap labelOf?).append_left _) h.label
  reducer := eq_toList_of_perm ((hp.filterMap reducerOf?).append_left _) h.reducer
  window := eq_toList_of_perm ((hp.filterMap windowOf?).append_left _) h.window

end ShapeDraft

/-- A value column has a shape exactly when it has one base column and no role is taken twice. -/
theorem ColumnShape.ofSpec_eq_ok_iff {spec : ColumnSpec} {shape : ColumnShape} :
    ColumnShape.ofSpec spec = .ok shape ↔
      ShapeDraft.empty.Extends spec ⟨some shape.column, shape.label, shape.reducer, shape.window⟩ := by
  rw [ColumnShape.ofSpec, Except.bind_eq_ok_iff]
  simp only [ShapeDraft.addAll_eq_ok_iff]
  constructor
  · rintro ⟨⟨column, label, reducer, window⟩, h, hshape⟩
    cases column with
    | none => cases hshape
    | some column => cases hshape; exact h
  · intro h
    exact ⟨_, h, rfl⟩

/-- The window of a shape is the one that a part gives. -/
theorem ColumnShape.window_eq_some_iff {spec : ColumnSpec} {shape : ColumnShape} {window : Window}
    (h : ColumnShape.ofSpec spec = .ok shape) :
    shape.window = some window ↔ ∃ part ∈ spec, windowOf? part = some window := by
  have hgiven : shape.window.toList = spec.filterMap windowOf? := (ofSpec_eq_ok_iff.mp h).window
  rw [← List.mem_filterMap, ← hgiven, Option.mem_toList]

theorem ColumnShape.ofSpec_eq_ok_of_perm {spec spec' : ColumnSpec} {shape : ColumnShape}
    (hp : spec.Perm spec') (h : ColumnShape.ofSpec spec = .ok shape) :
    ColumnShape.ofSpec spec' = .ok shape :=
  ofSpec_eq_ok_iff.mpr ((ofSpec_eq_ok_iff.mp h).perm hp)

def Reducer.part : Reducer → ColumnPart
  | .aggregate function => .aggregate function
  | .percentile function argument => .percentile function argument

def Window.part : Window → ColumnPart
  | .lag kind => .window kind
  | .moving function rows => .movingWindow function rows

/-- The parts that give a shape, role by role. -/
def ColumnShape.parts (shape : ColumnShape) : ColumnSpec :=
  .column shape.column :: (shape.label.toList.map .label ++
    (shape.reducer.toList.map Reducer.part ++ shape.window.toList.map Window.part))

theorem perm_given (spec : ColumnSpec) :
    spec.Perm ((spec.filterMap columnOf?).map .column ++ ((spec.filterMap labelOf?).map .label ++
      ((spec.filterMap reducerOf?).map Reducer.part ++
        (spec.filterMap windowOf?).map Window.part))) := by
  induction spec with
  | nil => exact .nil
  | cons part spec ih =>
    -- The part goes past everything that is given to the roles before its own.
    have hlabel := (ih.cons part).trans List.perm_middle.symm
    rw [← List.append_assoc] at ih
    have hreducer := (ih.cons part).trans List.perm_middle.symm
    rw [← List.append_assoc] at ih
    have hwindow := (ih.cons part).trans List.perm_middle.symm
    cases part <;>
      simp_all [List.filterMap_cons, columnOf?, labelOf?, reducerOf?, windowOf?, Reducer.part,
        Window.part]

/-- The parts of a value column with a shape are those of the shape in some order. -/
theorem ColumnShape.ofSpec_eq_ok_iff_perm {spec : ColumnSpec} {shape : ColumnShape} :
    ColumnShape.ofSpec spec = .ok shape ↔ spec.Perm shape.parts := by
  constructor
  · intro h
    have hextends := ofSpec_eq_ok_iff.mp h
    have hcolumn : [shape.column] = spec.filterMap columnOf? := hextends.column
    have hlabel : shape.label.toList = spec.filterMap labelOf? := hextends.label
    have hreducer : shape.reducer.toList = spec.filterMap reducerOf? := hextends.reducer
    have hwindow : shape.window.toList = spec.filterMap windowOf? := hextends.window
    have hgiven := perm_given spec
    rwa [← hcolumn, ← hlabel, ← hreducer, ← hwindow] at hgiven
  · intro h
    refine ofSpec_eq_ok_of_perm h.symm (ofSpec_eq_ok_iff.mpr ?_)
    obtain ⟨column, label, reducer, window⟩ := shape
    rcases label with - | label <;> rcases reducer with - | (_ | _) <;>
      rcases window with - | (_ | _) <;> constructor <;> rfl

/-- The parts of a value column may stand in any order. -/
theorem valueColumn_eq_ok_iff_of_perm {scope : Scope} {spec spec' : ColumnSpec} {s : Sql.Stream}
    (hp : spec.Perm spec') : valueColumn scope spec = .ok s ↔ valueColumn scope spec' = .ok s := by
  simp only [valueColumn, Except.bind_eq_ok_iff]
  constructor
  · rintro ⟨shape, hshape, h⟩
    exact ⟨shape, ColumnShape.ofSpec_eq_ok_of_perm hp hshape, h⟩
  · rintro ⟨shape, hshape, h⟩
    exact ⟨shape, ColumnShape.ofSpec_eq_ok_of_perm hp.symm hshape, h⟩

end SeriesQuery.Compile
