import Mathlib.Data.List.Nodup
import SeriesQuery.Proofs.Compile.Shape

/-!
# Which fault a value column has

Every part of a value column has a role. The parts are looked at in order, and the first one whose
role is taken decides the fault; only when all roles are distinct is a missing base column noticed.
-/

namespace SeriesQuery

namespace Query

inductive Role where
  | column
  | label
  | reducer
  | window
  deriving DecidableEq, Repr

def ColumnPart.role : ColumnPart → Role
  | .column _ => .column
  | .label _ => .label
  | .aggregate _ => .reducer
  | .percentile _ _ => .reducer
  | .window _ => .window
  | .movingWindow _ _ => .window

def ColumnPart.isMoving : ColumnPart → Bool
  | .movingWindow _ _ => true
  | _ => false

def ColumnSpec.roles (spec : ColumnSpec) : List Role := spec.map ColumnPart.role

/-- Whether a part is the first one whose role is taken, and by which part before it. -/
def ColumnSpec.FirstRepeat (spec : ColumnSpec) (earlier part : ColumnPart) : Prop :=
  ∃ before after, spec = before ++ part :: after ∧ (roles before).Nodup ∧
    earlier ∈ before ∧ earlier.role = part.role

end Query

namespace Compile

open Query (ColumnPart ColumnSpec Role)

/-- The fault of a part whose role is taken by an earlier one. Windows conflict unless both are of
one kind. -/
def repeatFault (earlier part : ColumnPart) : ShapeFault :=
  match part.role with
  | .column => .multipleColumns
  | .label => .multipleLabels
  | .reducer => .multipleReducers
  | .window => if earlier.isMoving = part.isMoving then .multipleWindows else .conflictingWindows

/-! ### One part after others -/

theorem takeOnce_eq_error_iff {α : Type} {fault fault' : ShapeFault} {value : α}
    {slot : Option α} :
    takeOnce fault value slot = .error fault' ↔ ∃ held, slot = some held ∧ fault = fault' := by
  cases slot <;> simp [takeOnce]

def Window.isMoving : Window → Bool
  | .lag _ => false
  | .moving _ _ => true

theorem takeWindow_eq_error_iff {window : Window} {slot : Option Window} {fault : ShapeFault} :
    takeWindow window slot = .error fault ↔ ∃ held, slot = some held ∧
      (if held.isMoving = window.isMoving then .multipleWindows else .conflictingWindows) = fault := by
  cases slot with
  | none => simp [takeWindow]
  | some held => cases held <;> cases window <;> simp [takeWindow, Window.isMoving]

/-- A slot holds what one of the parts gave to it. -/
theorem exists_held_iff {α : Type} {f : ColumnPart → Option α} {slot : Option α}
    {parts : ColumnSpec} (h : slot.toList = parts.filterMap f) {p : α → Prop} :
    (∃ held, slot = some held ∧ p held) ↔
      ∃ part ∈ parts, ∃ held, f part = some held ∧ p held := by
  have hheld (value : α) : slot = some value ↔ ∃ part ∈ parts, f part = some value := by
    rw [← List.mem_filterMap, ← h, Option.mem_toList]
  simp only [hheld]
  constructor
  · rintro ⟨held, ⟨part, hpart, hgiven⟩, hp⟩
    exact ⟨part, hpart, held, hgiven, hp⟩
  · rintro ⟨part, hpart, held, hgiven, hp⟩
    exact ⟨held, ⟨part, hpart, hgiven⟩, hp⟩

namespace ShapeDraft

/-- A part cannot be added exactly when an earlier one has its role. -/
theorem add_eq_error_iff {d : ShapeDraft} {before : ColumnSpec} (h : empty.Extends before d)
    {part : ColumnPart} {fault : ShapeFault} :
    d.add part = .error fault ↔
      ∃ earlier ∈ before, earlier.role = part.role ∧ repeatFault earlier part = fault := by
  have hcolumn : d.column.toList = before.filterMap columnOf? := h.column
  have hlabel : d.label.toList = before.filterMap labelOf? := h.label
  have hreducer : d.reducer.toList = before.filterMap reducerOf? := h.reducer
  have hwindow : d.window.toList = before.filterMap windowOf? := h.window
  cases part <;>
    simp only [add, pure, Except.pure, Except.bind_eq_error_iff, reduceCtorEq, and_false,
      exists_false, or_false, takeOnce_eq_error_iff, takeWindow_eq_error_iff,
      exists_held_iff hcolumn, exists_held_iff hlabel, exists_held_iff hreducer,
      exists_held_iff hwindow] <;>
    refine exists_congr fun earlier => and_congr_right fun _ => ?_ <;>
    cases earlier <;>
    simp [columnOf?, labelOf?, reducerOf?, windowOf?, ColumnPart.role, repeatFault,
      ColumnPart.isMoving, Window.isMoving]

/-- Adding parts fails at the first one that cannot be added. -/
theorem addAll_eq_error_iff {d : ShapeDraft} {parts : ColumnSpec} {fault : ShapeFault} :
    d.addAll parts = .error fault ↔ ∃ before part after, parts = before ++ part :: after ∧
      ∃ e, d.addAll before = .ok e ∧ e.add part = .error fault := by
  induction parts generalizing d with
  | nil => simp [addAll]
  | cons part parts ih =>
    cases hadd : d.add part with
    | error found =>
      rw [addAll, hadd, Except.error_bind]
      constructor
      · intro h
        exact ⟨[], part, parts, rfl, d, rfl, hadd.trans (by simpa using h)⟩
      · rintro ⟨before, part', after, hparts, e, hbefore, he⟩
        cases before with
        | nil =>
          cases hparts
          cases hbefore
          rw [← he, hadd]
        | cons first before =>
          cases hparts
          rw [addAll, hadd] at hbefore
          cases hbefore
    | ok next =>
      rw [addAll, hadd, Except.ok_bind, ih]
      constructor
      · rintro ⟨before, part', after, rfl, e, hbefore, he⟩
        exact ⟨part :: before, part', after, rfl, e, by rw [addAll, hadd]; exact hbefore, he⟩
      · rintro ⟨before, part', after, hparts, e, hbefore, he⟩
        cases before with
        | nil =>
          cases hparts
          cases hbefore
          cases hadd.symm.trans he
        | cons first before =>
          cases hparts
          rw [addAll, hadd] at hbefore
          exact ⟨before, part', after, rfl, e, hbefore, he⟩

/-! ### Parts with distinct roles -/

theorem length_filterMap_eq_count {α : Type} {f : ColumnPart → Option α} {role : Role}
    (hf : ∀ part, (f part).isSome ↔ part.role = role) (parts : ColumnSpec) :
    (parts.filterMap f).length = parts.roles.count role := by
  have hcount : parts.roles.count role = parts.countP fun part => (f part).isSome := by
    rw [ColumnSpec.roles, List.count, List.countP_map]
    refine List.countP_congr fun part _ => ?_
    rw [hf]
    simp
  rw [hcount, List.length_filterMap_eq_countP]

theorem length_given (parts : ColumnSpec) :
    (parts.filterMap columnOf?).length = parts.roles.count .column ∧
    (parts.filterMap labelOf?).length = parts.roles.count .label ∧
    (parts.filterMap reducerOf?).length = parts.roles.count .reducer ∧
    (parts.filterMap windowOf?).length = parts.roles.count .window := by
  refine ⟨length_filterMap_eq_count ?_ parts, length_filterMap_eq_count ?_ parts,
    length_filterMap_eq_count ?_ parts, length_filterMap_eq_count ?_ parts⟩ <;>
    intro part <;> cases part <;>
    simp [columnOf?, labelOf?, reducerOf?, windowOf?, ColumnPart.role]

theorem exists_toList_eq_iff {α : Type} {given : List α} :
    (∃ slot : Option α, slot.toList = given) ↔ given.length ≤ 1 := by
  constructor
  · rintro ⟨slot, rfl⟩
    cases slot <;> simp
  · intro h
    match given with
    | [] => exact ⟨none, rfl⟩
    | [value] => exact ⟨some value, rfl⟩

theorem exists_extends_iff {parts : ColumnSpec} :
    (∃ d, empty.Extends parts d) ↔ parts.roles.Nodup := by
  obtain ⟨hcolumn, hlabel, hreducer, hwindow⟩ := length_given parts
  rw [List.nodup_iff_count_le_one]
  constructor
  · rintro ⟨d, h⟩ role
    cases role with
    | column => rw [← hcolumn]; exact exists_toList_eq_iff.1 ⟨_, h.column⟩
    | label => rw [← hlabel]; exact exists_toList_eq_iff.1 ⟨_, h.label⟩
    | reducer => rw [← hreducer]; exact exists_toList_eq_iff.1 ⟨_, h.reducer⟩
    | window => rw [← hwindow]; exact exists_toList_eq_iff.1 ⟨_, h.window⟩
  · intro h
    obtain ⟨column, hc⟩ := exists_toList_eq_iff.2 (hcolumn ▸ h .column)
    obtain ⟨label, hl⟩ := exists_toList_eq_iff.2 (hlabel ▸ h .label)
    obtain ⟨reducer, hr⟩ := exists_toList_eq_iff.2 (hreducer ▸ h .reducer)
    obtain ⟨window, hw⟩ := exists_toList_eq_iff.2 (hwindow ▸ h .window)
    exact ⟨⟨column, label, reducer, window⟩, hc, hl, hr, hw⟩

end ShapeDraft

/-! ### The fault of a value column -/

theorem ColumnShape.ofSpec_eq_error_iff {spec : ColumnSpec} {fault : ShapeFault} :
    ofSpec spec = .error fault ↔ ShapeDraft.empty.addAll spec = .error fault ∨
      ∃ d, ShapeDraft.empty.Extends spec d ∧ d.column = none ∧ .missingColumn = fault := by
  rw [ofSpec, Except.bind_eq_error_iff]
  refine or_congr_right (exists_congr fun d => ?_)
  rw [ShapeDraft.addAll_eq_ok_iff, ShapeDraft.shape]
  cases d.column <;> simp

theorem addAll_eq_error_iff_firstRepeat {spec : ColumnSpec} {fault : ShapeFault} :
    ShapeDraft.empty.addAll spec = .error fault ↔
      ∃ earlier part, spec.FirstRepeat earlier part ∧ repeatFault earlier part = fault := by
  rw [ShapeDraft.addAll_eq_error_iff]
  constructor
  · rintro ⟨before, part, after, hspec, d, hbefore, hadd⟩
    have hextends := ShapeDraft.addAll_eq_ok_iff.1 hbefore
    obtain ⟨earlier, hmem, hrole, hfault⟩ := (ShapeDraft.add_eq_error_iff hextends).1 hadd
    have hnodup := ShapeDraft.exists_extends_iff.1 ⟨d, hextends⟩
    exact ⟨earlier, part, ⟨before, after, hspec, hnodup, hmem, hrole⟩, hfault⟩
  · rintro ⟨earlier, part, ⟨before, after, hspec, hnodup, hmem, hrole⟩, hfault⟩
    obtain ⟨d, hextends⟩ := ShapeDraft.exists_extends_iff.2 hnodup
    exact ⟨before, part, after, hspec, d, ShapeDraft.addAll_eq_ok_iff.2 hextends,
      (ShapeDraft.add_eq_error_iff hextends).2 ⟨earlier, hmem, hrole, hfault⟩⟩

theorem column_eq_none_iff {spec : ColumnSpec} {d : ShapeDraft}
    (h : ShapeDraft.empty.Extends spec d) : d.column = none ↔ .column ∉ spec.roles := by
  have hlength : d.column.toList.length = spec.roles.count .column := by
    rw [← (ShapeDraft.length_given spec).1, h.column]
    rfl
  rw [← List.count_eq_zero, ← hlength]
  cases d.column <;> simp

theorem ColumnShape.exists_ofSpec_eq_ok_iff {spec : ColumnSpec} :
    (∃ shape, ofSpec spec = .ok shape) ↔ spec.roles.Nodup ∧ .column ∈ spec.roles := by
  constructor
  · rintro ⟨shape, hshape⟩
    have hextends := ofSpec_eq_ok_iff.1 hshape
    refine ⟨ShapeDraft.exists_extends_iff.1 ⟨_, hextends⟩, Decidable.not_not.1 fun hmissing => ?_⟩
    cases (column_eq_none_iff hextends).2 hmissing
  · rintro ⟨hnodup, hcolumn⟩
    obtain ⟨⟨column, label, reducer, window⟩, hextends⟩ := ShapeDraft.exists_extends_iff.2 hnodup
    cases column with
    | none => exact absurd hcolumn ((column_eq_none_iff hextends).1 rfl)
    | some column => exact ⟨⟨column, label, reducer, window⟩, ofSpec_eq_ok_iff.2 hextends⟩

/-- The first part whose role is taken decides the fault of a value column. If there is none, then
the fault is a missing base column, or else there is a shape, made of these parts. So there is a
shape exactly when there is one base column and no more than one part in each other role. -/
theorem shape_decided_by_roles (spec : ColumnSpec) :
    (∀ fault, ColumnShape.ofSpec spec = .error fault ↔
      (∃ earlier part, spec.FirstRepeat earlier part ∧ repeatFault earlier part = fault) ∨
        (spec.roles.Nodup ∧ .column ∉ spec.roles ∧ .missingColumn = fault)) ∧
    ((∃ shape, ColumnShape.ofSpec spec = .ok shape) ↔
      spec.roles.count .column = 1 ∧ ∀ role, spec.roles.count role ≤ 1) ∧
    ∀ shape, ColumnShape.ofSpec spec = .ok shape ↔ spec.Perm shape.parts := by
  refine ⟨fun fault => ?_, ?_, fun shape => ColumnShape.ofSpec_eq_ok_iff_perm⟩
  · rw [ColumnShape.ofSpec_eq_error_iff, addAll_eq_error_iff_firstRepeat,
      ← ShapeDraft.exists_extends_iff]
    refine or_congr_right ⟨?_, ?_⟩
    · rintro ⟨d, hextends, hnone, hfault⟩
      exact ⟨⟨d, hextends⟩, (column_eq_none_iff hextends).1 hnone, hfault⟩
    · rintro ⟨⟨d, hextends⟩, hmissing, hfault⟩
      exact ⟨d, hextends, (column_eq_none_iff hextends).2 hmissing, hfault⟩
  · rw [ColumnShape.exists_ofSpec_eq_ok_iff, ← List.nodup_iff_count_le_one]
    constructor
    · rintro ⟨hnodup, hcolumn⟩
      exact ⟨List.count_eq_one_of_mem hnodup hcolumn, hnodup⟩
    · rintro ⟨hcount, hnodup⟩
      exact ⟨hnodup, List.count_pos_iff.1 (by omega)⟩

/-- Of two windows and a second base column, what stands first decides. -/
example (kind : Query.WindowKind) (function : String) (rows : Option UInt32) :
    ColumnShape.ofSpec [.window kind, .column "v", .movingWindow function rows, .column "w"] =
      .error .conflictingWindows := rfl

end Compile

end SeriesQuery
