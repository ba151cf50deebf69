import SeriesQuery.Proofs.Compile.Formula
import SeriesQuery.Proofs.Query.TaggedPart
import SeriesQuery.Proofs.Query.WindowSize

/-!
# Sizes of moving windows in formulas

However a size is given, the formula of a moving window has it in decimal without zeros in front,
and so has its JSON, from which the size is read back.
-/

namespace SeriesQuery

/-! ### Decimals -/

/-- The decimal digits of a number, without zeros in front. -/
structure IsDecimal (digits : List Char) (n : Nat) : Prop where
  nonempty : digits ≠ []
  isDigit : ∀ c ∈ digits, c.isDigit
  value : Nat.ofDigitChars 10 digits 0 = n
  unpadded : 1 < digits.length → digits.head? ≠ some '0'

theorem isDecimal_toDigits (n : Nat) : IsDecimal (Nat.toDigits 10 n) n where
  nonempty := Nat.toDigits_ne_nil
  isDigit _ hc := Nat.isDigit_of_mem_toDigits (by omega) (by omega) hc
  value := Nat.ofDigitChars_ten_toDigits
  unpadded hlength := by
    apply Text.head?_toDigits_ne_zero
    by_contra hn
    rw [Nat.toDigits_of_lt_base (by omega), List.length_singleton] at hlength
    omega

namespace Compile

open Json (Node Origin)
open Query (ColumnPart ColumnSpec Descriptor GivesSize TaggedPart)
open Text (parens)

/-! ### Formulas -/

variable {d : Descriptor} {o : Options} {spec : ColumnSpec} {shape : ColumnShape}

theorem valueText_of_window {window : Window} (hshape : ColumnShape.ofSpec spec = .ok shape)
    (hwindow : shape.window = some window) :
    valueText d o spec = .ok (Formula.windowed (Scope.of d o) shape.reducer.isSome
      (Formula.reduced (timeName d o) shape.column shape.reducer) window ++ " AS " ++
        shape.label.getD shape.column) := by
  rw [valueText_eq_ok_iff]
  refine ⟨ValueColumn.ofShape (Scope.of d o) shape, ?_, ?_⟩
  · rw [valueColumn, hshape]
    rfl
  · rw [ValueColumn.text_ofShape, Formula.ofShape, hwindow]
    rfl

/-- A size stands in the formula in decimal. -/
theorem exists_valueText_of_movingWindow {function : String} {n : UInt32}
    (hshape : ColumnShape.ofSpec spec = .ok shape)
    (hpart : .movingWindow function (some n) ∈ spec) :
    ∃ value digits, value = Formula.reduced (timeName d o) shape.column shape.reducer ∧
      IsDecimal digits n.toNat ∧
      valueText d o spec = .ok (value ++ " as tmpv, " ++ value ++ " as tmpv, " ++ function ++ "(" ++
        value ++ ") OVER (ORDER BY " ++ timeName d o ++ " ROWS " ++ String.ofList digits ++
        " PRECEDING) AS " ++ shape.label.getD shape.column) := by
  refine ⟨_, Nat.toDigits 10 n.toNat, rfl, isDecimal_toDigits _, ?_⟩
  have hwindow : shape.window = some (.moving function (some n)) :=
    (ColumnShape.window_eq_some_iff hshape).2 ⟨_, hpart, rfl⟩
  rw [valueText_of_window hshape hwindow]
  apply congrArg
  apply String.toList_injective
  simp [Formula.windowed, Formula.moving, Formula.order, Formula.rowCount, parens, Scope.of]

/-- A moving window is read with the size that its parameter gives, without one if it gives none,
and is refused with the text of any other parameter. Whatever the size, it stands in decimal without
zeros in front in the formula of each value column with the window, and is read back from its
JSON. -/
theorem sizes_read_exactly_and_written_in_decimal {origin : Origin} {node : Node} {p : TaggedPart}
    {function : String} (hread : TaggedPart.read origin node = .ok p)
    (hkind : p.kind = "moving_window") (hfunction : p.Holds 0 function) :
    (∀ part, ColumnPart.read origin node = .ok part ↔
      ∃ rows, GivesSize p.params[1]? rows ∧ part = .movingWindow function rows) ∧
    (∀ fault, ColumnPart.read origin node = .error fault ↔
      (∀ rows, ¬ GivesSize p.params[1]? rows) ∧
        ∃ text, p.Holds 1 text ∧ fault = .content (.invalidParam "moving_window" text)) ∧
    ∀ n : UInt32,
      (∀ (d : Descriptor) (o : Options) (spec : ColumnSpec) (shape : ColumnShape),
        ColumnShape.ofSpec spec = .ok shape → .movingWindow function (some n) ∈ spec →
        ∃ value digits, value = Formula.reduced (timeName d o) shape.column shape.reducer ∧
          IsDecimal digits n.toNat ∧
          valueText d o spec = .ok (value ++ " as tmpv, " ++ value ++ " as tmpv, " ++ function ++
            "(" ++ value ++ ") OVER (ORDER BY " ++ timeName d o ++ " ROWS " ++
            String.ofList digits ++ " PRECEDING) AS " ++ shape.label.getD shape.column)) ∧
      Json.readText ColumnPart.read (ColumnPart.movingWindow function (some n)).toJson.text =
        .ok (.movingWindow function (some n)) ∧
      Json.readFrom ColumnPart.read (ColumnPart.movingWindow function (some n)).toJson =
        .ok (.movingWindow function (some n)) := by
  refine ⟨fun part => ColumnPart.read_eq_ok_iff_givesSize hread hkind hfunction, fun fault => ?_,
    fun n => ⟨fun d o spec shape => exists_valueText_of_movingWindow, ?_⟩⟩
  · rw [ColumnPart.read_eq_error_iff_not_givesSize hread hkind hfunction, hkind]
  · have hback := (ColumnPart.movingWindow function (some n)).readsBack_toJson
    exact ⟨hback.readText_eq (by omega), hback.readFrom_eq⟩

/-- A moving average whose size is given by a value. -/
def averageOf (size : Json.Value) : TaggedPart := ⟨"moving_window", none, [.string "avg", size]⟩

theorem sizes_read_exactly_and_written_in_decimal_at_the_end_of_the_range :
    ColumnPart.read .value (Node.ofValue (averageOf (.string " +004294967295\u2003")).toJson) =
      .ok (.movingWindow "avg" (some 4294967295)) ∧
    ColumnPart.read .value (Node.ofValue (averageOf (.number (.integer 4294967296))).toJson) =
      .error (.content (.invalidParam "moving_window" "4294967296")) ∧
    ∃ digits, IsDecimal digits 4294967295 ∧
      valueText { Descriptor.new "cpu" with timeColumn := some "ts" } Options.default
        [.label "x", .movingWindow "avg" (some 4294967295), .column "v"] =
        .ok ("v as tmpv, v as tmpv, avg(v) OVER (ORDER BY ts ROWS " ++ String.ofList digits ++
          " PRECEDING) AS x") := by
  have hgiven : TaggedPart.read .value
      (Node.ofValue (averageOf (.string " +004294967295\u2003")).toJson) =
        .ok (averageOf (.string " +004294967295\u2003")) := rfl
  have hlarge : TaggedPart.read .value
      (Node.ofValue (averageOf (.number (.integer 4294967296))).toJson) =
        .ok (averageOf (.number (.integer 4294967296))) := rfl
  have h := sizes_read_exactly_and_written_in_decimal hgiven rfl ⟨_, rfl, .string "avg"⟩
  have h' := sizes_read_exactly_and_written_in_decimal hlarge rfl ⟨_, rfl, .string "avg"⟩
  refine ⟨?_, ?_, ?_⟩
  · have hspells : Query.RowCount.Spells " +004294967295\u2003" 4294967295 :=
      Query.RowCount.ofText?_eq_some_iff.1 (by decide)
    exact (h.1 _).2 ⟨_, .string hspells, rfl⟩
  · refine (h'.2.1 _).2 ⟨fun rows hsize => ?_, _, ⟨_, rfl, .json nofun nofun⟩, rfl⟩
    obtain ⟨n, hn⟩ := hsize.exists_eq_of_integer
    have hlt := n.toNat_lt
    omega
  · obtain ⟨value, digits, hvalue, hdigits, htext⟩ := (h.2.2 4294967295).1
      { Descriptor.new "cpu" with timeColumn := some "ts" } Options.default
      [.label "x", .movingWindow "avg" (some 4294967295), .column "v"]
      ⟨"v", some "x", none, some (.moving "avg" (some 4294967295))⟩ rfl (by simp)
    refine ⟨digits, hdigits, ?_⟩
    rw [htext, hvalue]
    apply congrArg
    apply String.toList_injective
    simp [Formula.reduced, timeName]

example : (averageOf (.number (.double ⟨false, 5 * 2 ^ 50, -50⟩))).toColumnPart =
    .error (.invalidParam "moving_window" "5.0") := by decide +kernel

end Compile

end SeriesQuery
