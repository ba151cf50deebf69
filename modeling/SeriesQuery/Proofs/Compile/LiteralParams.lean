import SeriesQuery.Proofs.Compile.Texts
import SeriesQuery.Proofs.Query.ConditionParams

/-!
# Literals in conditions

A condition that compares with a number or a boolean has the text of what the literal was read as.
This need not be the literal as it was written: a number is written in one way only, and a number
that is no integer of 64 bits only as exactly as a double is read from it.
-/

namespace SeriesQuery.Compile

open Json (AwaitsValue Digits EndsNumber Literal Node NumberLiteral)
open Json.Node (Frame)
open Query (Condition Descriptor ReadAt TaggedPart Target)

/-- The condition in a text whose third parameter is a number or a boolean has the text of the value
that the literal is read as. It has the literal as it was written exactly when this is one that is
kept: a boolean, an integer of 64 bits, or the shortest decimal of the double that it is read as, in
the form in which doubles are written. -/
theorem literal_params_written_as_read {before after : List Char} {params : List Node}
    {part : Frame} {stack : List Frame} {l : Literal} {left op right : String}
    (hplace : AwaitsValue before (.array params :: part :: stack)) (hthird : params.length = 2)
    (hparams : part.Opens TaggedPart.reader.shape "params") (hafter : EndsNumber after)
    (hread : ReadAt (String.ofList (before ++ l.chars ++ after)) stack (.expression left op right))
    (d : Descriptor) (o : Options) :
    ∃ v, l.value? = some v ∧
      (Clause.condition d o (.expression left op right)).text =
        left ++ " " ++ op ++ " " ++ v.text ∧
      ((Clause.condition d o (.expression left op right)).text =
        left ++ " " ++ op ++ " " ++ String.ofList l.chars ↔ l.IsKept) := by
  obtain ⟨v, hv, rfl⟩ := Query.exists_value_of_awaitsValue hplace hthird hparams hafter hread
  refine ⟨v, hv, text_condition d o _, ?_⟩
  rw [text_condition, ← Literal.chars_value_eq_iff_isKept hv, String.append_right_inj,
    Json.Value.text, String.ofList_inj]

def comparingBefore : List Char :=
  "\x7b\"table\":\"t\",\"where\":[\x7b\"type\":\"expression\",\"params\":[\"v\",\">\",".toList

/-- A query whose condition compares with a literal. -/
def comparing (l : Literal) : String :=
  String.ofList (comparingBefore ++ l.chars ++ "]\x7d]\x7d".toList)

/-- The query with the text of the value instead. -/
def comparingWith (right : String) : Descriptor :=
  { Descriptor.new "t" with
    select := [[.column "value"]], conditions := [.expression "v" ">" right] }

/-- The decimal `0.25`. -/
def quarter : Literal := .number ⟨false, 0, some (.ofNat 25), none⟩

/-- The decimal `2.50`. -/
def paddedHalf : Literal := .number ⟨false, 2, some (.ofNat 50), none⟩

def largeInteger : Literal := .number ⟨false, 10 ^ 20 + 1, none, none⟩

theorem literal_params_written_as_read_of_decimals :
    Descriptor.ofText (comparing quarter) = .ok (comparingWith "0.25") ∧
    Descriptor.ofText (comparing paddedHalf) = .ok (comparingWith "2.5") ∧
    (Clause.condition (comparingWith "0.25") .default (.expression "v" ">" "0.25")).text =
      "v > 0.25" ∧
    (Clause.condition (comparingWith "2.5") .default (.expression "v" ">" "2.5")).text ≠
      "v > 2.50" := by
  have hquarter : Descriptor.ofText (comparing quarter) = .ok (comparingWith "0.25") := by
    decide +kernel
  have hpadded : Descriptor.ofText (comparing paddedHalf) = .ok (comparingWith "2.5") := by
    decide +kernel
  have hplace : AwaitsValue comparingBefore
      [.array [.string (some ">"), .string (some "v")],
        .member [(some "type", .string (some "expression"))] (some "params"), .array [],
        .member [(some "table", .string (some "t"))] (some "where")] := ⟨by decide +kernel, rfl⟩
  have hafter : EndsNumber "]\x7d]\x7d".toList := Json.endsNumber_cons (.inr (.inl rfl)) _
  obtain ⟨_, -, -, hkept⟩ := literal_params_written_as_read hplace rfl rfl hafter
    (.listed rfl hquarter rfl) (comparingWith "0.25") .default
  obtain ⟨_, -, -, hlost⟩ := literal_params_written_as_read hplace rfl rfl hafter
    (.listed rfl hpadded rfl) (comparingWith "2.5") .default
  refine ⟨hquarter, hpadded, hkept.2 ?_, fun h => ?_⟩
  · exact (NumberLiteral.isKept_iff_of_fraction rfl rfl).2
      ⟨⟨.inr (by decide +kernel), .inr (by decide +kernel), by decide +kernel⟩,
        .short ⟨by decide +kernel, by decide +kernel, by decide +kernel⟩⟩
  · have hplain := ((NumberLiteral.isKept_iff_of_fraction rfl rfl).1 (hlost.1 h)).1
    exact absurd hplain.noZeros (by decide +kernel)

/-- An integer beyond 64 bits is rounded, and the condition compares with another number. -/
theorem large_integer_rounded_in_condition :
    Descriptor.ofText (comparing largeInteger) = .ok (comparingWith "1e+20") ∧
      (Clause.conditions (comparingWith "1e+20") .default).text = "\nWHERE\n  v > 1e+20" ∧
      String.ofList largeInteger.chars = "100000000000000000001" ∧
      (Clause.conditions (comparingWith "1e+20") .default).text ≠
        "\nWHERE\n  v > 100000000000000000001" := by
  decide +kernel

end SeriesQuery.Compile
