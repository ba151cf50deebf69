import SeriesQuery.CommandLine.Run
import SeriesQuery.Proofs.Json.Nodes

/-!
# Reading targets

The targets of a file are read from the values that its text lists, each by itself. They can be
read exactly when the text is well formed and every one of these values can be read.
-/

namespace SeriesQuery

namespace Json

/-- The items of an array; any other value by itself. -/
def Value.listed : Value → List Value
  | .array items => items
  | value => [value]

theorem Value.listed_eq_singleton {value : Value} (h : ∀ items, value ≠ .array items) :
    value.listed = [value] := by
  cases value with
  | array items => exact absurd rfl (h items)
  | null | bool | number | string | object => rfl

end Json

namespace CommandLine

open Config (Host)
open Json (Value)
open Query (Descriptor ReadFault)

/-- A machine without variables, on which every file holds one text. -/
def hostHolding (text : String) : Host := ⟨fun _ => none, fun _ => .contents text.toUTF8⟩

theorem readText_hostHolding (text file : String) :
    ((hostHolding text).files file).readText = .ok text := by
  have hvalid : text.toUTF8.IsValidUTF8 := text.isValidUTF8
  have hread : String.fromUTF8? text.toUTF8 = some text := dif_pos hvalid
  simp only [hostHolding, Config.FileState.readText, hread]

theorem targetsOfText_eq_bind (text : String) :
    targetsOfText text =
      Json.readText Json.Node.readValue text >>= fun value =>
        value.listed.mapM Descriptor.ofJson := by
  unfold targetsOfText
  congr 1
  funext value
  cases value with
  | array items => rfl
  | null | bool | number | string | object =>
    rw [Value.listed, List.mapM_cons, List.mapM_nil]
    · rfl
    · exact fun _ => Value.noConfusion

theorem targetsOfText_eq_ok_iff {text : String} {targets : List Descriptor} :
    targetsOfText text = .ok targets ↔
      ∃ value, Value.ofText? text = some value ∧
        List.Forall₂ (fun v d => Descriptor.ofJson v = .ok d) value.listed targets := by
  simp only [targetsOfText_eq_bind, Except.bind_eq_ok_iff, Except.mapM_eq_ok_iff,
    Value.ofText?_eq_some_iff Query.PartFault]

section

variable {host : Host} {file text : String}

theorem readTargets_eq_ok_iff (htext : (host.files file).readText = .ok text)
    {targets : List Descriptor} :
    readTargets host file = .ok targets ↔ targetsOfText text = .ok targets := by
  unfold readTargets
  rw [htext]
  cases h : targetsOfText text <;> simp [h]

/-- A file can be read when its text is well formed and every value it lists can be read. -/
theorem exists_readTargets_iff (htext : (host.files file).readText = .ok text) :
    (∃ targets, readTargets host file = .ok targets) ↔
      ∃ value, Value.ofText? text = some value ∧
        ∀ v ∈ value.listed, ∃ d, Descriptor.ofJson v = .ok d := by
  simp only [readTargets_eq_ok_iff htext, targetsOfText_eq_ok_iff]
  rw [exists_comm]
  simp only [exists_and_left, List.Forall₂.exists_right_iff]

end

end CommandLine

end SeriesQuery
