import SeriesQuery.Proofs.CommandLine.Targets
import SeriesQuery.Proofs.Json.Blanks
import SeriesQuery.Proofs.Query.ReadsAlike

/-!
# A file with one target

A text that is one target can be read at once, or from its value as the targets of a file are read.
Both ways give the same descriptor, so it depends on nothing that the value does not show: neither
on the order of the fields nor on the blanks between them.
-/

namespace SeriesQuery.CommandLine

open Config (Host)
open Json (Document Value unspaced)
open Query (Descriptor)

variable {host : Host} {file text : String} {value : Value}

theorem readTargets_eq_ok_iff_of_single (htext : (host.files file).readText = .ok text)
    (hvalue : Value.ofText? text = some value) (hsingle : ∀ items, value ≠ .array items)
    {targets : List Descriptor} :
    readTargets host file = .ok targets ↔ ∃ d, Descriptor.ofJson value = .ok d ∧ targets = [d] := by
  rw [readTargets_eq_ok_iff htext, targetsOfText_eq_ok_iff]
  simp only [hvalue, Option.some.injEq, exists_eq_left', Value.listed_eq_singleton hsingle,
    List.forall₂_cons_left_iff, List.forall₂_nil_left_iff, exists_and_left, exists_eq_left]

/-- The value of a text whose fields stand in another order. -/
theorem ofText?_eq_some_of_reordered {text' : String} (hvalue : Value.ofText? text = some value)
    (hkeys : (Document.ofText text).root.hasDistinctKeys) (hsound : (Document.ofText text').sound)
    (hmoved : (Document.ofText text).root.Reordered (Document.ofText text').root) :
    Value.ofText? text' = some value := by
  rw [Value.ofText?_eq_some_iff Empty, Json.readText_eq_ok_iff] at hvalue ⊢
  exact ⟨hsound, hmoved.readValue_eq hkeys hvalue.2⟩

/-- The text of a single target gives one descriptor, whether it is read at once or as the text of a
file. The fields may stand in any other order, with any other blanks between the tokens. -/
theorem single_target_readers_agree (htext : (host.files file).readText = .ok text)
    (hvalue : Value.ofText? text = some value) (hsingle : ∀ items, value ≠ .array items)
    (hkeys : (Document.ofText text).root.hasDistinctKeys) :
    (∀ targets, readTargets host file = .ok targets ↔
      ∃ d, Descriptor.ofText text = .ok d ∧ targets = [d]) ∧
    (∀ text', (Document.ofText text').sound →
      (Document.ofText text).root.Reordered (Document.ofText text').root →
      ∀ d, Descriptor.ofText text' = .ok d ↔ Descriptor.ofText text = .ok d) ∧
    ∀ text', (Document.ofText text').sound → unspaced text' = unspaced text →
      Descriptor.ofText text' = Descriptor.ofText text := by
  have hread (d : Descriptor) : Descriptor.ofText text = .ok d ↔ Descriptor.ofJson value = .ok d :=
    Descriptor.readsAlike.readText_eq_ok_iff hvalue hkeys
  refine ⟨fun targets => ?_, fun text' hsound hmoved d => ?_, fun text' hsound hblanks => ?_⟩
  · rw [readTargets_eq_ok_iff_of_single htext hvalue hsingle]
    simp only [hread]
  · have hvalue' := ofText?_eq_some_of_reordered hvalue hkeys hsound hmoved
    have hread' : Descriptor.ofText text' = .ok d ↔ Descriptor.ofJson value = .ok d :=
      Descriptor.readsAlike.readText_eq_ok_iff hvalue' (hmoved.hasDistinctKeys hkeys)
    rw [hread', hread]
  · have hsound' := (Json.readText_eq_ok_iff.1 ((Value.ofText?_eq_some_iff Empty).1 hvalue)).1
    have hdocument := Document.ofText_eq_of_unspaced_eq hsound' hsound hblanks
    simp only [Descriptor.ofText, Json.readText, hdocument]

/-- A target with a null, an unknown field, and a part that is written as an array. -/
def positionalFields : List (String × Value) :=
  [("timeColumn", .string "ts"), ("dataset", .null), ("table", .string "t"),
    ("note", .object [("b", .number (.integer 1)), ("a", .null)]),
    ("select", .array [.array [.array [.string "column", .null, .array [.string "v"]]]])]

/-- A text with a line break and a blank after every comma. -/
def brokenAfterCommas (cs : List Char) : String :=
  String.ofList (cs.flatMap fun c => if c = ',' then [c, '\n', ' '] else [c])

theorem single_target_readers_agree_of_positional :
    let v := Value.object positionalFields
    ∃ d, Descriptor.ofText v.text = .ok d ∧
      readTargets (hostHolding v.text) "q.json" = .ok [d] ∧
      Descriptor.ofText (Value.object positionalFields.reverse).text = .ok d ∧
      Descriptor.ofText (brokenAfterCommas v.chars) = .ok d := by
  intro v
  have hintegral : v.IsIntegral := by
    simp [v, positionalFields, Value.IsIntegral, Value.FieldsAreIntegral, Value.AreIntegral]
  have hintegral' : (Value.object positionalFields.reverse).IsIntegral := by
    simp [positionalFields, Value.IsIntegral, Value.FieldsAreIntegral, Value.AreIntegral]
  have hvalue : Value.ofText? v.text = some v.sorted := by
    rw [Value.ofText?_eq_some_iff Query.PartFault, Json.readText_text _ hintegral]
    rfl
  have hsingle : ∀ items, v.sorted ≠ .array items := fun _ => Value.noConfusion
  have hkeys : (Document.ofText v.text).root.hasDistinctKeys := by
    rw [Document.ofText_text hintegral]
    decide +kernel
  have hread : Descriptor.ofText v.text =
      .ok ⟨none, "t", false, none, some "ts", none, none, [[.column "v"]], [.engine .time], []⟩ := by
    rw [Descriptor.ofText, Json.readText_text _ hintegral]
    rfl
  have hmoved : (Document.ofText v.text).root.Reordered
      (Document.ofText (Value.object positionalFields.reverse).text).root := by
    rw [Document.ofText_text hintegral, Document.ofText_text hintegral']
    refine .object rfl (List.forall₂_same.2 fun node _ => .refl node) ?_
    rw [Json.Node.ofFields_eq_map, Json.Node.ofFields_eq_map]
    exact (List.reverse_perm positionalFields).symm.map _
  have hsound : (Document.ofText (brokenAfterCommas v.chars)).sound := by
    rw [Document.ofText, Json.Token.scan, brokenAfterCommas, String.toList_ofList]
    decide +kernel
  have hblanks : unspaced (brokenAfterCommas v.chars) = unspaced v.text := by
    rw [unspaced, unspaced, brokenAfterCommas, Value.text, String.toList_ofList,
      String.toList_ofList]
    exact congrArg String.ofList (by decide +kernel)
  obtain ⟨hfile, horder, hspread⟩ := single_target_readers_agree
    (readText_hostHolding v.text "q.json") hvalue hsingle hkeys
  refine ⟨_, hread, (hfile _).2 ⟨_, hread, rfl⟩, (horder _ ?_ hmoved _).2 hread, ?_⟩
  · rw [Document.ofText_text hintegral']
  · rw [hspread _ hsound hblanks, hread]

end SeriesQuery.CommandLine
