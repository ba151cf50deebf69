import SeriesQuery.Proofs.Json.GivenFields
import SeriesQuery.Proofs.Query.RoundTrip

/-!
# What decides a query that was stored

Of the object of a stored target only what it gives for the ten fields of a target matters to the
query. A target that is written comes back as it was, its absent and its empty fields kept apart,
and as the query that it stands for.
-/

namespace SeriesQuery.Query

open Json (Value given?)

theorem Target.set_null_empty (name : String) :
    reader.set .value name empty .null = .ok empty := by
  unfold reader
  simp only
  split <;> rfl

theorem Descriptor.ofJson_object_congr {fields fields' : List (String × Value)}
    (h : ∀ name ∈ Target.reader.shape.fields, given? fields name = given? fields' name) :
    ofJson (.object fields) = ofJson (.object fields') := by
  have htarget := Json.RecordReader.readFrom_object_congr Target.reader_independent rfl
    Target.set_null_empty h
  exact congrArg (· >>= fun t => pure t.descriptor) htarget

theorem Target.readsBack_descriptor (t : Target) :
    Json.ReadsBack Descriptor.read 5 t.toJson t.descriptor := t.readsBack_toJson.bind rfl

/-- A stored object is read as the query that its known fields give, null or absent alike, and
whatever else it holds, also where it cannot be read. A target that is written is read back as it
was, and as the query that it stands for. -/
theorem stored_fields_decide_query :
    (∀ fields fields' : List (String × Value),
      (∀ name ∈ Target.reader.shape.fields, given? fields name = given? fields' name) →
      Descriptor.ofJson (.object fields) = Descriptor.ofJson (.object fields')) ∧
    RoundTrips Target.read Target.toJson ∧
    ∀ t : Target, Descriptor.ofText t.toJson.text = .ok t.descriptor ∧
      Descriptor.ofJson t.toJson = .ok t.descriptor := by
  refine ⟨fun _ _ => Descriptor.ofJson_object_congr,
    roundTrips_of_readsBack (by omega) Target.readsBack_toJson, fun t => ?_⟩
  exact ⟨t.readsBack_descriptor.readText_eq (by omega), t.readsBack_descriptor.readFrom_eq⟩

/-- Nulls and a field of an editor come and go around a group that is at fault, and the fault
stays. -/
theorem stored_fields_decide_query_of_faulty_group :
    let group := Value.array [.object [("type", .string "slot")]]
    let fields := [("where", .null), ("refId", .string "A"), ("table", .string "t"), ("group", group)]
    let fields' := [("group", group), ("rawSql", .null), ("table", .string "t")]
    (∀ name ∈ Target.reader.shape.fields, given? fields name = given? fields' name) ∧
      Descriptor.ofJson (.object fields) = Descriptor.ofJson (.object fields') ∧
      Descriptor.ofJson (.object fields) = .error (.content (.unknownKind .group "slot")) := by
  intro group fields fields'
  have hgiven : ∀ name ∈ Target.reader.shape.fields, given? fields name = given? fields' name := by
    intro name hname
    simp only [Target.reader, List.mem_cons, List.not_mem_nil, or_false] at hname
    rcases hname with rfl | rfl | rfl | rfl | rfl | rfl | rfl | rfl | rfl | rfl <;> rfl
  exact ⟨hgiven, stored_fields_decide_query.1 fields fields' hgiven, rfl⟩

end SeriesQuery.Query
