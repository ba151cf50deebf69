import SeriesQuery.Proofs.Query.TaggedPart

/-!
# Queries read back from JSON

Parts, targets and descriptors are read back from what is written for them. A target keeps the
difference between an absent field and an empty one, and a descriptor is the target that has every
field, so none of the defaults of a target shows.
-/

namespace SeriesQuery.Query

open Json (Node Origin ReadsBack RecordReader Value)

theorem readsBack_optionJson {α : Type} {read : Reader α} {depth : Nat} {write : α → Value}
    (hwrite : ∀ a, ReadsBack read depth (write a) a) (hnull : ∀ a, write a ≠ .null)
    (x : Option α) :
    ReadsBack (fun origin node => node.readOption (read origin)) depth (optionJson write x) x := by
  cases x with
  | none => exact ReadsBack.option_none
  | some a => exact (hwrite a).option_some (hnull a)

/-! ### Targets -/

namespace Target

/-- What reading a field of a given name does to a target. -/
inductive Update : String → (Target → Target) → Prop
  | dataset (dataset : Option String) : Update "dataset" fun t => { t with dataset }
  | table (table : Option String) : Update "table" fun t => { t with table }
  | rawQuery (rawQuery : Option Bool) : Update "rawQuery" fun t => { t with rawQuery }
  | rawSql (rawSql : Option String) : Update "rawSql" fun t => { t with rawSql }
  | timeColumn (timeColumn : Option String) : Update "timeColumn" fun t => { t with timeColumn }
  | timeColumnType (timeColumnType : Option String) :
    Update "timeColumnType" fun t => { t with timeColumnType }
  | metricColumn (metricColumn : Option String) :
    Update "metricColumn" fun t => { t with metricColumn }
  | select (select : Option (List ColumnSpec)) : Update "select" fun t => { t with select }
  | conditions (conditions : Option (List Condition)) :
    Update "where" fun t => { t with conditions }
  | group (group : Option (List Grouping)) : Update "group" fun t => { t with group }
  | other (field : String) : Update field id

theorem exists_update_of_set {origin : Origin} {field : String} {node : Node} {t t' : Target}
    (h : reader.set origin field t node = .ok t') :
    ∃ update, Update field update ∧ t' = update t ∧
      ∀ u, reader.set origin field u node = .ok (update u) := by
  unfold reader at h ⊢
  simp only at h ⊢
  split at h
  next => exact RecordReader.exists_update_of_bind .dataset h
  next => exact RecordReader.exists_update_of_bind .table h
  next => exact RecordReader.exists_update_of_bind .rawQuery h
  next => exact RecordReader.exists_update_of_bind .rawSql h
  next => exact RecordReader.exists_update_of_bind .timeColumn h
  next => exact RecordReader.exists_update_of_bind .timeColumnType h
  next => exact RecordReader.exists_update_of_bind .metricColumn h
  next => exact RecordReader.exists_update_of_bind .select h
  next => exact RecordReader.exists_update_of_bind .conditions h
  next => exact RecordReader.exists_update_of_bind .group h
  next => exact ⟨id, .other field, (Except.ok.inj h).symm, fun _ => rfl⟩

theorem reader_independent : reader.Independent := by
  apply RecordReader.Independent.of_updates Update exists_update_of_set
  intro name name' update update' hne h h' a
  cases h <;> cases h' <;> first | rfl | exact absurd rfl hne

theorem nodup_fields : reader.shape.fields.Nodup := by decide

theorem readsBack_toJson (t : Target) : ReadsBack Target.read 5 t.toJson t := by
  have hstring (s : Option String) :
      ReadsBack (fun _ node => node.readOption (Node.readString (ε := PartFault))) 4
        (optionJson .string s) s :=
    (readsBack_optionJson .string (fun _ => Value.noConfusion) s).mono (Nat.zero_le 4)
  have hbool (b : Option Bool) :
      ReadsBack (fun _ node => node.readOption (Node.readBool (ε := PartFault))) 4
        (optionJson .bool b) b :=
    (readsBack_optionJson .bool (fun _ => Value.noConfusion) b).mono (Nat.zero_le 4)
  have hselect := readsBack_optionJson
    (fun specs => ReadsBack.list_map fun spec _ => ColumnSpec.readsBack_toJson spec)
    (fun _ => Value.noConfusion) t.select
  have hwhere := (readsBack_optionJson
    (fun conditions => ReadsBack.list_map fun c _ => Condition.readsBack_toJson c)
    (fun _ => Value.noConfusion) t.conditions).mono (Nat.le_succ 3)
  have hgroup := (readsBack_optionJson
    (fun group => ReadsBack.list_map fun g _ => Grouping.readsBack_toJson g)
    (fun _ => Value.noConfusion) t.group).mono (Nat.le_succ 3)
  exact ReadsBack.record reader_independent
    (.cons ((hstring t.dataset).bind rfl)
    (.cons ((hstring t.table).bind rfl)
    (.cons ((hbool t.rawQuery).bind rfl)
    (.cons ((hstring t.rawSql).bind rfl)
    (.cons ((hstring t.timeColumn).bind rfl)
    (.cons ((hstring t.timeColumnType).bind rfl)
    (.cons ((hstring t.metricColumn).bind rfl)
    (.cons (hselect.bind rfl)
    (.cons (hwhere.bind rfl)
    (.cons (hgroup.bind rfl) (.nil _)))))))))))
    (List.Subset.refl _) nodup_fields (List.nil_subset _)

end Target

/-! ### Descriptors -/

theorem Descriptor.readsBack_toJson (d : Descriptor) :
    ReadsBack Descriptor.read 5 d.toJson d := by
  apply (Target.ofDescriptor d).readsBack_toJson.bind
  rw [Target.descriptor_ofDescriptor]
  rfl

/-- Whether what is written is read back, from its text as well as from the value itself. -/
def RoundTrips {α : Type} (read : Reader α) (write : α → Value) : Prop :=
  ∀ a, Json.readText read (write a).text = .ok a ∧ Json.readFrom read (write a) = .ok a

theorem roundTrips_of_readsBack {α : Type} {read : Reader α} {write : α → Value} {depth : Nat}
    (hdepth : depth ≤ 127) (h : ∀ a, ReadsBack read depth (write a) a) : RoundTrips read write := by
  intro a
  exact ⟨(h a).readText_eq hdepth, (h a).readFrom_eq⟩

/-- Reading undoes writing, for descriptors and for each of their pieces alone. -/
theorem reading_undoes_writing :
    (∀ d : Descriptor, Descriptor.ofText d.text = .ok d ∧ Descriptor.ofJson d.toJson = .ok d) ∧
      RoundTrips ColumnPart.read ColumnPart.toJson ∧ RoundTrips Condition.read Condition.toJson ∧
      RoundTrips Grouping.read Grouping.toJson ∧ RoundTrips ColumnSpec.read ColumnSpec.toJson := by
  exact ⟨roundTrips_of_readsBack (by omega) Descriptor.readsBack_toJson,
    roundTrips_of_readsBack (by omega) ColumnPart.readsBack_toJson,
    roundTrips_of_readsBack (by omega) Condition.readsBack_toJson,
    roundTrips_of_readsBack (by omega) Grouping.readsBack_toJson,
    roundTrips_of_readsBack (by omega) ColumnSpec.readsBack_toJson⟩

end SeriesQuery.Query
