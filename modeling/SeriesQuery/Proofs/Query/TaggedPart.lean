import SeriesQuery.Proofs.Json.RoundTrip
import SeriesQuery.Proofs.Query.RowCount
import SeriesQuery.Query.Reading
import SeriesQuery.Query.Written

/-!
# Parts in their tagged form

A part is recovered from its tagged form, and the tagged form from its JSON. The one parameter that
is not a text is the size of a moving window, which is written as a number and read as digits.
-/

namespace SeriesQuery.Query

open Json (Node Origin ReadsBack RecordReader Value)

theorem paramText?_row_count (n : UInt32) :
    paramText? (.number (.integer n.toNat)) =
      some (String.ofList (Nat.toDigits 10 n.toNat)) := by
  have hneg : ¬ ((n.toNat : Int) < 0) := by omega
  change some (Value.text _) = _
  rw [Value.text, Value.chars, Json.Number.chars, if_neg hneg, List.nil_append,
    Int.natAbs_natCast]

/-! ### Recovering parts -/

theorem TaggedPart.rows_movingWindow (function : String) (rows : Option UInt32) :
    (ColumnPart.movingWindow function rows).tagged.rows = .ok rows := by
  cases rows with
  | none => rfl
  | some n =>
    have hparam : (ColumnPart.movingWindow function (some n)).tagged.param? 1 =
        some (String.ofList (Nat.toDigits 10 n.toNat)) := paramText?_row_count n
    rw [TaggedPart.rows, hparam]
    simp only [RowCount.ofText?_toDigits]

theorem ColumnPart.toColumnPart_tagged (p : ColumnPart) : p.tagged.toColumnPart = .ok p := by
  cases p with
  | column | label | aggregate | percentile => rfl
  | window kind => cases kind <;> rfl
  | movingWindow function rows =>
    have hrows := TaggedPart.rows_movingWindow function rows
    change ((movingWindow function rows).tagged.rows >>= fun rows =>
      .ok (movingWindow function rows)) = _
    rw [hrows, Except.ok_bind]

theorem Condition.toCondition_tagged (c : Condition) : c.tagged.toCondition = .ok c := by
  cases c with
  | engine filter => cases filter; rfl
  | expression => rfl

theorem Grouping.toGrouping_tagged (g : Grouping) : g.tagged.toGrouping = .ok g := by
  cases g with
  | time interval fill => cases fill <;> rfl
  | column => rfl

/-! ### The JSON of a tagged part -/

namespace TaggedPart

/-- What reading a field of a given name does to a tagged part. -/
inductive Update : String → (TaggedPart → TaggedPart) → Prop
  | kind (kind : String) : Update "type" fun p => { p with kind }
  | name (name : Option String) : Update "name" fun p => { p with name }
  | params (params : List Value) : Update "params" fun p => { p with params }
  | other (field : String) : Update field id

theorem exists_update_of_set {origin : Origin} {field : String} {node : Node} {p q : TaggedPart}
    (h : reader.set origin field p node = .ok q) :
    ∃ update, Update field update ∧ q = update p ∧
      ∀ p', reader.set origin field p' node = .ok (update p') := by
  unfold reader at h ⊢
  simp only at h ⊢
  split at h
  next => exact RecordReader.exists_update_of_bind .kind h
  next => exact RecordReader.exists_update_of_bind .name h
  next => exact RecordReader.exists_update_of_bind .params h
  next => exact ⟨id, .other field, (Except.ok.inj h).symm, fun _ => rfl⟩

theorem reader_independent : reader.Independent := by
  apply RecordReader.Independent.of_updates Update exists_update_of_set
  intro name name' update update' hne h h' a
  cases h <;> cases h' <;> first | rfl | exact absurd rfl hne

theorem nodup_fields : reader.shape.fields.Nodup := by decide

theorem readsBack_toJson (p : TaggedPart)
    (hparams : ∀ v ∈ p.params, ReadsBack (Node.readValue (ε := PartFault)) 0 v v) :
    ReadsBack TaggedPart.read 2 p.toJson p := by
  obtain ⟨kind, name, params⟩ := p
  have hkind (q : TaggedPart) : ReadsBack (fun origin node => reader.set origin "type" q node) 1
      (.string kind) { q with kind } :=
    ((ReadsBack.string kind).mono (Nat.zero_le 1)).bind rfl
  have hname (q : TaggedPart) (name : String) :
      ReadsBack (fun origin node => reader.set origin "name" q node) 1
        (.string name) { q with name := some name } :=
    (((ReadsBack.string name).mono (Nat.zero_le 1)).option_some Value.noConfusion).bind rfl
  have hlist (q : TaggedPart) : ReadsBack (fun origin node => reader.set origin "params" q node) 1
      (.array params) { q with params } :=
    (ReadsBack.list (List.forall₂_same.2 hparams)).bind rfl
  cases name with
  | none =>
    have hsub : ["type", "params"].Sublist reader.shape.fields := by decide
    have hkeys := hsub.nodup nodup_fields
    have hrequired : reader.shape.required ⊆ ["type", "params"] := by decide
    exact ReadsBack.record reader_independent (.cons (hkind _) (.cons (hlist _) (.nil _)))
      hsub.subset hkeys hrequired
  | some name =>
    have hrequired : reader.shape.required ⊆ reader.shape.fields := by decide
    exact ReadsBack.record reader_independent
      (.cons (hkind _) (.cons (hname _ name) (.cons (hlist _) (.nil _))))
      (List.Subset.refl _) nodup_fields hrequired

end TaggedPart

/-! ### The JSON of parts -/

theorem readsBack_string_param (s : String) :
    ReadsBack (Node.readValue (ε := PartFault)) 0 (.string s) (.string s) :=
  ⟨trivial, fun _ => rfl, fun _ => rfl⟩

theorem readsBack_row_count_param (n : UInt32) :
    ReadsBack (Node.readValue (ε := PartFault)) 0 (.number (.integer n.toNat))
      (.number (.integer n.toNat)) := by
  have hlt := n.toNat_lt
  have hintegral : (Value.number (.integer n.toNat)).IsIntegral := by
    unfold Value.IsIntegral
    omega
  exact ⟨hintegral, fun _ => rfl, fun _ => rfl⟩

theorem TaggedPart.readsBack_ofTexts (kind : String) (texts : List String) :
    ReadsBack TaggedPart.read 2 (ofTexts kind texts).toJson (ofTexts kind texts) := by
  apply readsBack_toJson
  intro v hv
  obtain ⟨s, _, rfl⟩ := List.mem_map.1 hv
  exact readsBack_string_param s

theorem ColumnPart.readsBack_tagged (p : ColumnPart) :
    ReadsBack TaggedPart.read 2 p.tagged.toJson p.tagged := by
  cases p with
  | column | label | aggregate | percentile | window => exact TaggedPart.readsBack_ofTexts _ _
  | movingWindow function rows =>
    apply TaggedPart.readsBack_toJson
    intro v hv
    cases rows with
    | none =>
      obtain rfl := List.mem_singleton.1 hv
      exact readsBack_string_param function
    | some n =>
      rcases List.mem_pair.1 hv with rfl | rfl
      · exact readsBack_string_param function
      · exact readsBack_row_count_param n

theorem Condition.readsBack_tagged (c : Condition) :
    ReadsBack TaggedPart.read 2 c.tagged.toJson c.tagged := by
  cases c with
  | engine filter =>
    apply TaggedPart.readsBack_toJson
    intro v hv
    exact (List.not_mem_nil hv).elim
  | expression => exact TaggedPart.readsBack_ofTexts _ _

theorem Grouping.readsBack_tagged (g : Grouping) :
    ReadsBack TaggedPart.read 2 g.tagged.toJson g.tagged := by
  cases g <;> exact TaggedPart.readsBack_ofTexts _ _

theorem ColumnPart.readsBack_toJson (p : ColumnPart) :
    ReadsBack ColumnPart.read 2 p.toJson p := by
  apply p.readsBack_tagged.bind
  rw [p.toColumnPart_tagged]
  rfl

theorem Condition.readsBack_toJson (c : Condition) : ReadsBack Condition.read 2 c.toJson c := by
  apply c.readsBack_tagged.bind
  rw [c.toCondition_tagged]
  rfl

theorem Grouping.readsBack_toJson (g : Grouping) : ReadsBack Grouping.read 2 g.toJson g := by
  apply g.readsBack_tagged.bind
  rw [g.toGrouping_tagged]
  rfl

theorem ColumnSpec.readsBack_toJson (spec : ColumnSpec) :
    ReadsBack ColumnSpec.read 3 spec.toJson spec :=
  ReadsBack.list_map fun p _ => p.readsBack_toJson

end SeriesQuery.Query
