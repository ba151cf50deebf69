import SeriesQuery.Proofs.Json.Nodes
import SeriesQuery.Proofs.Json.Records

/-!
# The fields that an object gives

A reader of records that requires no field takes from an object only what the object gives for the
fields of the record: it passes over other fields, and a null that leaves the record as it was is
as good as no field. Two objects that give the same are read alike, also where reading fails.
-/

namespace SeriesQuery.Json

namespace Value

def isNull : Value → Bool
  | .null => true
  | _ => false

theorem isNull_iff {v : Value} : v.isNull ↔ v = .null := by
  cases v <;> simp [isNull]

theorem isNull_sorted (v : Value) : v.sorted.isNull = v.isNull := by
  cases v <;> rfl

end Value

/-- What an object gives for a field, where null gives nothing and the last of several fields with
one key counts. -/
def given? (fields : List (String × Value)) (name : String) : Option Value :=
  (fields.reverse.lookup name).filter fun v => !v.isNull

namespace Node

mutual

/-- A value is never cut short. -/
theorem isWhole_ofValue (v : Value) : (ofValue v).isWhole := by
  match v with
  | .null => rfl
  | .bool _ => rfl
  | .number _ => rfl
  | .string _ => rfl
  | .array items => rw [ofValue, isWhole, Bool.and_true, areWhole_ofItems items]
  | .object fields => rw [ofValue, isWhole, Bool.and_true, fieldsAreWhole_ofFields fields]

theorem areWhole_ofItems (items : List Value) : areWhole (ofItems items) := by
  match items with
  | [] => rfl
  | item :: items => rw [ofItems, areWhole, isWhole_ofValue item, areWhole_ofItems items]; rfl

theorem fieldsAreWhole_ofFields (fields : List (String × Value)) :
    fieldsAreWhole (ofFields fields) := by
  match fields with
  | [] => rfl
  | (key, v) :: fields =>
    rw [ofFields, fieldsAreWhole, isWhole_ofValue v, fieldsAreWhole_ofFields fields]; rfl

end

end Node

namespace RecordReader

variable {ε σ : Type} {reader : RecordReader ε σ} {origin : Origin}

/-- Whether a field of an object is one of the record and gives something for it. -/
def counts (reader : RecordReader ε σ) (field : String × Value) : Bool :=
  reader.shape.fields.contains field.1 && !field.2.isNull

/-- Setting one field leaves the effect of a null in another as it was. -/
theorem Independent.set_null (hreader : reader.Independent) {name name' : String} {node : Node}
    {a b : σ} (hne : name' ≠ name) (hnull : reader.set origin name' a .null = .ok a)
    (hset : reader.set origin name a node = .ok b) :
    reader.set origin name' b .null = .ok b := by
  obtain ⟨c, hc, hb⟩ := hreader hne hnull hset
  cases hset.symm.trans hc
  exact hb

theorem readFields_cons_of_known {key : String} {node : Node} {closed : Bool}
    {fields : List (Option String × Node)} {seen : List String} {a : σ}
    (hfield : key ∈ reader.shape.fields) (hseen : key ∉ seen) :
    reader.readFields origin closed ((some key, node) :: fields) seen a =
      reader.set origin key a node >>= reader.readFields origin closed fields (key :: seen) := by
  rw [readFields, if_pos hfield, if_neg hseen]

theorem readFields_cons_of_unknown {key : String} {closed : Bool}
    {fields : List (Option String × Node)} {seen : List String} {a : σ}
    (hfield : key ∉ reader.shape.fields) (v : Value) :
    reader.readFields origin closed ((some key, Node.ofValue v) :: fields) seen a =
      reader.readFields origin closed fields seen a := by
  rw [readFields, if_neg hfield, Node.skip, if_pos (Node.isWhole_ofValue v), Except.ok_bind]

/-- Reading passes over the fields that do not count. The names read before may differ, since a null
that counts for nothing is still a name that has been read. -/
theorem readFields_filter_counts (hreader : reader.Independent)
    (hrequired : reader.shape.required = []) {fields : List (String × Value)}
    (hkeys : (fields.map Prod.fst).Nodup) {seen seen' : List String} {a : σ}
    (hseen : ∀ key ∈ fields.map Prod.fst, key ∉ seen ∧ key ∉ seen')
    (hnull : ∀ key ∈ fields.map Prod.fst, reader.set origin key a .null = .ok a) :
    reader.readFields origin true (Node.ofFields fields) seen a =
      reader.readFields origin true (Node.ofFields (fields.filter reader.counts)) seen' a := by
  induction fields generalizing seen seen' a with
  | nil => simp [Node.ofFields, readFields, hrequired]
  | cons field fields ih =>
    obtain ⟨key, v⟩ := field
    rw [List.map_cons, List.nodup_cons] at hkeys
    rw [List.map_cons, List.forall_mem_cons] at hseen hnull
    have hfresh : ∀ k ∈ fields.map Prod.fst, k ≠ key := fun k hk heq => hkeys.1 (heq ▸ hk)
    have hcons (names : List String) (hnames : ∀ k ∈ fields.map Prod.fst, k ∉ names) :
        ∀ k ∈ fields.map Prod.fst, k ∉ key :: names := fun k hk =>
      List.not_mem_cons_of_ne_of_not_mem (hfresh k hk) (hnames k hk)
    have hseen₁ := hcons seen fun k hk => (hseen.2 k hk).1
    have hseen₂ := hcons seen' fun k hk => (hseen.2 k hk).2
    rw [Node.ofFields]
    by_cases hfield : key ∈ reader.shape.fields
    · rw [readFields_cons_of_known hfield hseen.1.1]
      cases hv : v.isNull with
      | true =>
        obtain rfl := Value.isNull_iff.1 hv
        rw [List.filter_cons_of_neg (by simp [counts, hv]), Node.ofValue, hnull.1, Except.ok_bind]
        exact ih hkeys.2 (fun k hk => ⟨hseen₁ k hk, (hseen.2 k hk).2⟩) hnull.2
      | false =>
        rw [List.filter_cons_of_pos (by simp [counts, hv, hfield]), Node.ofFields,
          readFields_cons_of_known hfield hseen.1.2]
        cases hset : reader.set origin key a (Node.ofValue v) with
        | error fault => rfl
        | ok b =>
          exact ih hkeys.2 (fun k hk => ⟨hseen₁ k hk, hseen₂ k hk⟩) fun k hk =>
            hreader.set_null (hfresh k hk) (hnull.2 k hk) hset
    · rw [readFields_cons_of_unknown hfield, List.filter_cons_of_neg (by simp [counts, hfield])]
      exact ih hkeys.2 hseen.2 hnull.2

theorem mem_filter_counts_iff {fields : List (String × Value)} {key : String} {v : Value} :
    (key, v) ∈ (sortFields (Value.sortedFields fields)).filter reader.counts ↔
      key ∈ reader.shape.fields ∧ ∃ w, given? fields key = some w ∧ w.sorted = v := by
  have hkeys := (keysAscend_sortFields (Value.sortedFields fields)).nodup
  rw [List.mem_filter, ← lookup_eq_some_iff_mem hkeys, lookup_sortFields,
    Value.sortedFields_eq_map, ← List.map_reverse, lookup_map_snd Value.sorted]
  simp only [Option.map_eq_some_iff, counts, Bool.and_eq_true, List.contains_iff_mem,
    Bool.not_eq_true', given?, Option.filter_eq_some_iff]
  constructor
  · rintro ⟨⟨w, hw, rfl⟩, hkey, hnull⟩
    exact ⟨hkey, w, ⟨hw, Value.isNull_sorted w ▸ hnull⟩, rfl⟩
  · rintro ⟨hkey, w, ⟨hw, hnull⟩, rfl⟩
    exact ⟨⟨w, hw, rfl⟩, hkey, (Value.isNull_sorted w).trans hnull⟩

/-- The fields that count stand in the order of their keys, so what an object gives determines
them as a list. -/
theorem filter_counts_eq {fields fields' : List (String × Value)}
    (h : ∀ name ∈ reader.shape.fields, given? fields name = given? fields' name) :
    (sortFields (Value.sortedFields fields)).filter reader.counts =
      (sortFields (Value.sortedFields fields')).filter reader.counts := by
  have hascend (fields : List (String × Value)) :
      KeysAscend ((sortFields (Value.sortedFields fields)).filter reader.counts) :=
    (keysAscend_sortFields _).filter _
  refine (hascend fields).eq_of_perm (hascend fields') ?_
  rw [List.perm_ext_iff_of_nodup (hascend fields).nodup.of_map
    (hascend fields').nodup.of_map]
  rintro ⟨key, v⟩
  rw [mem_filter_counts_iff, mem_filter_counts_iff]
  exact and_congr_right fun hkey => by rw [h key hkey]

/-- A record of which nothing is required is read from what an object gives for its fields. -/
theorem readFrom_object_congr (hreader : reader.Independent)
    (hrequired : reader.shape.required = []) {initial : σ}
    (hnull : ∀ name, reader.set .value name initial .null = .ok initial)
    {fields fields' : List (String × Value)}
    (h : ∀ name ∈ reader.shape.fields, given? fields name = given? fields' name) :
    readFrom (fun origin node => reader.read origin initial node) (.object fields) =
      readFrom (fun origin node => reader.read origin initial node) (.object fields') := by
  have hread (fields : List (String × Value)) :
      readFrom (fun origin node => reader.read origin initial node) (.object fields) =
        reader.readFields .value true (Node.ofFields
          ((sortFields (Value.sortedFields fields)).filter reader.counts)) [] initial := by
    have hkeys := (keysAscend_sortFields (Value.sortedFields fields)).nodup
    exact readFields_filter_counts hreader hrequired hkeys
      (fun _ _ => ⟨List.not_mem_nil, List.not_mem_nil⟩) fun name _ => hnull name
  rw [hread, hread, filter_counts_eq h]

end RecordReader

end SeriesQuery.Json
