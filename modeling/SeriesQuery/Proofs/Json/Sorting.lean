import SeriesQuery.Json.Value

/-!
# The order of fields

Sorting the fields of an object only reorders them when no two have the same key, and the outcome
does not depend on the order they were in. Sorting what is sorted changes nothing.
-/

namespace SeriesQuery.Json

variable {α : Type}

theorem insertField_perm {key : String} {fields : List (String × α)}
    (hkey : key ∉ fields.map Prod.fst) (value : α) :
    (insertField key value fields).Perm ((key, value) :: fields) := by
  induction fields with
  | nil => exact .refl _
  | cons field fields ih =>
    obtain ⟨k, v⟩ := field
    simp only [List.map_cons, List.mem_cons, not_or] at hkey
    rw [insertField, if_neg hkey.1]
    by_cases hlt : key < k
    · rw [if_pos hlt]
    · rw [if_neg hlt]
      exact ((ih hkey.2).cons (k, v)).trans (.swap (key, value) (k, v) fields)

theorem foldl_insertField_perm {fields sorted : List (String × α)}
    (hkeys : ((fields ++ sorted).map Prod.fst).Nodup) :
    (fields.foldl (fun sorted (key, value) => insertField key value sorted) sorted).Perm
      (fields ++ sorted) := by
  induction fields generalizing sorted with
  | nil => exact .refl _
  | cons field fields ih =>
    obtain ⟨key, value⟩ := field
    have hfresh : key ∉ sorted.map Prod.fst := by
      intro hmem
      rw [List.cons_append, List.map_cons, List.nodup_cons, List.map_append] at hkeys
      exact hkeys.1 (List.mem_append_right _ hmem)
    have hperm := (insertField_perm hfresh value).append_left fields
    have hmoved : (fields ++ (key, value) :: sorted).Perm ((key, value) :: (fields ++ sorted)) :=
      List.perm_middle
    have hkeys' : ((fields ++ insertField key value sorted).map Prod.fst).Nodup :=
      ((hperm.trans hmoved).map Prod.fst).nodup_iff.2 hkeys
    rw [List.foldl_cons]
    exact (ih hkeys').trans (hperm.trans hmoved)

theorem sortFields_perm {fields : List (String × α)} (hkeys : (fields.map Prod.fst).Nodup) :
    (sortFields fields).Perm fields := by
  have hperm := @foldl_insertField_perm α fields []
    (by rwa [List.append_nil])
  rwa [List.append_nil] at hperm

/-- Whether the keys go up from field to field. -/
def KeysAscend (fields : List (String × α)) : Prop :=
  fields.Pairwise fun field field' => field.1 < field'.1

theorem mem_insertField {key : String} {value : α} {fields : List (String × α)}
    {field : String × α} (h : field ∈ insertField key value fields) :
    field = (key, value) ∨ field ∈ fields := by
  induction fields with
  | nil => exact .inl (List.mem_singleton.1 h)
  | cons first fields ih =>
    obtain ⟨k, v⟩ := first
    rw [insertField] at h
    split at h
    next => exact (List.mem_cons.1 h).imp_right (List.mem_cons_of_mem _)
    next =>
      split at h
      next => exact List.mem_cons.1 h
      next =>
        rcases List.mem_cons.1 h with rfl | hrest
        · exact .inr List.mem_cons_self
        · exact (ih hrest).imp_right (List.mem_cons_of_mem _)

theorem mem_foldl_insertField {fields sorted : List (String × α)} {field : String × α}
    (h : field ∈ fields.foldl (fun sorted (key, value) => insertField key value sorted) sorted) :
    field ∈ fields ∨ field ∈ sorted := by
  induction fields generalizing sorted with
  | nil => exact .inr h
  | cons first fields ih =>
    rcases ih h with hrest | hsorted
    · exact .inl (List.mem_cons_of_mem _ hrest)
    · rcases mem_insertField hsorted with rfl | hmem
      · exact .inl List.mem_cons_self
      · exact .inr hmem

theorem mem_sortFields {fields : List (String × α)} {field : String × α}
    (h : field ∈ sortFields fields) : field ∈ fields :=
  (mem_foldl_insertField h).resolve_right List.not_mem_nil

theorem KeysAscend.insertField {fields : List (String × α)} (h : KeysAscend fields) (key : String)
    (value : α) : KeysAscend (insertField key value fields) := by
  induction h with
  | nil => exact List.pairwise_singleton _ _
  | @cons first fields hfirst hfields ih =>
    obtain ⟨k, v⟩ := first
    rw [Json.insertField]
    split
    next heq =>
      subst heq
      exact .cons hfirst hfields
    next hne =>
      split
      next hlt =>
        refine .cons ?_ (.cons hfirst hfields)
        intro field hfield
        rcases List.mem_cons.1 hfield with rfl | hrest
        · exact hlt
        · exact String.lt_trans hlt (hfirst field hrest)
      next hge =>
        have hlt : k < key := Classical.byContradiction fun hge' =>
          hne (String.le_antisymm (String.not_lt.1 hge') (String.not_lt.1 hge))
        refine .cons ?_ ih
        intro field hfield
        rcases mem_insertField hfield with rfl | hrest
        · exact hlt
        · exact hfirst field hrest

theorem keysAscend_sortFields (fields : List (String × α)) : KeysAscend (sortFields fields) := by
  have hfoldl (sorted : List (String × α)) (h : KeysAscend sorted) :
      KeysAscend (fields.foldl (fun sorted (key, value) => insertField key value sorted) sorted) := by
    induction fields generalizing sorted with
    | nil => exact h
    | cons field fields ih => exact ih _ (h.insertField _ _)
  exact hfoldl [] .nil

/-- Keys that ascend can stand in one order only. -/
theorem KeysAscend.eq_of_perm {fields fields' : List (String × α)} (h : KeysAscend fields)
    (h' : KeysAscend fields') (hperm : fields.Perm fields') : fields = fields' :=
  hperm.eq_of_pairwise (fun _ _ _ _ hlt hlt' => absurd hlt' (String.lt_asymm hlt)) h h'

theorem KeysAscend.nodup {fields : List (String × α)} (h : KeysAscend fields) :
    (fields.map Prod.fst).Nodup := by
  rw [List.Nodup, List.pairwise_map]
  apply h.imp
  intro field field' hlt heq
  rw [heq] at hlt
  exact String.lt_irrefl _ hlt

theorem KeysAscend.sortFields_eq {fields : List (String × α)} (h : KeysAscend fields) :
    sortFields fields = fields :=
  (keysAscend_sortFields fields).eq_of_perm h (sortFields_perm h.nodup)

theorem sortFields_eq_of_perm {fields fields' : List (String × α)} (hperm : fields.Perm fields')
    (hkeys : (fields.map Prod.fst).Nodup) : sortFields fields = sortFields fields' := by
  have hkeys' : (fields'.map Prod.fst).Nodup := (hperm.map Prod.fst).nodup_iff.1 hkeys
  exact (keysAscend_sortFields fields).eq_of_perm (keysAscend_sortFields fields')
    ((sortFields_perm hkeys).trans (hperm.trans (sortFields_perm hkeys').symm))

/-! ### Looking fields up -/

theorem lookup_cons_eq_ite (k : String) (field : String × α) (fields : List (String × α)) :
    (field :: fields).lookup k = if k = field.1 then some field.2 else fields.lookup k := by
  by_cases h : k = field.1
  · rw [List.lookup_cons, beq_iff_eq.2 h, if_pos h]
  · rw [List.lookup_cons, beq_eq_false_iff_ne.2 h, if_neg h]

theorem lookup_insertField (key : String) (value : α) (fields : List (String × α)) (k : String) :
    (insertField key value fields).lookup k = if k = key then some value else fields.lookup k := by
  induction fields with
  | nil => exact lookup_cons_eq_ite k (key, value) []
  | cons field fields ih =>
    obtain ⟨first, v⟩ := field
    rw [insertField]
    split
    next hfirst =>
      subst hfirst
      simp only [lookup_cons_eq_ite]
      by_cases h : k = key
      · rw [if_pos h, if_pos h]
      · rw [if_neg h, if_neg h, if_neg h]
    next hfirst =>
      split
      next => exact lookup_cons_eq_ite k (key, value) ((first, v) :: fields)
      next =>
        rw [lookup_cons_eq_ite, lookup_cons_eq_ite, ih]
        by_cases h : k = first
        · rw [if_pos h, if_pos h, if_neg (h ▸ Ne.symm hfirst)]
        · rw [if_neg h, if_neg h]

/-- Sorting keeps the last of several fields with one key. -/
theorem lookup_sortFields (fields : List (String × α)) (key : String) :
    (sortFields fields).lookup key = fields.reverse.lookup key := by
  have hfoldl (sorted : List (String × α)) :
      (fields.foldl (fun sorted (key, value) => insertField key value sorted) sorted).lookup key =
        (fields.reverse ++ sorted).lookup key := by
    induction fields generalizing sorted with
    | nil => rfl
    | cons field fields ih =>
      rw [List.foldl_cons, ih, List.reverse_cons, List.append_assoc, List.lookup_append,
        List.lookup_append, lookup_insertField, List.singleton_append, lookup_cons_eq_ite]
  rw [sortFields, hfoldl, List.append_nil]

theorem lookup_map_snd {β : Type} (f : α → β) (fields : List (String × α)) (key : String) :
    (fields.map fun field => (field.1, f field.2)).lookup key = (fields.lookup key).map f := by
  induction fields with
  | nil => rfl
  | cons field fields ih =>
    rw [List.map_cons, lookup_cons_eq_ite, lookup_cons_eq_ite, ih]
    split <;> rfl

theorem lookup_eq_some_iff_mem {fields : List (String × α)} (hkeys : (fields.map Prod.fst).Nodup)
    {key : String} {value : α} : fields.lookup key = some value ↔ (key, value) ∈ fields := by
  induction fields with
  | nil => simp
  | cons field fields ih =>
    obtain ⟨k, v⟩ := field
    rw [List.map_cons, List.nodup_cons] at hkeys
    rw [lookup_cons_eq_ite, List.mem_cons, Prod.mk.injEq]
    by_cases h : key = k
    · have hmem : (key, value) ∉ fields := fun hmem =>
        hkeys.1 (List.mem_map.2 ⟨(key, value), hmem, h⟩)
      rw [if_pos h, Option.some.injEq, eq_comm, and_iff_right h, or_iff_left hmem]
    · rw [if_neg h, ih hkeys.2, or_iff_right (fun heq => h heq.1)]

theorem Value.sortedItems_eq_map (items : List Value) : sortedItems items = items.map sorted := by
  induction items with
  | nil => rfl
  | cons item items ih => rw [sortedItems, ih, List.map_cons]

theorem Value.sortedFields_eq_map (fields : List (String × Value)) :
    sortedFields fields = fields.map fun field => (field.1, field.2.sorted) := by
  induction fields with
  | nil => rfl
  | cons field fields ih => rw [sortedFields, ih, List.map_cons]

end SeriesQuery.Json
