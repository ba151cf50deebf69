import Mathlib.Data.List.Nodup
import Mathlib.Data.List.Perm.Basic
import SeriesQuery.Proofs.Json.Building
import SeriesQuery.Proofs.Json.Sorting
import SeriesQuery.Proofs.Outcome

/-!
# Nodes that hold a value

A node that can be read as a value is whole, and its value has the fields of every object sorted.
The value is read back as itself. Where no object repeats a key, the fields may stand in any other
order: the value is the same.
-/

namespace SeriesQuery.Json

variable {ε ε' : Type}

theorem Origin.enter_eq_ok_iff {origin inside : Origin} :
    (origin.enter : Except (Fault ε) Origin) = .ok inside ↔ origin.inside? = some inside := by
  unfold enter
  cases origin.inside? <;> simp

/-- Whether a value has neither items nor fields. -/
def Value.IsLeaf : Value → Prop
  | .array _ => False
  | .object _ => False
  | _ => True

namespace Node

/-- What holds of a node whenever it holds of the nodes just inside of it holds of every node. -/
@[elab_as_elim]
theorem nestedInduction {motive : Node → Prop} (null : motive .null)
    (bool : ∀ b, motive (.bool b)) (number : ∀ n, motive (.number n))
    (string : ∀ s, motive (.string s))
    (array : ∀ items closed, (∀ item ∈ items, motive item) → motive (.array items closed))
    (object : ∀ fields closed, (∀ field ∈ fields, motive field.2) → motive (.object fields closed))
    (broken : motive .broken) (n : Node) : motive n := by
  refine @Node.rec motive (fun items => ∀ item ∈ items, motive item)
    (fun fields => ∀ field ∈ fields, motive field.2) (fun field => motive field.2)
    null bool number string (fun items closed h => array items closed h)
    (fun fields closed h => object fields closed h) broken ?_ ?_ ?_ ?_ ?_ n
  · exact fun _ h => (List.not_mem_nil h).elim
  · exact fun item items hitem hitems => List.forall_mem_cons.2 ⟨hitem, hitems⟩
  · exact fun _ h => (List.not_mem_nil h).elim
  · exact fun field fields hfield hfields => List.forall_mem_cons.2 ⟨hfield, hfields⟩
  · exact fun _ node h => h

theorem ofItems_eq_map (items : List Value) : ofItems items = items.map ofValue := by
  induction items with
  | nil => rfl
  | cons item items ih => rw [ofItems, ih, List.map_cons]

/-! ### Reading values -/

section

variable {origin : Origin} {items : List Node} {fields : List (Option String × Node)} {closed : Bool}
  {v : Value}

theorem readValues_eq_ok_iff {vs : List Value} :
    (readValues origin items : Except (Fault ε) (List Value)) = .ok vs ↔
      List.Forall₂ (fun item v => (readValue origin item : Except (Fault ε) Value) = .ok v)
        items vs := by
  induction items generalizing vs with
  | nil => simp [readValues, eq_comm]
  | cons item items ih =>
    rw [readValues, List.Forall₂.cons_left_iff]
    simp only [Except.bind_eq_ok_iff, pure, Except.pure, Except.ok.injEq, ih]

/-- Whether a field in a text is read as a field of a value. -/
def FieldReads (ε : Type) (origin : Origin) (field : Option String × Node)
    (read : String × Value) : Prop :=
  field.1 = some read.1 ∧ (readValue origin field.2 : Except (Fault ε) Value) = .ok read.2

theorem readFields_eq_ok_iff {vs : List (String × Value)} :
    (readFields origin fields : Except (Fault ε) (List (String × Value))) = .ok vs ↔
      List.Forall₂ (FieldReads ε origin) fields vs := by
  induction fields generalizing vs with
  | nil => simp [readFields, eq_comm]
  | cons field fields ih =>
    obtain ⟨key, node⟩ := field
    rw [List.forall₂_cons_left_iff]
    cases key with
    | none => simp [readFields, FieldReads]
    | some key =>
      rw [readFields]
      simp only [Except.bind_eq_ok_iff, pure, Except.pure, Except.ok.injEq, ih, FieldReads,
        Option.some.injEq]
      constructor
      · rintro ⟨v, hv, vs', hvs, rfl⟩
        exact ⟨(key, v), vs', ⟨rfl, hv⟩, hvs, rfl⟩
      · rintro ⟨⟨_, v⟩, vs', ⟨rfl, hv⟩, hvs, rfl⟩
        exact ⟨v, hv, vs', hvs, rfl⟩

theorem readValue_array_eq_ok_iff :
    (readValue origin (.array items closed) : Except (Fault ε) Value) = .ok v ↔
      closed = true ∧ ∃ inside vs, origin.inside? = some inside ∧
        List.Forall₂ (fun item v => (readValue inside item : Except (Fault ε) Value) = .ok v)
          items vs ∧ v = .array vs := by
  cases closed with
  | false => simp [readValue]
  | true =>
    simp only [readValue, Except.bind_eq_ok_iff, Origin.enter_eq_ok_iff, readValues_eq_ok_iff,
      pure, Except.pure, Except.ok.injEq, true_and]
    constructor
    · rintro ⟨inside, hin, vs, hvs, rfl⟩
      exact ⟨inside, vs, hin, hvs, rfl⟩
    · rintro ⟨inside, vs, hin, hvs, rfl⟩
      exact ⟨inside, hin, vs, hvs, rfl⟩

theorem readValue_object_eq_ok_iff :
    (readValue origin (.object fields closed) : Except (Fault ε) Value) = .ok v ↔
      closed = true ∧ ∃ inside vs, origin.inside? = some inside ∧
        List.Forall₂ (FieldReads ε inside) fields vs ∧ v = .object (sortFields vs) := by
  cases closed with
  | false => simp [readValue]
  | true =>
    simp only [readValue, Except.bind_eq_ok_iff, Origin.enter_eq_ok_iff, readFields_eq_ok_iff,
      pure, Except.pure, Except.ok.injEq, true_and]
    constructor
    · rintro ⟨inside, hin, vs, hvs, rfl⟩
      exact ⟨inside, vs, hin, hvs, rfl⟩
    · rintro ⟨inside, vs, hin, hvs, rfl⟩
      exact ⟨inside, hin, vs, hvs, rfl⟩

end

/-- A node that is read as a value is the node of a leaf, or its items or fields are read. -/
@[elab_as_elim]
theorem readValue_induction {motive : Origin → Node → Value → Prop}
    (leaf : ∀ origin v, v.IsLeaf → motive origin (ofValue v) v)
    (array : ∀ origin inside items vs, origin.inside? = some inside →
      List.Forall₂ (fun item v => (readValue inside item : Except (Fault ε) Value) = .ok v ∧
        motive inside item v) items vs →
      motive origin (.array items true) (.array vs))
    (object : ∀ origin inside fields vs, origin.inside? = some inside →
      List.Forall₂ (fun field read => FieldReads ε inside field read ∧
        motive inside field.2 read.2) fields vs →
      motive origin (.object fields true) (.object (sortFields vs)))
    {origin : Origin} {n : Node} {v : Value}
    (h : (readValue origin n : Except (Fault ε) Value) = .ok v) : motive origin n v := by
  induction n using nestedInduction generalizing origin v with
  | null => cases h; exact leaf origin .null trivial
  | bool b => cases h; exact leaf origin (.bool b) trivial
  | number n => cases n <;> cases h; exact leaf origin (.number _) trivial
  | string s => cases s <;> cases h; exact leaf origin (.string _) trivial
  | array items closed ih =>
    obtain ⟨rfl, inside, vs, hin, hvs, rfl⟩ := readValue_array_eq_ok_iff.1 h
    exact array origin inside items vs hin (((List.forall₂_and_left _ _).2 ⟨ih, hvs⟩).imp
      fun item v hitem => ⟨hitem.2, hitem.1 hitem.2⟩)
  | object fields closed ih =>
    obtain ⟨rfl, inside, vs, hin, hvs, rfl⟩ := readValue_object_eq_ok_iff.1 h
    exact object origin inside fields vs hin (((List.forall₂_and_left _ _).2 ⟨ih, hvs⟩).imp
      fun field read hfield => ⟨hfield.2, hfield.1 hfield.2.2⟩)
  | broken => cases h

theorem readValue_cases {n : Node} {origin : Origin} {v : Value}
    (h : (readValue origin n : Except (Fault ε) Value) = .ok v) :
    (v.IsLeaf ∧ n = ofValue v) ∨
    (∃ items inside vs, n = .array items true ∧ origin.inside? = some inside ∧
      List.Forall₂ (fun item v => (readValue inside item : Except (Fault ε) Value) = .ok v)
        items vs ∧ v = .array vs) ∨
    ∃ fields inside vs, n = .object fields true ∧ origin.inside? = some inside ∧
      List.Forall₂ (FieldReads ε inside) fields vs ∧ v = .object (sortFields vs) := by
  refine readValue_induction (fun _ v hleaf => ?leaf) (fun _ inside items vs hin hvs => ?array)
    (fun _ inside fields vs hin hvs => ?object) h
  case leaf => exact .inl ⟨hleaf, rfl⟩
  case array =>
    exact .inr (.inl ⟨items, inside, vs, rfl, hin, hvs.imp fun _ _ hitem => hitem.1, rfl⟩)
  case object =>
    exact .inr (.inr ⟨fields, inside, vs, rfl, hin, hvs.imp fun _ _ hfield => hfield.1, rfl⟩)

/-- What may be wrong with typed content is no matter to the reading of a value. -/
theorem readValue_eq_ok_of_content {n : Node} {origin : Origin} {v : Value}
    (h : (readValue origin n : Except (Fault ε) Value) = .ok v) :
    (readValue origin n : Except (Fault ε') Value) = .ok v := by
  refine readValue_induction (fun origin v hleaf => ?leaf)
    (fun origin inside items vs hin hvs => ?array)
    (fun origin inside fields vs hin hvs => ?object) h
  case leaf =>
    cases v with
    | array | object => exact hleaf.elim
    | null | bool | number | string => rfl
  case array =>
    exact readValue_array_eq_ok_iff.2 ⟨rfl, inside, vs, hin, hvs.imp fun _ _ hitem => hitem.2, rfl⟩
  case object =>
    exact readValue_object_eq_ok_iff.2
      ⟨rfl, inside, vs, hin, hvs.imp fun _ _ hfield => ⟨hfield.1.1, hfield.2⟩, rfl⟩

theorem areWhole_iff {items : List Node} : areWhole items ↔ ∀ item ∈ items, item.isWhole := by
  induction items with
  | nil => simp [areWhole]
  | cons item items ih => rw [areWhole, Bool.and_eq_true, ih, List.forall_mem_cons]

theorem fieldsAreWhole_iff {fields : List (Option String × Node)} :
    fieldsAreWhole fields ↔ ∀ field ∈ fields, field.2.isWhole := by
  induction fields with
  | nil => simp [fieldsAreWhole]
  | cons field fields ih =>
    obtain ⟨key, node⟩ := field
    rw [fieldsAreWhole, Bool.and_eq_true, ih, List.forall_mem_cons]

theorem isWhole_of_readValue {n : Node} {origin : Origin} {v : Value}
    (h : (readValue origin n : Except (Fault ε) Value) = .ok v) : n.isWhole := by
  refine readValue_induction (fun _ v hleaf => ?leaf) (fun _ inside items vs _ hvs => ?array)
    (fun _ inside fields vs _ hvs => ?object) h
  case leaf =>
    cases v with
    | array | object => exact hleaf.elim
    | null | bool | number | string => rfl
  case array =>
    rw [isWhole, Bool.and_true, areWhole_iff]
    intro item hitem
    obtain ⟨v, -, hv⟩ := hvs.exists_of_mem_left hitem
    exact hv.2
  case object =>
    rw [isWhole, Bool.and_true, fieldsAreWhole_iff]
    intro field hfield
    obtain ⟨read, -, hread⟩ := hvs.exists_of_mem_left hfield
    exact hread.2

/-- The value of a node is read back as itself, since its fields are in order already. -/
theorem readValue_ofValue_of_readValue {n : Node} {origin : Origin} {v : Value}
    (h : (readValue origin n : Except (Fault ε) Value) = .ok v) :
    (readValue .value (ofValue v) : Except (Fault ε) Value) = .ok v := by
  refine readValue_induction (fun _ v hleaf => ?leaf) (fun _ inside items vs _ hvs => ?array)
    (fun _ inside fields vs _ hvs => ?object) h
  case leaf =>
    cases v with
    | array | object => exact hleaf.elim
    | null | bool | number | string => rfl
  case array =>
    refine readValue_array_eq_ok_iff.2 ⟨rfl, .value, vs, rfl, ?_, rfl⟩
    rw [ofItems_eq_map, List.forall₂_map_left_iff, List.forall₂_same]
    intro v hv
    obtain ⟨item, -, hitem⟩ := hvs.exists_of_mem_right hv
    exact hitem.2
  case object =>
    have hsorted := (keysAscend_sortFields vs).sortFields_eq
    refine readValue_object_eq_ok_iff.2 ⟨rfl, .value, sortFields vs, rfl, ?_, by rw [hsorted]⟩
    rw [ofFields_eq_map, List.forall₂_map_left_iff, List.forall₂_same]
    intro read hread
    obtain ⟨field, -, hfield⟩ := hvs.exists_of_mem_right (mem_sortFields hread)
    exact ⟨rfl, hfield.2⟩

theorem sorted_eq_of_readValue {n : Node} {origin : Origin} {v : Value}
    (h : (readValue origin n : Except (Fault ε) Value) = .ok v) : v.sorted = v := by
  refine readValue_induction (fun _ v hleaf => ?leaf) (fun _ inside items vs _ hvs => ?array)
    (fun _ inside fields vs _ hvs => ?object) h
  case leaf =>
    cases v with
    | array | object => exact hleaf.elim
    | null | bool | number | string => rfl
  case array =>
    have hitems : ∀ v ∈ vs, v.sorted = v := by
      intro v hv
      obtain ⟨item, -, hitem⟩ := hvs.exists_of_mem_right hv
      exact hitem.2
    rw [Value.sorted, Value.sortedItems_eq_map, List.map_congr_left hitems, List.map_id']
  case object =>
    have hfields : ∀ read ∈ sortFields vs, (read.1, read.2.sorted) = read := by
      intro read hread
      obtain ⟨field, -, hfield⟩ := hvs.exists_of_mem_right (mem_sortFields hread)
      rw [hfield.2]
    rw [Value.sorted, Value.sortedFields_eq_map, List.map_congr_left hfields, List.map_id',
      (keysAscend_sortFields vs).sortFields_eq]

/-! ### The order of fields -/

mutual

/-- Whether no object within a node repeats a key. -/
def hasDistinctKeys : Node → Bool
  | .array items _ => haveDistinctKeys items
  | .object fields _ => decide (fields.map Prod.fst).Nodup && fieldsHaveDistinctKeys fields
  | _ => true

def haveDistinctKeys : List Node → Bool
  | [] => true
  | item :: items => item.hasDistinctKeys && haveDistinctKeys items

def fieldsHaveDistinctKeys : List (Option String × Node) → Bool
  | [] => true
  | (_, node) :: fields => node.hasDistinctKeys && fieldsHaveDistinctKeys fields

end

/-- Two nodes that differ at most in the order of the fields of their objects. -/
inductive Reordered : Node → Node → Prop
  | refl (n : Node) : Reordered n n
  | array {items items' : List Node} {closed : Bool} (hitems : List.Forall₂ Reordered items items') :
    Reordered (.array items closed) (.array items' closed)
  | object {fields between fields' : List (Option String × Node)} {closed : Bool}
    (hkeys : fields.map Prod.fst = between.map Prod.fst)
    (hnodes : List.Forall₂ Reordered (fields.map Prod.snd) (between.map Prod.snd))
    (hperm : between.Perm fields') :
    Reordered (.object fields closed) (.object fields' closed)

section

variable {items : List Node} {fields : List (Option String × Node)} {closed : Bool}

theorem hasDistinctKeys_array_iff :
    (array items closed).hasDistinctKeys ↔ ∀ item ∈ items, item.hasDistinctKeys := by
  rw [hasDistinctKeys]
  induction items with
  | nil => simp [haveDistinctKeys]
  | cons item items ih => rw [haveDistinctKeys, Bool.and_eq_true, ih, List.forall_mem_cons]

theorem hasDistinctKeys_object_iff :
    (object fields closed).hasDistinctKeys ↔
      (fields.map Prod.fst).Nodup ∧ ∀ field ∈ fields, field.2.hasDistinctKeys := by
  have hfields : fieldsHaveDistinctKeys fields ↔ ∀ field ∈ fields, field.2.hasDistinctKeys := by
    induction fields with
    | nil => simp [fieldsHaveDistinctKeys]
    | cons field fields ih =>
      obtain ⟨key, node⟩ := field
      rw [fieldsHaveDistinctKeys, Bool.and_eq_true, ih, List.forall_mem_cons]
  rw [hasDistinctKeys, Bool.and_eq_true, decide_eq_true_eq, hfields]

/-- The keys that are read are those of the fields. -/
theorem map_fst_of_fieldReads {origin : Origin} {reads : List (String × Value)}
    (h : List.Forall₂ (FieldReads ε origin) fields reads) :
    fields.map Prod.fst = reads.map (some ∘ Prod.fst) := by
  induction h with
  | nil => rfl
  | cons hfield _ ih => rw [List.map_cons, List.map_cons, ih, hfield.1, Function.comp_apply]

theorem nodup_of_fieldReads {origin : Origin} {reads : List (String × Value)}
    (h : List.Forall₂ (FieldReads ε origin) fields reads) (hkeys : (fields.map Prod.fst).Nodup) :
    (reads.map Prod.fst).Nodup := by
  rw [map_fst_of_fieldReads h, ← List.map_map] at hkeys
  exact List.Nodup.of_map some hkeys

/-- Fields with the same keys, and with nodes that are read as the nodes before. -/
theorem fieldReads_of_reordered {fields between : List (Option String × Node)} {origin : Origin}
    {reads : List (String × Value)} (hnames : fields.map Prod.fst = between.map Prod.fst)
    (hnodes : List.Forall₂ Reordered (fields.map Prod.snd) (between.map Prod.snd))
    (hread : ∀ field ∈ fields, ∀ {n' : Node} {v : Value}, field.2.Reordered n' →
      (readValue origin field.2 : Except (Fault ε) Value) = .ok v →
      (readValue origin n' : Except (Fault ε) Value) = .ok v)
    (h : List.Forall₂ (FieldReads ε origin) fields reads) :
    List.Forall₂ (FieldReads ε origin) between reads := by
  induction h generalizing between with
  | nil =>
    rw [List.map_nil, eq_comm, List.map_eq_nil_iff] at hnames
    rw [hnames]
    exact .nil
  | @cons field read fields reads hfield _ ih =>
    cases between with
    | nil => cases hnames
    | cons moved between =>
      rw [List.forall_mem_cons] at hread
      simp only [List.map_cons, List.cons.injEq, List.forall₂_cons] at hnames hnodes
      exact .cons ⟨hnames.1 ▸ hfield.1, hread.1 hnodes.1 hfield.2⟩ (ih hnames.2 hnodes.2 hread.2)

end

theorem Reordered.hasDistinctKeys {n n' : Node} (h : n.Reordered n') (hkeys : n.hasDistinctKeys) :
    n'.hasDistinctKeys := by
  induction n using nestedInduction generalizing n' with
  | null | bool | number | string | broken => cases h; exact hkeys
  | array items closed ih =>
    cases h with
    | refl => exact hkeys
    | @array _ items' _ hitems =>
      rw [hasDistinctKeys_array_iff] at hkeys ⊢
      intro item' hmem'
      obtain ⟨item, hmem, hitem⟩ := hitems.exists_of_mem_right hmem'
      exact ih item hmem hitem (hkeys item hmem)
  | object fields closed ih =>
    cases h with
    | refl => exact hkeys
    | @object _ between fields' _ hnames hnodes hperm =>
      rw [hasDistinctKeys_object_iff] at hkeys ⊢
      constructor
      · rw [hnames] at hkeys
        exact (hperm.map Prod.fst).nodup_iff.1 hkeys.1
      · intro field' hmem'
        have hnode' := List.mem_map_of_mem (f := Prod.snd) (hperm.mem_iff.2 hmem')
        obtain ⟨node, hnode, hmoved⟩ := hnodes.exists_of_mem_right hnode'
        obtain ⟨field, hmem, rfl⟩ := List.mem_map.1 hnode
        exact ih field hmem hmoved (hkeys.2 field hmem)

/-- The value of a node does not depend on the order of its fields. -/
theorem Reordered.readValue_eq {n n' : Node} (h : n.Reordered n') (hkeys : n.hasDistinctKeys)
    {origin : Origin} {v : Value} (hn : (readValue origin n : Except (Fault ε) Value) = .ok v) :
    (readValue origin n' : Except (Fault ε) Value) = .ok v := by
  induction n using nestedInduction generalizing n' origin v with
  | null | bool | number | string | broken => cases h; exact hn
  | array items closed ih =>
    cases h with
    | refl => exact hn
    | @array _ items' _ hitems =>
      obtain ⟨rfl, inside, vs, hin, hvs, rfl⟩ := readValue_array_eq_ok_iff.1 hn
      rw [hasDistinctKeys_array_iff] at hkeys
      refine readValue_array_eq_ok_iff.2 ⟨rfl, inside, vs, hin, ?_, rfl⟩
      clear hn
      induction hitems generalizing vs with
      | nil => exact hvs
      | @cons item item' items items' hitem _ ihitems =>
        rw [List.forall_mem_cons] at ih hkeys
        cases hvs with
        | cons hv hvs =>
          exact .cons (ih.1 hitem hkeys.1 hv) (ihitems ih.2 hkeys.2 _ hvs)
  | object fields closed ih =>
    cases h with
    | refl => exact hn
    | @object _ between fields' _ hnames hnodes hperm =>
      obtain ⟨rfl, inside, vs, hin, hvs, rfl⟩ := readValue_object_eq_ok_iff.1 hn
      rw [hasDistinctKeys_object_iff] at hkeys
      have hbetween := fieldReads_of_reordered hnames hnodes
        (fun field hfield _ _ hmoved hread => ih field hfield hmoved (hkeys.2 field hfield) hread) hvs
      obtain ⟨vs', hvs', hperm'⟩ := List.perm_comp_forall₂ hperm.symm hbetween
      have hsorted := sortFields_eq_of_perm hperm'.symm (nodup_of_fieldReads hvs hkeys.1)
      exact readValue_object_eq_ok_iff.2 ⟨rfl, inside, vs', hin, hvs', by rw [hsorted]⟩

end Node

/-! ### The value of a text -/

theorem readText_eq_ok_iff {ε α : Type} {read : Origin → Node → Except (Fault ε) α} {text : String}
    {a : α} :
    readText read text = .ok a ↔
      (Document.ofText text).sound ∧ read .start (Document.ofText text).root = .ok a := by
  unfold readText
  simp only [Except.bind_eq_ok_iff]
  cases (Document.ofText text).sound <;> simp [pure, Except.pure]

theorem Value.ofText?_eq_some_iff (ε : Type) {text : String} {value : Value} :
    ofText? text = some value ↔
      (readText Node.readValue text : Except (Fault ε) Value) = .ok value := by
  have hempty : ofText? text = some value ↔
      (readText Node.readValue text : Except (Fault Empty) Value) = .ok value := by
    unfold ofText?
    cases (readText Node.readValue text : Except (Fault Empty) Value) <;> simp
  rw [hempty, readText_eq_ok_iff, readText_eq_ok_iff]
  exact and_congr_right fun _ =>
    ⟨Node.readValue_eq_ok_of_content, Node.readValue_eq_ok_of_content⟩

end SeriesQuery.Json
