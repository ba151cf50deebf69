import SeriesQuery.Proofs.Json.Nodes
import SeriesQuery.Proofs.Json.Records

/-!
# Reading from a text and from its value

A value that has been read from a text has the fields of its objects sorted, and nothing limits how
deep it is nested. Still a reader gets the same from it as from the text, so long as no object of
the text repeats a key. `ReadsAlike` says so of one reader, and there is a law for each way of
putting readers together.
-/

namespace SeriesQuery.Json

open Node (FieldReads nodup_of_fieldReads)

variable {ε α β σ : Type}

/-- Whether a reader gets the same from a node of a text as from the value of the node. -/
def ReadsAlike (read : Origin → Node → Except (Fault ε) α) : Prop :=
  ∀ ⦃room : Nat⦄ ⦃n : Node⦄ ⦃v : Value⦄,
    (n.readValue (.text room) : Except (Fault ε) Value) = .ok v → n.hasDistinctKeys →
      ∀ a, read (.text room) n = .ok a ↔ read .value (Node.ofValue v) = .ok a

theorem Origin.inside?_text_eq_some {room : Nat} {inside : Origin}
    (h : (Origin.text room).inside? = some inside) : ∃ room', inside = .text room' := by
  cases room with
  | zero => cases h
  | succ room => exact ⟨room, (Option.some.inj h).symm⟩

namespace ReadsAlike

variable {read : Origin → Node → Except (Fault ε) α}

/-- A reader that does not look into containers. -/
theorem of_leaves {read : Node → Except (Fault ε) α}
    (harray : ∀ items, read (.array items true) = read (.array [] true))
    (hobject : ∀ fields, read (.object fields true) = read (.object [] true)) :
    ReadsAlike fun _ => read := by
  intro room n v h _ a
  obtain ⟨-, rfl⟩ | ⟨items, -, vs, rfl, -, -, rfl⟩ | ⟨fields, -, vs, rfl, -, -, rfl⟩ :=
    Node.readValue_cases h
  · rfl
  · change read (.array items true) = .ok a ↔ read (.array (Node.ofItems vs) true) = .ok a
    rw [harray items, harray (Node.ofItems vs)]
  · change read (.object fields true) = .ok a ↔
      read (.object (Node.ofFields (sortFields vs)) true) = .ok a
    rw [hobject fields, hobject (Node.ofFields (sortFields vs))]

/-- A text is read as the value that it holds. -/
theorem readText_eq_ok_iff (h : ReadsAlike read) {text : String} {v : Value}
    (hv : Value.ofText? text = some v) (hkeys : (Document.ofText text).root.hasDistinctKeys) {a : α} :
    readText read text = .ok a ↔ readFrom read v = .ok a := by
  obtain ⟨hsound, hroot⟩ := Json.readText_eq_ok_iff.1 ((Value.ofText?_eq_some_iff ε).1 hv)
  rw [Json.readText_eq_ok_iff, and_iff_right hsound, readFrom, Node.sorted_eq_of_readValue hroot]
  exact h hroot hkeys a

theorem string : ReadsAlike fun _ node => (node.readString : Except (Fault ε) String) :=
  .of_leaves (fun _ => rfl) (fun _ => rfl)

theorem bool : ReadsAlike fun _ node => (node.readBool : Except (Fault ε) Bool) :=
  .of_leaves (fun _ => rfl) (fun _ => rfl)

theorem value : ReadsAlike (Node.readValue : Origin → Node → Except (Fault ε) Value) := by
  intro room n v h _ a
  rw [h, Node.readValue_ofValue_of_readValue h]

/-- A computation that comes after the reading. -/
theorem bind (h : ReadsAlike read) (f : α → Except (Fault ε) β) :
    ReadsAlike fun origin node => read origin node >>= f := by
  intro room n v hn hkeys b
  simp only [Except.bind_eq_ok_iff, h hn hkeys]

theorem ofValue_ne_null {origin : Origin} {n : Node} {v : Value} (hne : n ≠ .null)
    (h : (n.readValue origin : Except (Fault ε) Value) = .ok v) : Node.ofValue v ≠ .null := by
  obtain ⟨-, rfl⟩ | ⟨-, -, vs, -, -, -, rfl⟩ | ⟨-, -, vs, -, -, -, rfl⟩ := Node.readValue_cases h
  · exact hne
  · exact Node.noConfusion
  · exact Node.noConfusion

theorem option (h : ReadsAlike read) :
    ReadsAlike fun origin node => node.readOption (read origin) := by
  intro room n v hn hkeys a
  by_cases hnull : n = .null
  · subst hnull
    cases hn
    rfl
  · change n.readOption (read (.text room)) = .ok a ↔
      (Node.ofValue v).readOption (read .value) = .ok a
    rw [Node.readOption_of_ne hnull, Node.readOption_of_ne (ofValue_ne_null hnull hn),
      Except.map_eq_ok_iff, Except.map_eq_ok_iff]
    simp only [h hn hkeys]

/-! ### Arrays -/

theorem readItems_eq_ok_iff {read : Node → Except (Fault ε) α} {items : List Node} {as : List α} :
    Node.readItems read true items = .ok as ↔
      List.Forall₂ (fun item a => read item = .ok a) items as := by
  induction items generalizing as with
  | nil => simp [Node.readItems, eq_comm]
  | cons item items ih =>
    rw [Node.readItems, List.Forall₂.cons_left_iff]
    simp only [Except.bind_eq_ok_iff, pure, Except.pure, Except.ok.injEq, ih]

theorem forall₂_items (h : ReadsAlike read) {room : Nat} {items : List Node} {vs : List Value}
    (hvs : List.Forall₂
      (fun item v => (item.readValue (.text room) : Except (Fault ε) Value) = .ok v) items vs)
    (hkeys : ∀ item ∈ items, item.hasDistinctKeys) {as : List α} :
    List.Forall₂ (fun item a => read (.text room) item = .ok a) items as ↔
      List.Forall₂ (fun v a => read .value (Node.ofValue v) = .ok a) vs as := by
  induction hvs generalizing as with
  | nil => rw [List.forall₂_nil_left_iff, List.forall₂_nil_left_iff]
  | cons hv _ ih =>
    rw [List.forall_mem_cons] at hkeys
    simp only [List.forall₂_cons_left_iff, h hv hkeys.1, ih hkeys.2]

theorem list (h : ReadsAlike read) :
    ReadsAlike fun origin node => node.readList origin read := by
  intro room n v hn hkeys as
  obtain ⟨hleaf, rfl⟩ | ⟨items, inside, vs, rfl, hin, hvs, rfl⟩ | ⟨fields, -, vs, rfl, -, -, rfl⟩ :=
    Node.readValue_cases hn
  · cases v with
    | array | object => exact hleaf.elim
    | null | bool | number | string => rfl
  · obtain ⟨room', rfl⟩ := Origin.inside?_text_eq_some hin
    rw [Node.hasDistinctKeys_array_iff] at hkeys
    have hvalue : (Origin.value.enter : Except (Fault ε) Origin) = .ok .value := rfl
    simp only [Node.ofValue, Node.readList, Origin.enter_eq_ok_iff.2 hin, hvalue, Except.ok_bind]
    rw [readItems_eq_ok_iff, readItems_eq_ok_iff, h.forall₂_items hvs hkeys,
      Node.ofItems_eq_map, List.forall₂_map_left_iff]
  · rfl

/-! ### Records -/

variable {reader : RecordReader ε σ}

theorem readFields_iff (hset : ∀ key a, ReadsAlike fun origin node => reader.set origin key a node)
    {room : Nat} {fields : List (Option String × Node)} {reads : List (String × Value)}
    (hreads : List.Forall₂ (FieldReads ε (.text room)) fields reads)
    (hkeys : ∀ field ∈ fields, field.2.hasDistinctKeys) {seen : List String} {a c : σ} :
    reader.readFields (.text room) true fields seen a = .ok c ↔
      reader.readFields .value true (Node.ofFields reads) seen a = .ok c := by
  induction hreads generalizing seen a with
  | nil => rfl
  | @cons field read fields reads hfield _ ih =>
    obtain ⟨_, node⟩ := field
    obtain ⟨key, v⟩ := read
    obtain ⟨rfl, hv⟩ := hfield
    rw [List.forall_mem_cons] at hkeys
    rw [Node.ofFields, RecordReader.readFields, RecordReader.readFields]
    by_cases hknown : key ∈ reader.shape.fields
    · by_cases hseen : key ∈ seen
      · simp only [if_pos hknown, if_pos hseen]
      · simp only [if_pos hknown, if_neg hseen, Except.bind_eq_ok_iff,
          hset key a hv hkeys.1, ih hkeys.2]
    · have hwhole := Node.isWhole_of_readValue hv
      have hwhole' := Node.isWhole_of_readValue (Node.readValue_ofValue_of_readValue hv)
      simp only [if_neg hknown, Node.skip, if_pos hwhole, if_pos hwhole', Except.ok_bind,
        ih hkeys.2]

theorem readElements_iff
    (hset : ∀ key a, ReadsAlike fun origin node => reader.set origin key a node) {room : Nat}
    {names : List String} {items : List Node} {vs : List Value}
    (hvs : List.Forall₂
      (fun item v => (item.readValue (.text room) : Except (Fault ε) Value) = .ok v) items vs)
    (hkeys : ∀ item ∈ items, item.hasDistinctKeys) {a c : σ} :
    reader.readElements (.text room) names items a = .ok c ↔
      reader.readElements .value names (Node.ofItems vs) a = .ok c := by
  induction hvs generalizing names a with
  | nil => cases names <;> rfl
  | cons hv _ ih =>
    cases names with
    | nil => rfl
    | cons name names =>
      rw [List.forall_mem_cons] at hkeys
      simp only [Node.ofItems, RecordReader.readElements, Except.bind_eq_ok_iff,
        hset name a hv hkeys.1, ih hkeys.2]

/-- An array with too many elements is refused in both, though not for the same fault. -/
theorem checkLength_iff {room count : Nat} {u : Unit} :
    reader.checkLength (.text room) true count = .ok u ↔
      reader.checkLength .value true count = .ok u := by
  unfold RecordReader.checkLength
  split
  next => rfl
  next => simp

theorem record (hreader : reader.Independent)
    (hset : ∀ key a, ReadsAlike fun origin node => reader.set origin key a node) (initial : σ) :
    ReadsAlike fun origin node => reader.read origin initial node := by
  intro room n v hn hkeys a
  have hvalue : (Origin.value.enter : Except (Fault ε) Origin) = .ok .value := rfl
  obtain ⟨hleaf, rfl⟩ | ⟨items, inside, vs, rfl, hin, hvs, rfl⟩ |
      ⟨fields, inside, vs, rfl, hin, hvs, rfl⟩ := Node.readValue_cases hn
  · cases v with
    | array | object => exact hleaf.elim
    | null | bool | number | string => rfl
  · obtain ⟨room', rfl⟩ := Origin.inside?_text_eq_some hin
    rw [Node.hasDistinctKeys_array_iff] at hkeys
    have hlength : (Node.ofItems vs).length = items.length := by
      rw [Node.ofItems_eq_map, List.length_map, hvs.length_eq]
    simp only [Node.ofValue, RecordReader.read, Origin.enter_eq_ok_iff.2 hin, hvalue,
      Except.ok_bind, Except.bind_eq_ok_iff, readElements_iff hset hvs hkeys, hlength,
      checkLength_iff]
  · obtain ⟨room', rfl⟩ := Origin.inside?_text_eq_some hin
    rw [Node.hasDistinctKeys_object_iff] at hkeys
    simp only [Node.ofValue, RecordReader.read, Origin.enter_eq_ok_iff.2 hin, hvalue, Except.ok_bind]
    rw [readFields_iff hset hvs hkeys.2]
    have hperm : (Node.ofFields (sortFields vs)).Perm (Node.ofFields vs) := by
      rw [Node.ofFields_eq_map, Node.ofFields_eq_map]
      exact (sortFields_perm (nodup_of_fieldReads hvs hkeys.1)).map _
    exact ⟨RecordReader.readFields_perm hreader hperm.symm,
      RecordReader.readFields_perm hreader hperm⟩

end ReadsAlike

end SeriesQuery.Json
