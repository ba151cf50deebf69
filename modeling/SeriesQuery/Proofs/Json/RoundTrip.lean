import Mathlib.Data.List.Forall2
import SeriesQuery.Proofs.Json.Building
import SeriesQuery.Proofs.Json.Records
import SeriesQuery.Proofs.Json.Sorting

/-!
# Reading back what was written

`ReadsBack read depth v a` says that `v` is a written form of `a`: the reader gets `a` from the
text of `v` as well as from `v` itself. The depth is the number of containers that are open within
each other in `v`.
-/

namespace SeriesQuery.Json

namespace Origin

/-- Whether containers of a given depth may be opened here. -/
def Allows (depth : Nat) : Origin → Prop
  | .text room => depth ≤ room
  | .value => True

theorem allows_start {depth : Nat} (hdepth : depth ≤ 127) : start.Allows depth := hdepth

theorem Allows.mono {depth depth' : Nat} {origin : Origin} (hle : depth ≤ depth')
    (h : origin.Allows depth') : origin.Allows depth := by
  cases origin with
  | text room => exact Nat.le_trans hle h
  | value => exact h

theorem Allows.exists_enter {ε : Type} {depth : Nat} {origin : Origin}
    (h : origin.Allows (depth + 1)) :
    ∃ inside : Origin, (origin.enter : Except (Fault ε) Origin) = .ok inside ∧
      inside.Allows depth := by
  cases origin with
  | text room =>
    cases room with
    | zero => exact absurd h (Nat.not_succ_le_zero depth)
    | succ room => exact ⟨.text room, rfl, Nat.le_of_succ_le_succ h⟩
  | value => exact ⟨.value, rfl, trivial⟩

end Origin

variable {ε α β σ : Type}

structure ReadsBack (read : Origin → Node → Except (Fault ε) α) (depth : Nat) (v : Value)
    (a : α) : Prop where
  integral : v.IsIntegral
  written : ∀ {origin : Origin}, origin.Allows depth → read origin (Node.ofValue v) = .ok a
  sorted : ∀ {origin : Origin}, origin.Allows depth → read origin (Node.ofValue v.sorted) = .ok a

namespace ReadsBack

variable {read : Origin → Node → Except (Fault ε) α} {depth depth' : Nat} {v : Value} {a : α}

theorem readText_eq (h : ReadsBack read depth v a) (hdepth : depth ≤ 127) :
    readText read v.text = .ok a := by
  rw [readText_text read h.integral]
  exact h.written (Origin.allows_start hdepth)

theorem readFrom_eq (h : ReadsBack read depth v a) : readFrom read v = .ok a := by
  have hallows : Origin.value.Allows depth := trivial
  exact h.sorted hallows

/-- What a node was written for is determined by the node. -/
theorem eq_of_ofValue_eq (h : ReadsBack read depth v a) {w : Value} {b : α}
    (h' : ReadsBack read depth w b) (heq : Node.ofValue v = Node.ofValue w) : a = b := by
  have hallows : Origin.value.Allows depth := trivial
  have hread := h.written hallows
  rw [heq, h'.written hallows] at hread
  exact (Except.ok.inj hread).symm

theorem mono (h : ReadsBack read depth v a) (hle : depth ≤ depth') :
    ReadsBack read depth' v a where
  integral := h.integral
  written hallows := h.written (hallows.mono hle)
  sorted hallows := h.sorted (hallows.mono hle)

/-- A computation that comes after the reading. -/
theorem bind (h : ReadsBack read depth v a) {f : α → Except (Fault ε) β} {b : β}
    (hf : f a = .ok b) : ReadsBack (fun origin node => read origin node >>= f) depth v b where
  integral := h.integral
  written hallows := by rw [h.written hallows, Except.ok_bind, hf]
  sorted hallows := by rw [h.sorted hallows, Except.ok_bind, hf]

theorem string (s : String) :
    ReadsBack (fun _ node => (node.readString : Except (Fault ε) String)) 0 (.string s) s :=
  ⟨trivial, fun _ => rfl, fun _ => rfl⟩

theorem bool (b : Bool) :
    ReadsBack (fun _ node => (node.readBool : Except (Fault ε) Bool)) 0 (.bool b) b :=
  ⟨trivial, fun _ => rfl, fun _ => rfl⟩

theorem option_none : ReadsBack (fun origin node => node.readOption (read origin)) depth .null none :=
  ⟨trivial, fun _ => rfl, fun _ => rfl⟩

theorem option_some (h : ReadsBack read depth v a) (hv : v ≠ .null) :
    ReadsBack (fun origin node => node.readOption (read origin)) depth v (some a) where
  integral := h.integral
  written hallows := by
    rw [Node.readOption_of_ne (Node.ofValue_ne_null hv), h.written hallows, Except.map]
  sorted hallows := by
    have hsorted : v.sorted ≠ .null := by
      cases v with
      | null => exact absurd rfl hv
      | bool | number | string | array | object => exact Value.noConfusion
    rw [Node.readOption_of_ne (Node.ofValue_ne_null hsorted), h.sorted hallows, Except.map]

/-! ### Arrays -/

theorem areIntegral {vs : List Value} {as : List α} (h : List.Forall₂ (ReadsBack read depth) vs as) :
    Value.AreIntegral vs := by
  induction h with
  | nil => trivial
  | cons hitem _ ih => exact ⟨hitem.integral, ih⟩

theorem readItems_ofItems {vs : List Value} {as : List α}
    (h : List.Forall₂ (ReadsBack read depth) vs as) {origin : Origin}
    (hallows : origin.Allows depth) :
    Node.readItems (read origin) true (Node.ofItems vs) = .ok as ∧
      Node.readItems (read origin) true (Node.ofItems (Value.sortedItems vs)) = .ok as := by
  induction h with
  | nil => exact ⟨rfl, rfl⟩
  | cons hitem _ ih =>
    simp only [Value.sortedItems, Node.ofItems, Node.readItems]
    rw [hitem.written hallows, hitem.sorted hallows, ih.1, ih.2]
    exact ⟨rfl, rfl⟩

theorem list {vs : List Value} {as : List α} (h : List.Forall₂ (ReadsBack read depth) vs as) :
    ReadsBack (fun origin node => node.readList origin read) (depth + 1) (.array vs) as where
  integral := areIntegral h
  written hallows := by
    obtain ⟨inside, henter, hinside⟩ := hallows.exists_enter
    rw [Node.ofValue, Node.readList, henter, Except.ok_bind, (readItems_ofItems h hinside).1]
  sorted hallows := by
    obtain ⟨inside, henter, hinside⟩ := hallows.exists_enter
    rw [Value.sorted, Node.ofValue, Node.readList, henter, Except.ok_bind,
      (readItems_ofItems h hinside).2]

theorem list_map {write : α → Value} {as : List α}
    (h : ∀ a ∈ as, ReadsBack read depth (write a) a) :
    ReadsBack (fun origin node => node.readList origin read) (depth + 1) (.array (as.map write))
      as := by
  apply list
  rw [List.forall₂_map_left_iff, List.forall₂_same]
  exact h

/-! ### Objects -/

/-- Fields that lead from one record to another when they are read in their order. -/
inductive Fields (reader : RecordReader ε σ) (depth : Nat) : List (String × Value) → σ → σ → Prop
  | nil (a : σ) : Fields reader depth [] a a
  | cons {key : String} {v : Value} {fields : List (String × Value)} {a b c : σ}
      (hset : ReadsBack (fun origin node => reader.set origin key a node) depth v b)
      (hrest : Fields reader depth fields b c) : Fields reader depth ((key, v) :: fields) a c

variable {reader : RecordReader ε σ} {fields : List (String × Value)} {r r' : σ}

theorem Fields.areIntegral (h : Fields reader depth fields r r') :
    Value.FieldsAreIntegral fields := by
  induction h with
  | nil => trivial
  | cons hset _ ih => exact ⟨hset.integral, ih⟩

theorem Fields.readFields_eq (h : Fields reader depth fields r r') {origin : Origin}
    (hallows : origin.Allows depth) {seen : List String}
    (hknown : fields.map Prod.fst ⊆ reader.shape.fields) (hkeys : (fields.map Prod.fst).Nodup)
    (hseen : ∀ key ∈ fields.map Prod.fst, key ∉ seen)
    (hrequired : ∀ name ∈ reader.shape.required, name ∈ fields.map Prod.fst ∨ name ∈ seen) :
    reader.readFields origin true (Node.ofFields fields) seen r = .ok r' ∧
      reader.readFields origin true (Node.ofFields (Value.sortedFields fields)) seen r =
        .ok r' := by
  induction h generalizing seen with
  | nil a =>
    have hfind : reader.shape.required.find? (· ∉ seen) = none := by
      rw [List.find?_eq_none]
      intro name hname
      simpa using hrequired name hname
    rw [Value.sortedFields, Node.ofFields, RecordReader.readFields, hfind]
    exact ⟨rfl, rfl⟩
  | @cons key v fields a b c hset hrest ih =>
    rw [List.map_cons, List.cons_subset] at hknown
    rw [List.map_cons, List.nodup_cons] at hkeys
    rw [List.map_cons, List.forall_mem_cons] at hseen
    have hseen' : ∀ k ∈ fields.map Prod.fst, k ∉ key :: seen := by
      intro k hk
      rw [List.mem_cons, not_or]
      exact ⟨fun hkey => hkeys.1 (hkey ▸ hk), hseen.2 k hk⟩
    have hrequired' : ∀ name ∈ reader.shape.required,
        name ∈ fields.map Prod.fst ∨ name ∈ key :: seen := by
      intro name hname
      have hname' := hrequired name hname
      rw [List.map_cons, List.mem_cons, or_assoc] at hname'
      rw [List.mem_cons]
      rcases hname' with hkey | hfields | hmem
      · exact .inr (.inl hkey)
      · exact .inl hfields
      · exact .inr (.inr hmem)
    have hrest' := ih hknown.2 hkeys.2 hseen' hrequired'
    simp only [Value.sortedFields, Node.ofFields, RecordReader.readFields, if_pos hknown.1,
      if_neg hseen.1]
    rw [hset.written hallows, hset.sorted hallows]
    exact hrest'

theorem record (hreader : reader.Independent) (h : Fields reader depth fields r r')
    (hknown : fields.map Prod.fst ⊆ reader.shape.fields) (hkeys : (fields.map Prod.fst).Nodup)
    (hrequired : reader.shape.required ⊆ fields.map Prod.fst) :
    ReadsBack (fun origin node => reader.read origin r node) (depth + 1) (.object fields) r' where
  integral := h.areIntegral
  written hallows := by
    obtain ⟨inside, henter, hinside⟩ := hallows.exists_enter
    have hread := h.readFields_eq hinside hknown hkeys (fun _ _ => List.not_mem_nil)
      (fun _ hname => .inl (hrequired hname))
    rw [Node.ofValue, RecordReader.read, henter, Except.ok_bind, hread.1]
  sorted hallows := by
    obtain ⟨inside, henter, hinside⟩ := hallows.exists_enter
    have hread := h.readFields_eq hinside hknown hkeys (fun _ _ => List.not_mem_nil)
      (fun _ hname => .inl (hrequired hname))
    have hkeys' : ((Value.sortedFields fields).map Prod.fst).Nodup := by
      rw [Value.sortedFields_eq_map, List.map_map]
      exact hkeys
    have hperm : (Node.ofFields (Value.sortedFields fields)).Perm
        (Node.ofFields (sortFields (Value.sortedFields fields))) := by
      rw [Node.ofFields_eq_map, Node.ofFields_eq_map]
      exact ((sortFields_perm hkeys').map _).symm
    rw [Value.sorted, Node.ofValue, RecordReader.read, henter, Except.ok_bind]
    exact RecordReader.readFields_perm hreader hperm hread.2

end ReadsBack

end SeriesQuery.Json
