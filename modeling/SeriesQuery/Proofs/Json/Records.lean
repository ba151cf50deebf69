import SeriesQuery.Json.Reading
import SeriesQuery.Proofs.Outcome

/-!
# Records read from objects

What a record reader accepts does not depend on the order of the fields of the object, as long as
each field of the record is set apart from the others.
-/

namespace SeriesQuery.Json.RecordReader

variable {ε σ : Type} (reader : RecordReader ε σ)

/-- Fields with different names may be set in either order. -/
def Independent : Prop :=
  ∀ ⦃origin : Origin⦄ ⦃name name' : String⦄ ⦃node node' : Node⦄ ⦃a b c : σ⦄, name ≠ name' →
    reader.set origin name a node = .ok b → reader.set origin name' b node' = .ok c →
    ∃ d, reader.set origin name' a node' = .ok d ∧ reader.set origin name d node = .ok c

/-- It is enough that each field is set by an update that depends on its node alone, and that the
updates of different fields commute. -/
theorem Independent.of_updates {reader : RecordReader ε σ} (Update : String → (σ → σ) → Prop)
    (hset : ∀ {origin : Origin} {name : String} {node : Node} {a b : σ},
      reader.set origin name a node = .ok b → ∃ update, Update name update ∧ b = update a ∧
        ∀ a', reader.set origin name a' node = .ok (update a'))
    (hcomm : ∀ {name name' : String} {update update' : σ → σ}, name ≠ name' →
      Update name update → Update name' update' → ∀ a, update (update' a) = update' (update a)) :
    reader.Independent := by
  intro origin name name' node node' a b c hne hb hc
  obtain ⟨update, hupdate, rfl, hall⟩ := hset hb
  obtain ⟨update', hupdate', rfl, hall'⟩ := hset hc
  refine ⟨update' a, hall' a, ?_⟩
  rw [hall, hcomm hne hupdate hupdate']

/-- A field whose value is read first and then put into the record. -/
theorem exists_update_of_bind {α : Type} {value : Except (Fault ε) α} {put : α → σ → σ}
    {Update : (σ → σ) → Prop} (hput : ∀ v, Update (put v)) {a b : σ}
    (h : (value >>= fun v => pure (put v a)) = .ok b) :
    ∃ update, Update update ∧ b = update a ∧
      ∀ a', (value >>= fun v => pure (put v a')) = .ok (update a') := by
  obtain ⟨v, hv, hb⟩ := Except.bind_eq_ok_iff.1 h
  refine ⟨put v, hput v, (Except.ok.inj hb).symm, fun a' => ?_⟩
  rw [hv]
  rfl

/-- A field that can be read where the names in `seen` have been read before, with the record and
the names after it. -/
inductive Accepts (origin : Origin) (seen : List String) (a : σ) :
    Option String × Node → List String → σ → Prop
  | known {key : String} {node : Node} {b : σ} (hfield : key ∈ reader.shape.fields)
      (hnew : key ∉ seen) (hset : reader.set origin key a node = .ok b) :
      Accepts origin seen a (some key, node) (key :: seen) b
  | unknown {key : String} {node : Node} (hfield : key ∉ reader.shape.fields)
      (hskip : (node.skip : Except (Fault ε) Unit) = .ok ()) :
      Accepts origin seen a (some key, node) seen a

variable {reader}

theorem readFields_cons_eq_ok_iff {origin : Origin} {closed : Bool}
    {field : Option String × Node} {fields : List (Option String × Node)} {seen : List String}
    {a c : σ} :
    reader.readFields origin closed (field :: fields) seen a = .ok c ↔
      ∃ seen' b, reader.Accepts origin seen a field seen' b ∧
        reader.readFields origin closed fields seen' b = .ok c := by
  obtain ⟨key, node⟩ := field
  constructor
  · intro h
    cases key with
    | none => cases h
    | some key =>
      rw [readFields] at h
      by_cases hfield : key ∈ reader.shape.fields
      · by_cases hseen : key ∈ seen
        · rw [if_pos hfield, if_pos hseen] at h
          cases h
        · rw [if_pos hfield, if_neg hseen] at h
          obtain ⟨b, hset, hrest⟩ := Except.bind_eq_ok_iff.1 h
          exact ⟨key :: seen, b, .known hfield hseen hset, hrest⟩
      · rw [if_neg hfield] at h
        obtain ⟨⟨⟩, hskip, hrest⟩ := Except.bind_eq_ok_iff.1 h
        exact ⟨seen, a, .unknown hfield hskip, hrest⟩
  · rintro ⟨seen', b, haccepts, hrest⟩
    cases haccepts with
    | known hfield hnew hset =>
      rw [readFields, if_pos hfield, if_neg hnew, hset]
      exact hrest
    | unknown hfield hskip =>
      rw [readFields, if_neg hfield, hskip]
      exact hrest

theorem readFields_congr_seen {origin : Origin} {closed : Bool}
    {fields : List (Option String × Node)} {seen seen' : List String} {a : σ}
    (hseen : ∀ key, key ∈ seen ↔ key ∈ seen') :
    reader.readFields origin closed fields seen a =
      reader.readFields origin closed fields seen' a := by
  induction fields generalizing seen seen' a with
  | nil => simp only [readFields, hseen]
  | cons field fields ih =>
    obtain ⟨key, node⟩ := field
    cases key with
    | none => rfl
    | some key =>
      have hcons : ∀ k, k ∈ key :: seen ↔ k ∈ key :: seen' := by
        intro k
        rw [List.mem_cons, List.mem_cons, hseen]
      simp only [readFields, hseen, ih hseen, ih hcons]

/-- Two fields may change places. -/
theorem Accepts.swap (hreader : reader.Independent) {origin : Origin} {seen seen₁ seen₂ : List String}
    {a b c : σ} {first second : Option String × Node}
    (hfirst : reader.Accepts origin seen a first seen₁ b)
    (hsecond : reader.Accepts origin seen₁ b second seen₂ c) :
    ∃ seen₁' seen₂' b', reader.Accepts origin seen a second seen₁' b' ∧
      reader.Accepts origin seen₁' b' first seen₂' c ∧ ∀ key, key ∈ seen₂ ↔ key ∈ seen₂' := by
  cases hfirst with
  | @known key node _ hfield hnew hset =>
    cases hsecond with
    | @known key' node' _ hfield' hnew' hset' =>
      rw [List.mem_cons, not_or] at hnew'
      obtain ⟨d, hd, hc⟩ := hreader (Ne.symm hnew'.1) hset hset'
      refine ⟨key' :: seen, key :: key' :: seen, d, .known hfield' hnew'.2 hd,
        .known hfield ?_ hc, ?_⟩
      · rw [List.mem_cons, not_or]
        exact ⟨Ne.symm hnew'.1, hnew⟩
      · intro k
        simp only [List.mem_cons, or_left_comm]
    | unknown hfield' hskip =>
      exact ⟨seen, key :: seen, a, .unknown hfield' hskip, .known hfield hnew hset,
        fun _ => Iff.rfl⟩
  | unknown hfield hskip =>
    cases hsecond with
    | @known key' node' _ hfield' hnew' hset' =>
      exact ⟨key' :: seen, key' :: seen, c, .known hfield' hnew' hset', .unknown hfield hskip,
        fun _ => Iff.rfl⟩
    | unknown hfield' hskip' =>
      exact ⟨seen, seen, a, .unknown hfield' hskip', .unknown hfield hskip, fun _ => Iff.rfl⟩

/-- The order of the fields of an object does not matter to what is read from it. -/
theorem readFields_perm (hreader : reader.Independent) {origin : Origin} {closed : Bool}
    {fields fields' : List (Option String × Node)} (hperm : fields.Perm fields')
    {seen : List String} {a c : σ}
    (h : reader.readFields origin closed fields seen a = .ok c) :
    reader.readFields origin closed fields' seen a = .ok c := by
  induction hperm generalizing seen a with
  | nil => exact h
  | cons field hperm ih =>
    obtain ⟨seen', b, hfield, hrest⟩ := readFields_cons_eq_ok_iff.1 h
    exact readFields_cons_eq_ok_iff.2 ⟨seen', b, hfield, ih hrest⟩
  | swap second first fields =>
    obtain ⟨seen₁, b, hfirst, hmiddle⟩ := readFields_cons_eq_ok_iff.1 h
    obtain ⟨seen₂, b₂, hsecond, hrest⟩ := readFields_cons_eq_ok_iff.1 hmiddle
    obtain ⟨seen₁', seen₂', b', hsecond', hfirst', hseen⟩ := hfirst.swap hreader hsecond
    rw [readFields_congr_seen hseen] at hrest
    exact readFields_cons_eq_ok_iff.2 ⟨seen₁', b', hsecond',
      readFields_cons_eq_ok_iff.2 ⟨seen₂', b₂, hfirst', hrest⟩⟩
  | trans hperm hperm' ih ih' => exact ih' (ih h)

end SeriesQuery.Json.RecordReader
