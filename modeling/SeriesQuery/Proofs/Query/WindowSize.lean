import SeriesQuery.Proofs.Double.Layout
import SeriesQuery.Proofs.Query.PartFormat
import SeriesQuery.Query.Reading

/-!
# Sizes of moving windows

The size of a moving window may be a value of any type, and is read from the text of the value. A
string spells its size. The text of any other value spells a size only for an integer, which is its
own size: all other texts have a character that no spelling has.
-/

namespace SeriesQuery.Query

open Json (Node Number Origin Value)

/-! ### Texts that spell no size -/

namespace RowCount

variable {n : UInt32}

/-- A spelling has blanks, plus signs and digits only. -/
theorem Spells.forall_mem {text : String} (h : Spells text n) :
    ∀ c ∈ text.toList, Text.isBlank c ∨ c = '+' ∨ c.isDigit := by
  obtain ⟨before, sign, digits, after, htext, hbefore, hafter, hsign, -, hdigits, -⟩ := h
  rw [htext]
  simp only [List.forall_mem_append]
  refine ⟨⟨fun c hc => .inl (hbefore c hc), ?_, fun c hc => .inr (.inr (hdigits c hc))⟩,
    fun c hc => .inl (hafter c hc)⟩
  rcases hsign with rfl | rfl
  · exact List.forall_mem_nil _
  · exact List.forall_mem_singleton.2 (.inr (.inl rfl))

/-- Digits alone spell their value. -/
theorem Spells.ofDigitChars_eq {digits : List Char} (h : Spells (String.ofList digits) n)
    (hdigits : ∀ c ∈ digits, c.isDigit) : Nat.ofDigitChars 10 digits 0 = n.toNat := by
  obtain ⟨before, sign, core, after, htext, hbefore, hafter, hsign, -, -, hn⟩ := h
  rw [String.toList_ofList] at htext
  subst htext
  simp only [List.forall_mem_append] at hdigits
  obtain ⟨⟨hdbefore, hdsign, -⟩, hdafter⟩ := hdigits
  have hnil {blanks : List Char} (hblanks : ∀ c ∈ blanks, Text.isBlank c)
      (hd : ∀ c ∈ blanks, c.isDigit) : blanks = [] :=
    List.eq_nil_iff_forall_not_mem.2 fun c hc => Text.not_isBlank_of_isDigit (hd c hc) (hblanks c hc)
  have hsign : sign = [] := by
    rcases hsign with rfl | rfl
    · rfl
    · exact absurd (hdsign '+' List.mem_cons_self) (by decide)
  rw [hnil hbefore hdbefore, hnil hafter hdafter, hsign, List.nil_append, List.nil_append,
    List.append_nil, hn]

end RowCount

theorem text_integer_of_nonneg {i : Int} (h : 0 ≤ i) :
    (Value.number (.integer i)).text = String.ofList (Nat.toDigits 10 i.natAbs) := by
  rw [Value.text, Value.chars, Number.chars, if_neg (Int.not_lt.2 h), List.nil_append]

theorem spells_text_integer (n : UInt32) :
    RowCount.Spells (Value.number (.integer n.toNat)).text n := by
  rw [text_integer_of_nonneg (Int.natCast_nonneg _), Int.natAbs_natCast,
    ← RowCount.ofText?_eq_some_iff, RowCount.ofText?_toDigits]

/-- No value but an integer of the range is written as a spelling of a size. -/
theorem eq_integer_of_spells_text {v : Value} (hstring : ∀ s, v ≠ .string s) {n : UInt32}
    (h : RowCount.Spells v.text n) : v = .number (.integer n.toNat) := by
  have hspelling : ∀ c ∈ v.chars, Text.isBlank c ∨ c = '+' ∨ c.isDigit := by
    have hmem := h.forall_mem
    rwa [Value.text, String.toList_ofList] at hmem
  cases v with
  | null => exact absurd (hspelling 'n' List.mem_cons_self) (by decide)
  | bool b =>
    have he : 'e' ∈ (Value.bool b).chars := by cases b <;> decide
    exact absurd (hspelling 'e' he) (by decide)
  | string s => exact absurd rfl (hstring s)
  | array items => exact absurd (hspelling '[' List.mem_cons_self) (by decide)
  | object fields => exact absurd (hspelling '\x7b' List.mem_cons_self) (by decide)
  | number number =>
    cases number with
    | double x =>
      rcases Double.layout.point_or_mark_mem_chars x.shortest with hpoint | hmark
      · exact absurd (hspelling '.' (List.mem_append_right _ hpoint)) (by decide)
      · exact absurd (hspelling 'e' (List.mem_append_right _ hmark)) (by decide)
    | integer i =>
      by_cases hneg : i < 0
      · have hminus : '-' ∈ (Value.number (.integer i)).chars := by
          simp [Value.chars, Number.chars, hneg]
        exact absurd (hspelling '-' hminus) (by decide)
      · rw [text_integer_of_nonneg (Int.not_lt.1 hneg)] at h
        have hvalue := h.ofDigitChars_eq fun c hc =>
          Nat.isDigit_of_mem_toDigits (by omega) (by omega) hc
        rw [Nat.ofDigitChars_ten_toDigits] at hvalue
        rw [← hvalue, Int.natAbs_of_nonneg (Int.not_lt.1 hneg)]

/-! ### Parameters that give a size -/

/-- What the parameter for the size says: nothing where it is absent or null, or else the size. -/
inductive GivesSize : Option Value → Option UInt32 → Prop
  | absent : GivesSize none none
  | null : GivesSize (some .null) none
  | integer (n : UInt32) : GivesSize (some (.number (.integer n.toNat))) (some n)
  | string {s : String} {n : UInt32} : RowCount.Spells s n → GivesSize (some (.string s)) (some n)

theorem GivesSize.exists_eq_of_integer {i : Int} {rows : Option UInt32}
    (h : GivesSize (some (.number (.integer i))) rows) : ∃ n : UInt32, i = n.toNat := by
  cases h with
  | integer n => exact ⟨n, rfl⟩

namespace TaggedPart

variable {p : TaggedPart}

theorem holdsRows_iff_givesSize {rows : Option UInt32} :
    p.HoldsRows rows ↔ GivesSize p.params[1]? rows := by
  constructor
  · intro h
    cases h with
    | absent hlacks =>
      cases hparam : p.params[1]? with
      | none => exact .absent
      | some v =>
        rw [hlacks v hparam]
        exact .null
    | given hholds hspells =>
      obtain ⟨v, hparam, htext⟩ := hholds
      rw [hparam]
      cases htext with
      | string => exact .string hspells
      | json hnull hstring =>
        rw [eq_integer_of_spells_text hstring hspells]
        exact .integer _
  · intro h
    generalize hparam : p.params[1]? = param at h
    cases h with
    | absent => exact .absent fun v hv => nomatch hparam.symm.trans hv
    | null => exact .absent fun v hv => (Option.some.inj (hparam.symm.trans hv)).symm
    | integer n =>
      exact .given ⟨_, hparam, .json Value.noConfusion fun _ => Value.noConfusion⟩
        (spells_text_integer n)
    | string hspells => exact .given ⟨_, hparam, .string _⟩ hspells

/-- A size is refused with its text when it is none, and only then. -/
theorem rows_eq_error_iff_not_givesSize {fault : PartFault} :
    p.rows = .error fault ↔ (∀ rows, ¬ GivesSize p.params[1]? rows) ∧
      ∃ text, p.Holds 1 text ∧ fault = .invalidParam p.kind text := by
  simp only [← holdsRows_iff_givesSize, ← rows_eq_ok_iff]
  constructor
  · intro h
    obtain ⟨text, htext, -, hfault⟩ := rows_eq_error_iff.1 h
    refine ⟨fun rows hrows => ?_, text, htext, hfault⟩
    cases h.symm.trans hrows
  · rintro ⟨hnone, text, htext, rfl⟩
    refine rows_eq_error_iff.2 ⟨text, htext, fun n hspells => ?_, rfl⟩
    exact hnone (some n) (rows_eq_ok_iff.2 (.given htext hspells))

theorem toColumnPart_of_movingWindow {function : String} (hkind : p.kind = "moving_window")
    (hfunction : p.Holds 0 function) : p.toColumnPart = p.rows.map (.movingWindow function) := by
  simp only [toColumnPart, hkind, param_eq_ok_iff.2 hfunction]
  cases p.rows <;> rfl

end TaggedPart

/-! ### Moving windows that are read -/

theorem liftContent_eq_ok_iff {α : Type} {x : Except PartFault α} {a : α} :
    liftContent x = .ok a ↔ x = .ok a := by
  cases x <;> simp [liftContent]

theorem liftContent_eq_error_iff {α : Type} {x : Except PartFault α} {fault : ReadFault} :
    liftContent x = .error fault ↔ ∃ cause, x = .error cause ∧ fault = .content cause := by
  cases x <;> simp [liftContent, eq_comm]

namespace ColumnPart

variable {origin : Origin} {node : Node} {p : TaggedPart} {function : String}

theorem read_of_movingWindow (hread : TaggedPart.read origin node = .ok p)
    (hkind : p.kind = "moving_window") (hfunction : p.Holds 0 function) :
    ColumnPart.read origin node = liftContent (p.rows.map (.movingWindow function)) := by
  rw [ColumnPart.read, hread, Except.ok_bind, p.toColumnPart_of_movingWindow hkind hfunction]

theorem read_eq_ok_iff_givesSize (hread : TaggedPart.read origin node = .ok p)
    (hkind : p.kind = "moving_window") (hfunction : p.Holds 0 function) {part : ColumnPart} :
    ColumnPart.read origin node = .ok part ↔
      ∃ rows, GivesSize p.params[1]? rows ∧ part = .movingWindow function rows := by
  simp only [read_of_movingWindow hread hkind hfunction, liftContent_eq_ok_iff,
    Except.map_eq_ok_iff, TaggedPart.rows_eq_ok_iff, TaggedPart.holdsRows_iff_givesSize,
    eq_comm (a := part)]

theorem read_eq_error_iff_not_givesSize (hread : TaggedPart.read origin node = .ok p)
    (hkind : p.kind = "moving_window") (hfunction : p.Holds 0 function) {fault : ReadFault} :
    ColumnPart.read origin node = .error fault ↔ (∀ rows, ¬ GivesSize p.params[1]? rows) ∧
      ∃ text, p.Holds 1 text ∧ fault = .content (.invalidParam p.kind text) := by
  simp only [read_of_movingWindow hread hkind hfunction, liftContent_eq_error_iff,
    Except.map_eq_error_iff, TaggedPart.rows_eq_error_iff_not_givesSize]
  constructor
  · rintro ⟨-, ⟨hnone, text, htext, rfl⟩, rfl⟩
    exact ⟨hnone, text, htext, rfl⟩
  · rintro ⟨hnone, text, htext, rfl⟩
    exact ⟨_, ⟨hnone, text, htext, rfl⟩, rfl⟩

end ColumnPart

end SeriesQuery.Query
