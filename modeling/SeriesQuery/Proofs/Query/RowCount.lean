import Mathlib.Data.List.TakeWhile
import SeriesQuery.Query.RowCount

/-!
# Decimal row counts

A text spells a word when it holds its decimal digits, perhaps with zeros in front, after at most
one plus sign and with blanks around. It is read as exactly the word that it spells.
-/

namespace SeriesQuery

namespace Text

theorem not_isBlank_of_isDigit {c : Char} (h : c.isDigit) : ¬ isBlank c := by
  rw [Char.isDigit_iff_toNat] at h
  change 48 ≤ c.toNat ∧ c.toNat ≤ 57 at h
  unfold isBlank
  simp only [Bool.or_eq_true, Bool.and_eq_true, beq_iff_eq, decide_eq_true_eq]
  omega

theorem dropWhile_isBlank_append {before cs : List Char} (hbefore : ∀ c ∈ before, isBlank c)
    (hcs : ∀ c ∈ cs, ¬ isBlank c) : (before ++ cs).dropWhile isBlank = cs := by
  rw [List.dropWhile_append_of_pos hbefore]
  cases cs with
  | nil => rfl
  | cons c cs => rw [List.dropWhile_cons_of_neg (hcs c List.mem_cons_self)]

/-- What is trimmed is the blanks around a text without blanks. -/
theorem trim_of_blanks {before cs after : List Char} (hne : cs ≠ [])
    (hbefore : ∀ c ∈ before, isBlank c) (hcs : ∀ c ∈ cs, ¬ isBlank c)
    (hafter : ∀ c ∈ after, isBlank c) : trim (before ++ cs ++ after) = cs := by
  obtain ⟨c, cs, rfl⟩ := List.exists_cons_of_ne_nil hne
  have hleft : trimLeft (before ++ (c :: cs) ++ after) = (c :: cs) ++ after := by
    rw [trimLeft, List.append_assoc, List.dropWhile_append_of_pos hbefore, List.cons_append,
      List.dropWhile_cons_of_neg (hcs c List.mem_cons_self)]
  have hreverse : ∀ x ∈ (c :: cs).reverse, ¬ isBlank x := fun x hx =>
    hcs x (List.mem_reverse.1 hx)
  have hblanks : ∀ x ∈ after.reverse, isBlank x := fun x hx => hafter x (List.mem_reverse.1 hx)
  rw [trim, hleft, trimRight, List.reverse_append, dropWhile_isBlank_append hblanks hreverse,
    List.reverse_reverse]

theorem exists_blanks_around (cs : List Char) :
    ∃ before after, cs = before ++ trim cs ++ after ∧ (∀ c ∈ before, isBlank c) ∧
      ∀ c ∈ after, isBlank c := by
  refine ⟨cs.takeWhile isBlank, ((trimLeft cs).reverse.takeWhile isBlank).reverse, ?_,
    fun c => List.mem_takeWhile_imp, fun c hc => List.mem_takeWhile_imp (List.mem_reverse.1 hc)⟩
  have hright : trim cs ++ ((trimLeft cs).reverse.takeWhile isBlank).reverse = trimLeft cs := by
    rw [trim, trimRight, ← List.reverse_append, List.takeWhile_append_dropWhile,
      List.reverse_reverse]
  rw [List.append_assoc, hright, trimLeft, List.takeWhile_append_dropWhile]

end Text

namespace Query.RowCount

/-- Decimal digits of a word, perhaps after a plus sign and with blanks around. -/
def Spells (text : String) (n : UInt32) : Prop :=
  ∃ before sign digits after : List Char, text.toList = before ++ (sign ++ digits) ++ after ∧
    (∀ c ∈ before, Text.isBlank c) ∧ (∀ c ∈ after, Text.isBlank c) ∧
    (sign = [] ∨ sign = ['+']) ∧ digits ≠ [] ∧ (∀ c ∈ digits, c.isDigit) ∧
    Nat.ofDigitChars 10 digits 0 = n.toNat

theorem dropPlus_of_isDigit {cs : List Char} (h : ∀ c ∈ cs, c.isDigit) : dropPlus cs = cs := by
  cases cs with
  | nil => rfl
  | cons c cs =>
    have hplus : c ≠ '+' := by
      rintro rfl
      exact absurd (h _ List.mem_cons_self) (by decide)
    unfold dropPlus
    split
    next hcons => exact absurd (List.cons.inj hcons).1 hplus
    next => rfl

theorem exists_sign_append_dropPlus (cs : List Char) :
    ∃ sign, cs = sign ++ dropPlus cs ∧ (sign = [] ∨ sign = ['+']) := by
  unfold dropPlus
  split
  next cs => exact ⟨['+'], rfl, .inr rfl⟩
  next => exact ⟨[], rfl, .inl rfl⟩

theorem ofText?_eq_some_iff {text : String} {n : UInt32} :
    ofText? text = some n ↔ Spells text n := by
  rw [ofText?, ofChars?]
  constructor
  · intro h
    obtain ⟨before, after, hcs, hbefore, hafter⟩ := Text.exists_blanks_around text.toList
    obtain ⟨sign, htrim, hsign⟩ := exists_sign_append_dropPlus (Text.trim text.toList)
    rw [Option.ite_none_right_eq_some] at h
    obtain ⟨⟨hne, hdigits⟩, h⟩ := h
    rw [Option.ite_none_right_eq_some] at h
    obtain ⟨hlt, h⟩ := h
    refine ⟨before, sign, _, after, ?_, hbefore, hafter, hsign, hne, List.all_eq_true.1 hdigits, ?_⟩
    · rw [← htrim]
      exact hcs
    · rw [← Option.some.inj h, UInt32.toNat_ofNat_of_lt' hlt]
  · rintro ⟨before, sign, digits, after, htext, hbefore, hafter, hsign, hne, hdigits, hn⟩
    have hblank : ∀ c ∈ sign ++ digits, ¬ Text.isBlank c := by
      rw [List.forall_mem_append]
      refine ⟨?_, fun c hc => Text.not_isBlank_of_isDigit (hdigits c hc)⟩
      rcases hsign with rfl | rfl
      · exact List.forall_mem_nil _
      · exact List.forall_mem_singleton.2 (by decide)
    have hdrop : dropPlus (sign ++ digits) = digits := by
      rcases hsign with rfl | rfl
      · exact dropPlus_of_isDigit hdigits
      · rfl
    have hcore : sign ++ digits ≠ [] := List.append_ne_nil_of_right_ne_nil sign hne
    rw [htext, Text.trim_of_blanks hcore hbefore hblank hafter, hdrop]
    simp only
    rw [if_pos ⟨hne, List.all_eq_true.2 hdigits⟩, hn, if_pos n.toNat_lt_size, UInt32.ofNat_toNat]

theorem ofText?_eq_none_iff {text : String} : ofText? text = none ↔ ∀ n, ¬ Spells text n := by
  rw [Option.eq_none_iff_forall_ne_some]
  simp only [ne_eq, ofText?_eq_some_iff]

theorem ofText?_toDigits (n : UInt32) :
    ofText? (String.ofList (Nat.toDigits 10 n.toNat)) = some n := by
  rw [ofText?_eq_some_iff]
  refine ⟨[], [], Nat.toDigits 10 n.toNat, [], by simp, nofun, nofun, .inl rfl, Nat.toDigits_ne_nil,
    fun c hc => Nat.isDigit_of_mem_toDigits (by omega) (by omega) hc,
    Nat.ofDigitChars_ten_toDigits⟩

end Query.RowCount

end SeriesQuery
