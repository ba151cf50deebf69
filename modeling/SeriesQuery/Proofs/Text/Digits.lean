import Mathlib.Tactic.NormNum
import Mathlib.Data.List.Basic
import Mathlib.Data.Nat.Digits.Defs

/-!
# Decimal digits

The digits of a number with more digits behind it are those of the longer number, and a text of
digits is a number with zeros in front. The count of the digits gives the size of the number.
-/

namespace SeriesQuery.Text

theorem forall_mem_toDigits (n : Nat) : ∀ c ∈ Nat.toDigits 10 n, c.isDigit :=
  fun _ hc => Nat.isDigit_of_mem_toDigits (by omega) (by omega) hc

theorem lt_pow_length_toDigits (n : Nat) : n < 10 ^ (Nat.toDigits 10 n).length :=
  (Nat.length_toDigits_le_iff (by omega) Nat.length_toDigits_pos).1 le_rfl

theorem pow_length_toDigits_le {n : Nat} (hn : 0 < n) :
    10 ^ ((Nat.toDigits 10 n).length - 1) ≤ n := by
  have hlength : 0 < (Nat.toDigits 10 n).length := Nat.length_toDigits_pos
  by_cases hone : (Nat.toDigits 10 n).length = 1
  · rw [hone]
    exact hn
  · by_contra hlt
    have hle := (Nat.length_toDigits_le_iff (by omega) (by omega)).2 (Nat.not_le.1 hlt)
    omega

theorem head?_toDigits_ne_zero {n : Nat} (h : 0 < n) :
    (Nat.toDigits 10 n).head? ≠ some '0' := by
  induction n using Nat.strongRecOn with
  | ind n ih =>
    by_cases hlt : n < 10
    · rw [Nat.toDigits_of_lt_base hlt, List.head?_cons, ne_eq, Option.some.injEq,
        Nat.digitChar_eq_zero]
      omega
    · rw [Nat.toDigits_of_base_le (by omega) (Nat.not_lt.1 hlt),
        List.head?_append_of_ne_nil _ Nat.toDigits_ne_nil]
      exact ih (n / 10) (by omega) (by omega)

theorem digitChar_toNat_sub {c : Char} (h : c.isDigit) : (c.toNat - '0'.toNat).digitChar = c := by
  rw [Char.isDigit_iff_toNat] at h
  change 48 ≤ c.toNat ∧ c.toNat ≤ 57 at h
  have hd : (c.toNat - '0'.toNat) < 10 := by
    change c.toNat - 48 < 10
    omega
  apply Char.toNat_inj.1
  rw [Nat.toNat_digitChar_of_lt_ten hd]
  change 48 + (c.toNat - 48) = c.toNat
  omega

theorem toNat_sub_eq_zero_iff {c : Char} (h : c.isDigit) : c.toNat - '0'.toNat = 0 ↔ c = '0' := by
  constructor
  · intro hzero
    rw [← digitChar_toNat_sub h, hzero]
    rfl
  · rintro rfl
    rfl

theorem toNat_sub_lt_ten {c : Char} (h : c.isDigit) : c.toNat - '0'.toNat < 10 := by
  rw [Char.isDigit_iff_toNat] at h
  change 48 ≤ c.toNat ∧ c.toNat ≤ 57 at h
  change c.toNat - 48 < 10
  omega

/-- More digits behind a positive number. -/
theorem toDigits_ofDigitChars {n : Nat} (hn : 0 < n) {ds : List Char} (hds : ∀ c ∈ ds, c.isDigit) :
    Nat.toDigits 10 (Nat.ofDigitChars 10 ds n) = Nat.toDigits 10 n ++ ds := by
  induction ds generalizing n with
  | nil => rw [Nat.ofDigitChars_nil, List.append_nil]
  | cons c ds ih =>
    rw [List.forall_mem_cons] at hds
    have hd := toNat_sub_lt_ten hds.1
    rw [Nat.ofDigitChars_cons, ih (by omega) hds.2,
      ← Nat.toDigits_append_toDigits (by omega) hn hd, Nat.toDigits_of_lt_base hd,
      digitChar_toNat_sub hds.1, List.append_assoc, List.singleton_append]

theorem forall_mem_zeros (k : Nat) : ∀ c ∈ List.replicate k '0', c.isDigit := by
  intro c hc
  rw [List.eq_of_mem_replicate hc]
  rfl

theorem toDigits_mul_pow {n : Nat} (hn : 0 < n) (k : Nat) :
    Nat.toDigits 10 (n * 10 ^ k) = Nat.toDigits 10 n ++ List.replicate k '0' := by
  rw [← toDigits_ofDigitChars hn (forall_mem_zeros k), Nat.ofDigitChars_replicate_zero,
    Nat.mul_comm]

theorem le_ofDigitChars (ds : List Char) (n : Nat) : n ≤ Nat.ofDigitChars 10 ds n := by
  have hpow : 0 < 10 ^ ds.length := by positivity
  rw [Nat.ofDigitChars_eq_ofDigitChars_zero]
  exact (Nat.le_mul_of_pos_left n hpow).trans (Nat.le_add_right _ _)

theorem ofDigitChars_lt {ds : List Char} (hds : ∀ c ∈ ds, c.isDigit) :
    Nat.ofDigitChars 10 ds 0 < 10 ^ ds.length := by
  induction ds with
  | nil => exact Nat.one_pos
  | cons c ds ih =>
    rw [List.forall_mem_cons] at hds
    have hd := toNat_sub_lt_ten hds.1
    have hrest := ih hds.2
    rw [Nat.ofDigitChars_cons, Nat.ofDigitChars_eq_ofDigitChars_zero, Nat.mul_zero, Nat.zero_add,
      List.length_cons, pow_succ]
    have hfirst := Nat.mul_le_mul_left (10 ^ ds.length) (Nat.le_of_lt_succ hd)
    omega

/-- The digits of a number are cut into those of a smaller number and those behind it. -/
theorem toDigits_cut {m : Nat} (hm : 0 < m) {front back : List Char} (hne : front ≠ [])
    (h : Nat.toDigits 10 m = front ++ back) :
    Nat.toDigits 10 (Nat.ofDigitChars 10 front 0) = front ∧
      Nat.ofDigitChars 10 back (Nat.ofDigitChars 10 front 0) = m := by
  have hall := forall_mem_toDigits m
  have hfirst := head?_toDigits_ne_zero hm
  constructor
  · cases front with
    | nil => exact absurd rfl hne
    | cons c cs =>
      rw [h] at hall hfirst
      simp only [List.cons_append, List.forall_mem_cons, List.forall_mem_append] at hall
      have hc : c ≠ '0' := fun hzero => hfirst (congrArg some hzero)
      have hpos := Nat.pos_of_ne_zero fun hzero => hc ((toNat_sub_eq_zero_iff hall.1).1 hzero)
      rw [Nat.ofDigitChars_cons, Nat.mul_zero, Nat.zero_add, toDigits_ofDigitChars hpos hall.2.1,
        Nat.toDigits_of_lt_base (toNat_sub_lt_ten hall.1), digitChar_toNat_sub hall.1,
        List.singleton_append]
  · rw [← Nat.ofDigitChars_append, ← h, Nat.ofDigitChars_ten_toDigits]

/-- A number and its first digit, which is not zero. -/
theorem first_digit {m n : Nat} {first : Char} {rest : List Char} (hm : 0 < m)
    (hdigits : Nat.toDigits 10 m = first :: rest) (hfirst : Nat.toDigits 10 n = [first]) :
    0 < n ∧ n < 10 ∧ Nat.ofDigitChars 10 rest n = m := by
  have hlength := lt_pow_length_toDigits n
  rw [hfirst, List.length_singleton, pow_one] at hlength
  have hn : Nat.ofDigitChars 10 [first] 0 = n := by rw [← hfirst, Nat.ofDigitChars_ten_toDigits]
  obtain ⟨-, hsame⟩ := toDigits_cut hm (List.cons_ne_nil first []) hdigits
  refine ⟨Nat.pos_of_ne_zero fun hzero => head?_toDigits_ne_zero hm ?_, hlength, hn ▸ hsame⟩
  rw [hzero, Nat.toDigits_zero] at hfirst
  rw [hdigits, List.head?_cons, ← (List.cons.inj hfirst).1]

/-- A number and the digits behind it are determined by the number that they are together. -/
theorem ofDigitChars_inj {m n : Nat} {cs ds : List Char} (hcs : ∀ c ∈ cs, c.isDigit)
    (hds : ∀ c ∈ ds, c.isDigit) (hlength : cs.length = ds.length)
    (h : Nat.ofDigitChars 10 cs m = Nat.ofDigitChars 10 ds n) : m = n ∧ cs = ds := by
  -- The digits of a positive number have no zeros in front.
  have hnext : Nat.ofDigitChars 10 cs (m + 1) = Nat.ofDigitChars 10 ds (n + 1) := by
    have hsplit (es : List Char) (k : Nat) :
        Nat.ofDigitChars 10 es k = 10 ^ es.length * k + Nat.ofDigitChars 10 es 0 :=
      Nat.ofDigitChars_eq_ofDigitChars_zero
    rw [hsplit cs m, hsplit ds n, hlength] at h
    rw [hsplit cs, hsplit ds, hlength, Nat.mul_succ, Nat.mul_succ]
    omega
  have hdigits := congrArg (Nat.toDigits 10) hnext
  rw [toDigits_ofDigitChars m.succ_pos hcs, toDigits_ofDigitChars n.succ_pos hds] at hdigits
  obtain ⟨hfront, hback⟩ := List.append_inj' hdigits hlength
  have hsame := congrArg (Nat.ofDigitChars 10 · 0) hfront
  simp only [Nat.ofDigitChars_ten_toDigits] at hsame
  exact ⟨Nat.succ.inj hsame, hback⟩

/-- The last digit tells whether ten divides the number. -/
theorem getLast?_eq_some_zero_iff {ds : List Char} (hds : ∀ c ∈ ds, c.isDigit) (hne : ds ≠ [])
    (n : Nat) : ds.getLast? = some '0' ↔ Nat.ofDigitChars 10 ds n % 10 = 0 := by
  obtain ⟨before, c, rfl⟩ := (List.eq_nil_or_concat ds).resolve_left hne
  rw [List.concat_eq_append] at hds ⊢
  have hc : c.isDigit := hds c (by simp)
  rw [List.getLast?_concat, Option.some_inj, ← toNat_sub_eq_zero_iff hc, Nat.ofDigitChars_append,
    Nat.ofDigitChars_cons, Nat.ofDigitChars_nil, Nat.mul_add_mod, Nat.mod_eq_of_lt (toNat_sub_lt_ten hc)]

end SeriesQuery.Text
