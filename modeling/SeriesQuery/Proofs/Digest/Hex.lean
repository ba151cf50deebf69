import SeriesQuery.Digest.Sha256

/-!
# Digests as text

The hexadecimal digits of a digest determine it.
-/

namespace SeriesQuery.Digest.Sha256

theorem digitChar_inj {m n : Nat} (hm : m < 16) (hn : n < 16)
    (h : m.digitChar = n.digitChar) : m = n := by
  have hall : ∀ m < 16, ∀ n < 16, m.digitChar = n.digitChar → m = n := by decide
  exact hall m hm n hn h

theorem mod_pow_eq_of_digits {b m n : Nat} (k : Nat)
    (h : ∀ i < k, m / Nat.pow b i % b = n / Nat.pow b i % b) :
    m % Nat.pow b k = n % Nat.pow b k := by
  induction k with
  | zero => exact (Nat.mod_one m).trans (Nat.mod_one n).symm
  | succ k ih =>
    have hsucc (x : Nat) : x % Nat.pow b (k + 1) =
        x % Nat.pow b k + Nat.pow b k * (x / Nat.pow b k % b) := Nat.mod_pow_succ
    have hlow := ih fun i hi => h i (Nat.lt_succ_of_lt hi)
    rw [hsucc, hsucc, hlow, h k (Nat.lt_succ_self k)]

theorem length_wordHex (w : UInt32) : (wordHex w).length = 8 := by
  rw [wordHex, List.length_map, List.length_range]

theorem wordHex_inj {v w : UInt32} (h : wordHex v = wordHex w) : v = w := by
  have hdigits : ∀ i < 8, v.toNat / Nat.pow 16 i % 16 = w.toNat / Nat.pow 16 i % 16 := by
    intro i hi
    have hmem : 7 - i ∈ List.range 8 := List.mem_range.2 (by omega)
    have hchar := List.map_inj_left.1 h (7 - i) hmem
    rw [Nat.sub_sub_self (by omega)] at hchar
    exact digitChar_inj (Nat.mod_lt _ (by omega)) (Nat.mod_lt _ (by omega)) hchar
  have hmod := mod_pow_eq_of_digits 8 hdigits
  have hpow : Nat.pow 16 8 = UInt32.size := rfl
  have hv := v.toNat_lt_size
  have hw := w.toNat_lt_size
  rw [hpow, Nat.mod_eq_of_lt hv, Nat.mod_eq_of_lt hw] at hmod
  exact UInt32.toNat_inj.1 hmod

theorem flatMap_wordHex_inj {vs ws : List UInt32}
    (h : vs.flatMap wordHex = ws.flatMap wordHex) : vs = ws := by
  have hne : ∀ (w : UInt32) (ws : List UInt32), (w :: ws).flatMap wordHex ≠ [] := by
    intro w ws hnil
    have hlength := congrArg List.length hnil
    rw [List.flatMap_cons, List.length_append, length_wordHex, List.length_nil] at hlength
    omega
  induction vs generalizing ws with
  | nil =>
    cases ws with
    | nil => rfl
    | cons w ws => exact absurd h.symm (hne w ws)
  | cons v vs ih =>
    cases ws with
    | nil => exact absurd h (hne v vs)
    | cons w ws =>
      rw [List.flatMap_cons, List.flatMap_cons] at h
      obtain ⟨hhead, htail⟩ := List.append_inj h (by rw [length_wordHex, length_wordHex])
      rw [wordHex_inj hhead, ih htail]

theorem State.hex_inj {s t : State} (h : s.hex = t.hex) : s = t := by
  have hwords := flatMap_wordHex_inj (String.ofList_injective h)
  obtain ⟨a, b, c, d, e, f, g, k⟩ := s
  obtain ⟨a', b', c', d', e', f', g', k'⟩ := t
  simpa only [List.cons.injEq, and_true, State.mk.injEq] using hwords

end SeriesQuery.Digest.Sha256
