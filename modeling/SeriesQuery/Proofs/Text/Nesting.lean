import SeriesQuery.Proofs.Text.Lines

/-!
# Texts in parentheses

A text is balanced when no parenthesis closes that was not opened before it and all of them are
closed at the end. What is composed of some texts, one after the other or within parentheses, with
words in between, is balanced when these texts are, and it is on one line when they are.
-/

namespace SeriesQuery.Text

@[irreducible] def parens (text : String) : String := "(" ++ text ++ ")"

structure Balanced (s : String) : Prop where
  /-- No beginning of the text closes more than it opens. -/
  ahead : ∀ n, (s.toList.take n).count ')' ≤ (s.toList.take n).count '('
  total : s.toList.count ')' = s.toList.count '('

theorem balanced_iff {s : String} :
    Balanced s ↔ (∀ n ≤ s.toList.length, (s.toList.take n).count ')' ≤ (s.toList.take n).count '(') ∧
      s.toList.count ')' = s.toList.count '(' := by
  refine ⟨fun h => ⟨fun n _ => h.ahead n, h.total⟩, fun h => ⟨fun n => ?_, h.2⟩⟩
  rcases Nat.le_total n s.toList.length with hle | hge
  · exact h.1 n hle
  · rw [List.take_of_length_le hge]
    exact Nat.le_of_eq h.2

instance (s : String) : Decidable (Balanced s) := decidable_of_iff' _ balanced_iff

/-! ### Balanced texts -/

theorem balanced_of_no_parens {s : String} (h : '(' ∉ s.toList ∧ ')' ∉ s.toList) : Balanced s where
  ahead n := by
    rw [List.count_eq_zero.2 fun hmem => h.2 (List.mem_of_mem_take hmem)]
    exact Nat.zero_le _
  total := by rw [List.count_eq_zero.2 h.1, List.count_eq_zero.2 h.2]

theorem Balanced.append {s t : String} (hs : Balanced s) (ht : Balanced t) :
    Balanced (s ++ t) where
  ahead n := by
    rw [String.toList_append, List.take_append, List.count_append, List.count_append]
    exact Nat.add_le_add (hs.ahead n) (ht.ahead _)
  total := by rw [String.toList_append, List.count_append, List.count_append, hs.total, ht.total]

/-- What comes after a balanced text is not closed by it. -/
theorem balanced_append_iff {s t : String} (hs : Balanced s) : Balanced (s ++ t) ↔ Balanced t := by
  refine ⟨fun h => ⟨fun n => ?_, ?_⟩, hs.append⟩
  · have hahead := h.ahead (s.toList.length + n)
    rw [String.toList_append, List.take_length_add_append, List.count_append, List.count_append,
      hs.total] at hahead
    exact Nat.le_of_add_le_add_left hahead
  · have htotal := h.total
    rw [String.toList_append, List.count_append, List.count_append, hs.total] at htotal
    exact Nat.add_left_cancel htotal

theorem balanced_broken {lines : List String} (h : ∀ line ∈ lines, Balanced line) :
    Balanced (broken lines) := by
  induction lines with
  | nil => exact balanced_of_no_parens (by decide)
  | cons line lines ih =>
    obtain ⟨hline, hlines⟩ := List.forall_mem_cons.1 h
    rw [broken_cons]
    exact ((balanced_of_no_parens (by decide)).append hline).append (ih hlines)

theorem toList_parens (s : String) : (parens s).toList = '(' :: (s.toList ++ [')']) := by
  simp [parens]

theorem Balanced.parens {s : String} (hs : Balanced s) : Balanced (parens s) where
  ahead n := by
    cases n with
    | zero => exact Nat.le_refl _
    | succ n =>
      -- One parenthesis is open all along, so that the last one finds it.
      have hinside := hs.ahead n
      have hlast : ([')'].take (n - s.toList.length)).count ')' ≤ 1 :=
        (List.take_sublist _ [')']).count_le ')'
      rw [toList_parens, List.take_succ_cons, List.take_append,
        List.count_cons_of_ne (by decide), List.count_cons_self, List.count_append,
        List.count_append]
      omega
  total := by
    rw [toList_parens]
    simp [hs.total]

/-! ### Composed texts -/

/-- Whether a text has no parentheses and no line breaks. -/
def IsWord (s : String) : Prop := ∀ c ∈ s.toList, c ∉ ['(', ')', '\n']

instance (s : String) : Decidable (IsWord s) :=
  List.decidableBAll (fun c => c ∉ ['(', ')', '\n']) s.toList

/-- The texts that are made of given ones and of words, one after the other and in parentheses. -/
inductive Composed (texts : List String) : String → Prop
  | given {s : String} (h : s ∈ texts) : Composed texts s
  | word {s : String} (h : IsWord s) : Composed texts s
  | append {s t : String} (hs : Composed texts s) (ht : Composed texts t) : Composed texts (s ++ t)
  | parens {s : String} (hs : Composed texts s) : Composed texts (parens s)

namespace Composed

variable {texts texts' : List String} {s : String}

theorem mono (hsub : texts ⊆ texts') (h : Composed texts s) : Composed texts' s := by
  induction h with
  | given h => exact .given (hsub h)
  | word h => exact .word h
  | append _ _ hs ht => exact .append hs ht
  | parens _ hs => exact .parens hs

theorem balanced (h : Composed texts s) (htexts : ∀ text ∈ texts, Balanced text) : Balanced s := by
  induction h with
  | given h => exact htexts _ h
  | word h => exact balanced_of_no_parens ⟨fun hopen => h _ hopen (by simp),
      fun hclose => h _ hclose (by simp)⟩
  | append _ _ hs ht => exact hs.append ht
  | parens _ hs => exact hs.parens

theorem oneLine (h : Composed texts s) (htexts : ∀ text ∈ texts, OneLine text) : OneLine s := by
  induction h with
  | given h => exact htexts _ h
  | word h => exact fun hbreak => h _ hbreak (by simp)
  | append _ _ hs ht => exact oneLine_append.2 ⟨hs, ht⟩
  | parens _ hs =>
    unfold Text.parens
    exact oneLine_append.2 ⟨oneLine_append.2 ⟨by decide, hs⟩, by decide⟩

end Composed

end SeriesQuery.Text
