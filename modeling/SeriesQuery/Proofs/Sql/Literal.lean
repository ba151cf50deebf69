import SeriesQuery.Sql.Literal

/-!
# Reading single-quoted literals

A reader of literals takes two adjacent quotes for one and stops at any other quote. What it finds
in a text is exactly what `quote` has put in front of it, so a quoted text ends where it was meant
to end, whatever it holds and whatever follows.
-/

namespace SeriesQuery.Sql.Literal

/-- What a literal holds that has been opened, and what stands behind its closing quote. -/
def readOpen? : List Char → Option (List Char × List Char)
  | [] => none
  | '\'' :: '\'' :: cs => (readOpen? cs).map fun (held, rest) => ('\'' :: held, rest)
  | '\'' :: cs => some ([], cs)
  | c :: cs => (readOpen? cs).map fun (held, rest) => (c :: held, rest)

def readChars? : List Char → Option (List Char × List Char)
  | '\'' :: cs => readOpen? cs
  | _ => none

/-- Reads the literal in front of a text. -/
def read? (text : String) : Option (String × String) :=
  (readChars? text.toList).map fun (held, rest) => (String.ofList held, String.ofList rest)

/-! ### Reading finds what was quoted -/

theorem escapeChars_quote (cs : List Char) :
    escapeChars ('\'' :: cs) = '\'' :: '\'' :: escapeChars cs := rfl

theorem escapeChars_cons_of_ne {c : Char} (h : c ≠ '\'') (cs : List Char) :
    escapeChars (c :: cs) = c :: escapeChars cs := by
  rw [escapeChars, if_neg h]

theorem readOpen?_cons_of_ne {c : Char} (h : c ≠ '\'') (cs : List Char) :
    readOpen? (c :: cs) = (readOpen? cs).map fun (held, rest) => (c :: held, rest) := by
  rw [readOpen?]
  · exact fun _ hc => absurd hc h
  · exact h

theorem readOpen?_closing {rest : List Char} (h : rest.head? ≠ some '\'') :
    readOpen? ('\'' :: rest) = some ([], rest) := by
  rw [readOpen?]
  rintro cs rfl
  exact h rfl

/-- A doubled quote is never taken for the closing one: the reader looks one character ahead, and
what it sees there is the second of the two. -/
theorem readOpen?_escapeChars_append (cs : List Char) {rest : List Char}
    (h : rest.head? ≠ some '\'') :
    readOpen? (escapeChars cs ++ '\'' :: rest) = some (cs, rest) := by
  induction cs with
  | nil => exact readOpen?_closing h
  | cons c cs ih =>
    by_cases hc : c = '\''
    · subst hc
      rw [escapeChars_quote, List.cons_append, List.cons_append, readOpen?, ih, Option.map_some]
    · rw [escapeChars_cons_of_ne hc, List.cons_append, readOpen?_cons_of_ne hc, ih,
        Option.map_some]

theorem eq_escapeChars_append_of_readOpen? {cs held rest : List Char}
    (h : readOpen? cs = some (held, rest)) :
    cs = escapeChars held ++ '\'' :: rest ∧ rest.head? ≠ some '\'' := by
  fun_induction readOpen? cs generalizing held with
  | case1 => cases h
  | case2 cs ih =>
    obtain ⟨⟨held, rest⟩, hread, heq⟩ := Option.map_eq_some_iff.1 h
    cases heq
    obtain ⟨rfl, hrest⟩ := ih hread
    exact ⟨rfl, hrest⟩
  | case3 cs hnext =>
    cases h
    refine ⟨rfl, fun hhead => ?_⟩
    obtain ⟨tail, rfl⟩ := List.head?_eq_some_iff.1 hhead
    exact hnext tail rfl
  | case4 c cs _ hc ih =>
    obtain ⟨⟨held, rest⟩, hread, heq⟩ := Option.map_eq_some_iff.1 h
    cases heq
    obtain ⟨rfl, hrest⟩ := ih hread
    rw [escapeChars_cons_of_ne hc]
    exact ⟨rfl, hrest⟩

theorem readOpen?_eq_some_iff {cs held rest : List Char} :
    readOpen? cs = some (held, rest) ↔
      cs = escapeChars held ++ '\'' :: rest ∧ rest.head? ≠ some '\'' := by
  constructor
  · exact eq_escapeChars_append_of_readOpen?
  · rintro ⟨rfl, hrest⟩
    exact readOpen?_escapeChars_append held hrest

theorem readChars?_eq_some_iff {cs held rest : List Char} :
    readChars? cs = some (held, rest) ↔
      cs = quoteChars held ++ rest ∧ rest.head? ≠ some '\'' := by
  have hquote : quoteChars held ++ rest = '\'' :: (escapeChars held ++ '\'' :: rest) := by
    simp [quoteChars]
  rw [hquote]
  unfold readChars?
  split
  next cs => rw [readOpen?_eq_some_iff, List.cons.injEq, and_iff_right rfl]
  next hopen => exact ⟨nofun, fun h => absurd h.1 (hopen _)⟩

theorem read?_eq_some_iff {text held rest : String} :
    read? text = some (held, rest) ↔
      text = quote held ++ rest ∧ rest.toList.head? ≠ some '\'' := by
  have htext : text = quote held ++ rest ↔
      text.toList = quoteChars held.toList ++ rest.toList := by
    rw [← String.toList_inj, String.toList_append, quote, String.toList_ofList]
  rw [htext, ← readChars?_eq_some_iff, read?, Option.map_eq_some_iff]
  constructor
  · rintro ⟨⟨cs, cs'⟩, hread, heq⟩
    cases heq
    rw [String.toList_ofList, String.toList_ofList]
    exact hread
  · intro hread
    exact ⟨_, hread, by simp only [String.ofList_toList]⟩

/-! ### Escaping one character at a time -/

theorem escape_append (s t : String) : escape (s ++ t) = escape s ++ escape t := by
  simp [escape, escapeChars_append, String.ofList_append]

theorem read?_quote (s : String) : read? (quote s) = some (s, "") :=
  read?_eq_some_iff.2 ⟨String.append_empty.symm, by decide⟩

theorem eq_of_escape_eq {s t : String} (h : escape s = escape t) : s = t := by
  have hquote : quote s = quote t := by
    rw [quote, quote, quoteChars, quoteChars, String.ofList_injective h]
  have hread := read?_quote s
  rw [hquote, read?_quote] at hread
  exact (Prod.mk.inj (Option.some.inj hread)).1.symm

theorem filter_escapeChars (cs : List Char) :
    (escapeChars cs).filter (· ≠ '\'') = cs.filter (· ≠ '\'') := by
  induction cs with
  | nil => rfl
  | cons c cs ih =>
    by_cases hc : c = '\''
    · subst hc
      exact ih
    · rw [escapeChars_cons_of_ne hc, List.filter_cons, List.filter_cons, ih]

theorem length_escapeChars (cs : List Char) :
    (escapeChars cs).length = cs.length + cs.count '\'' := by
  induction cs with
  | nil => rfl
  | cons c cs ih =>
    by_cases hc : c = '\''
    · subst hc
      rw [escapeChars_quote, List.count_cons_self]
      simp only [List.length_cons, ih]
      omega
    · rw [escapeChars_cons_of_ne hc, List.count_cons_of_ne hc]
      simp only [List.length_cons, ih]
      omega

/-- A character that is no quote moves by the number of quotes before it. -/
theorem getElem?_escapeChars {cs : List Char} {i : Nat} {c : Char} (h : cs[i]? = some c)
    (hc : c ≠ '\'') : (escapeChars cs)[i + (cs.take i).count '\'']? = some c := by
  obtain ⟨hi, hget⟩ := List.getElem?_eq_some_iff.1 h
  have hcut : cs = cs.take i ++ c :: cs.drop (i + 1) := by
    rw [← hget, ← List.drop_eq_getElem_cons hi, List.take_append_drop]
  have hlength : (escapeChars (cs.take i)).length = i + (cs.take i).count '\'' := by
    rw [length_escapeChars, List.length_take, Nat.min_eq_left (Nat.le_of_lt hi)]
  have hescaped : escapeChars cs =
      escapeChars (cs.take i) ++ c :: escapeChars (cs.drop (i + 1)) := by
    conv => lhs; rw [hcut]
    rw [escapeChars_append, escapeChars_cons_of_ne hc]
  rw [hescaped, ← hlength, List.getElem?_append_right (Nat.le_refl _), Nat.sub_self]
  rfl

/-- Nothing breaks out of a quoted text: the literal in front of a text is read as `held` exactly
where the text is the quoted `held` with something behind it that does not continue the literal.
Hence escaping keeps texts apart. It also goes through concatenation, and apart from the quotes
every character stays, in its order and behind as many quotes more as stand before it. -/
theorem read_exactly_what_was_quoted :
    (∀ text held rest : String, read? text = some (held, rest) ↔
      text = quote held ++ rest ∧ rest.toList.head? ≠ some '\'') ∧
    (∀ s t : String, escape s = escape t ↔ s = t) ∧
    (∀ s t : String, escape (s ++ t) = escape s ++ escape t) ∧
    ∀ s : String, (escape s).toList.filter (· ≠ '\'') = s.toList.filter (· ≠ '\'') ∧
      ∀ (i : Nat) (c : Char), s.toList[i]? = some c → c ≠ '\'' →
        (escape s).toList[i + (s.toList.take i).count '\'']? = some c := by
  refine ⟨fun _ _ _ => read?_eq_some_iff, fun s t => ⟨eq_of_escape_eq, congrArg escape⟩,
    escape_append, fun s => ?_⟩
  rw [escape, String.toList_ofList]
  exact ⟨filter_escapeChars s.toList, fun _ _ => getElem?_escapeChars⟩

/-- A text with quotes at its end and next to each other, in front of a comment. -/
theorem read_exactly_what_was_quoted_of_quotes_at_the_end :
    read? (quote "a''b'" ++ " -- '") = some ("a''b'", " -- '") ∧
      (escape "a''b'").toList[5]? = some 'b' := by
  have h := read_exactly_what_was_quoted
  exact ⟨(h.1 _ _ _).2 ⟨rfl, by decide⟩, (h.2.2.2 "a''b'").2 3 'b' (by decide) (by decide)⟩

end SeriesQuery.Sql.Literal
