import Mathlib.Data.List.Basic

/-!
# Texts made of lines

A text of lines can be cut back into them when no line has a line break of its own, and lines can be
cut back into a heading with the lines indented under it, as often as a heading comes. Both are cuts
of a list into sections, where each section begins with the one item of its kind.
-/

namespace SeriesQuery.Text

/-! ### Sections -/

/-- An item and those after it, up to the next section. -/
structure Section (α : Type) where
  head : α
  body : List α

namespace Section

variable {α : Type} {p : α → Prop}

def items (s : Section α) : List α := s.head :: s.body

/-- Whether the head is the only item of a section with a given property. -/
structure IsCutBy (p : α → Prop) (s : Section α) : Prop where
  head : p s.head
  body : ∀ x ∈ s.body, ¬p x

theorem body_eq_of_append_eq {xs ys : List α} {ss ts : List (Section α)}
    (hxs : ∀ x ∈ xs, ¬p x) (hys : ∀ y ∈ ys, ¬p y)
    (hss : ∀ s ∈ ss, s.IsCutBy p) (hts : ∀ t ∈ ts, t.IsCutBy p)
    (h : xs ++ ss.flatMap items = ys ++ ts.flatMap items) :
    xs = ys ∧ ss.flatMap items = ts.flatMap items := by
  induction xs generalizing ys with
  | nil =>
    cases ys with
    | nil => exact ⟨rfl, h⟩
    | cons y ys =>
      -- One body ends where the other goes on, so a head would stand in the place of `y`.
      cases ss with
      | nil => cases h
      | cons s ss =>
        have hhead : s.head = y := (List.cons.inj h).1
        exact absurd (hhead ▸ (hss s List.mem_cons_self).head) (hys y List.mem_cons_self)
  | cons x xs ih =>
    cases ys with
    | nil =>
      cases ts with
      | nil => cases h
      | cons t ts =>
        have hhead : x = t.head := (List.cons.inj h).1
        exact absurd (hhead ▸ (hts t List.mem_cons_self).head) (hxs x List.mem_cons_self)
    | cons y ys =>
      obtain ⟨rfl, htail⟩ := List.cons.inj h
      obtain ⟨rfl, hrest⟩ := ih (fun x hx => hxs x (List.mem_cons_of_mem _ hx))
        (fun y hy => hys y (List.mem_cons_of_mem _ hy)) htail
      exact ⟨rfl, hrest⟩

/-- There is one way only to cut a list into sections. -/
theorem eq_of_flatMap_items_eq {ss ts : List (Section α)}
    (hss : ∀ s ∈ ss, s.IsCutBy p) (hts : ∀ t ∈ ts, t.IsCutBy p)
    (h : ss.flatMap items = ts.flatMap items) : ss = ts := by
  induction ss generalizing ts with
  | nil =>
    cases ts with
    | nil => rfl
    | cons t ts => cases h
  | cons s ss ih =>
    cases ts with
    | nil => cases h
    | cons t ts =>
      obtain ⟨hs, hss'⟩ := List.forall_mem_cons.1 hss
      obtain ⟨ht, hts'⟩ := List.forall_mem_cons.1 hts
      obtain ⟨hhead, htail⟩ := List.cons.inj h
      obtain ⟨hbody, hrest⟩ := body_eq_of_append_eq hs.body ht.body hss' hts' htail
      obtain ⟨head, body⟩ := s
      obtain ⟨head', body'⟩ := t
      cases hhead
      cases hbody
      rw [ih hss' hts' hrest]

end Section

/-! ### Lines -/

def OneLine (s : String) : Prop := '\n' ∉ s.toList

instance (s : String) : Decidable (OneLine s) := inferInstanceAs (Decidable (¬_))

@[simp] theorem oneLine_append {s t : String} : OneLine (s ++ t) ↔ OneLine s ∧ OneLine t := by
  simp [OneLine]

/-- Some lines, each after a line break. -/
def broken (lines : List String) : String := String.join (lines.map fun line => "\n" ++ line)

@[simp] theorem broken_nil : broken [] = "" := rfl

@[simp] theorem broken_cons (line : String) (lines : List String) :
    broken (line :: lines) = "\n" ++ line ++ broken lines := by
  simp [broken]

@[simp] theorem broken_append (lines lines' : List String) :
    broken (lines ++ lines') = broken lines ++ broken lines' := by
  simp [broken]

theorem toList_broken (lines : List String) :
    (broken lines).toList =
      (lines.map fun line => (⟨'\n', line.toList⟩ : Section Char)).flatMap Section.items := by
  induction lines with
  | nil => rfl
  | cons line lines ih =>
    rw [broken_cons, String.toList_append, String.toList_append, ih]
    rfl

theorem eq_of_broken_eq {lines lines' : List String} (hlines : ∀ line ∈ lines, OneLine line)
    (hlines' : ∀ line ∈ lines', OneLine line) (h : broken lines = broken lines') :
    lines = lines' := by
  have hcut : ∀ {lines : List String}, (∀ line ∈ lines, OneLine line) →
      ∀ s ∈ lines.map fun line => (⟨'\n', line.toList⟩ : Section Char), s.IsCutBy (· = '\n') := by
    intro lines hlines s hs
    obtain ⟨line, hline, rfl⟩ := List.mem_map.1 hs
    exact ⟨rfl, fun c hc hbreak => hlines line hline (hbreak ▸ hc)⟩
  have hsections := Section.eq_of_flatMap_items_eq (hcut hlines) (hcut hlines')
    (by rw [← toList_broken, ← toList_broken, h])
  -- A line is the body of its section, so that different lines make different sections.
  refine (List.map_injective_iff.2 ?_) hsections
  intro line line' heq
  exact String.toList_injective (congrArg Section.body heq)

/-! ### Lines with a mark -/

/-- Each item but the last with a mark behind it. -/
def marked (mark : String) : List String → List String
  | [] => []
  | [item] => [item]
  | item :: next :: items => (item ++ mark) :: marked mark (next :: items)

theorem broken_marked_cons (mark item : String) (items : List String) :
    broken (marked mark (item :: items)) =
      "\n" ++ item ++ String.join (items.map fun item => mark ++ "\n" ++ item) := by
  induction items generalizing item with
  | nil => simp [marked]
  | cons next items ih => simp [marked, ih, String.append_assoc]

theorem exists_of_mem_marked {mark line : String} {items : List String}
    (h : line ∈ marked mark items) : ∃ item ∈ items, line = item ∨ line = item ++ mark := by
  fun_induction marked with
  | case1 => cases h
  | case2 item => exact ⟨item, List.mem_cons_self, .inl (List.mem_singleton.1 h)⟩
  | case3 item next items ih =>
    rcases List.mem_cons.1 h with rfl | hrest
    · exact ⟨item, List.mem_cons_self, .inr rfl⟩
    · obtain ⟨item', hmem, hline⟩ := ih hrest
      exact ⟨item', List.mem_cons_of_mem _ hmem, hline⟩

theorem length_marked (mark : String) (items : List String) :
    (marked mark items).length = items.length := by
  fun_induction marked with
  | case1 => rfl
  | case2 item => rfl
  | case3 item next items ih => simp only [List.length_cons, ih]

/-- The marks can be taken off again, since it is known where there are none. -/
theorem marked_injective (mark : String) : Function.Injective (marked mark) := by
  intro items items' h
  fun_induction marked mark items generalizing items' with
  | case1 =>
    have hlen := congrArg List.length h
    rw [length_marked] at hlen
    exact (List.eq_nil_of_length_eq_zero hlen.symm).symm
  | case2 item =>
    have hlen := congrArg List.length h
    rw [length_marked] at hlen
    obtain ⟨item', rfl⟩ := List.length_eq_one_iff.1 hlen.symm
    exact h
  | case3 item next items ih =>
    match items' with
    | [] => cases h
    | [item'] =>
      have hlen := congrArg List.length h
      simp [length_marked, marked] at hlen
    | item' :: next' :: rest =>
      obtain ⟨hitem, hrest⟩ := List.cons.inj h
      rw [ih hrest, (String.append_left_inj mark).1 hitem]

end SeriesQuery.Text
