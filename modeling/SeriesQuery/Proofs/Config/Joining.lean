import SeriesQuery.Proofs.Config.Pieces

/-!
# Expanding a text in two parts

A text may be cut in two and each part be expanded on its own, provided that no reference runs over
the cut: the second part begins with a character that neither goes on with a name nor opens a brace.
Only a brace left open in the first part then reaches into the second.
-/

namespace SeriesQuery.Config

namespace Template

/-- What is found in a text does not depend on what comes after it, up to where the scan leaves
off. -/
theorem exists_run_append (scan : Scan) (cs : List Char) :
    ∃ segments next, ∀ rest, run scan (cs ++ rest) = segments ++ run next rest := by
  induction cs generalizing scan with
  | nil => exact ⟨[], scan, fun rest => rfl⟩
  | cons c cs ih =>
    obtain ⟨segments, next, hrun⟩ := ih (step scan c).2
    refine ⟨(step scan c).1 ++ segments, next, fun rest => ?_⟩
    rw [List.cons_append, run_cons, hrun, List.append_assoc]

theorem run_of_apart (scan : Scan) {rest : List Char}
    (h : ∀ c ∈ rest.head?, c ≠ '\x7b' ∧ ¬ isNameChar c) :
    (∃ letters, scan = .brace letters) ∨ run scan rest = finish scan ++ run .outside rest := by
  cases scan with
  | outside => exact .inr rfl
  | dollar => exact .inr (run_dollar_of_head h)
  | name letters => exact .inr (run_name_of_head (fun c hc => (h c hc).2) letters)
  | brace letters => exact .inl ⟨letters, rfl⟩

theorem ofText_append (a : String) {b : String}
    (h : ∀ c ∈ b.toList.head?, c ≠ '\x7b' ∧ ¬ isNameChar c) :
    ofText (a ++ b) = ofText a ++ ofText b ∨
      ∃ segments more, ofText a = segments ++ [.unclosed] ∧ ofText (a ++ b) = segments ++ more := by
  obtain ⟨segments, next, hrun⟩ := exists_run_append .outside a.toList
  have ha : ofText a = segments ++ finish next := by
    rw [ofText, ← List.append_nil a.toList, hrun]
    rfl
  have hab : ofText (a ++ b) = segments ++ run next b.toList := by
    rw [ofText, String.toList_append, hrun]
  rcases run_of_apart next h with ⟨letters, rfl⟩ | hnext
  · exact .inr ⟨segments, run (.brace letters) b.toList, ha, hab⟩
  · left
    rw [hab, hnext, ha, List.append_assoc]
    rfl

/-- The whole text shows only in the message on an open brace. -/
theorem expandSegments_congr_text {env : Environment} {text : String} {segments : List Segment}
    (h : expandSegments env text segments ≠ .error (.unterminated text)) (text' : String) :
    expandSegments env text' segments = expandSegments env text segments := by
  induction segments with
  | nil => rfl
  | cons segment segments ih =>
    rw [expandSegments] at h
    have hrest : ∀ chars, expandSegment env text segment = .ok chars →
        expandSegments env text' segments = expandSegments env text segments := by
      intro chars hchars
      apply ih
      intro hfault
      rw [hchars, hfault] at h
      exact h rfl
    have hsegment : expandSegment env text' segment = expandSegment env text segment := by
      cases segment with
      | plain | reference => rfl
      | unclosed => exact absurd rfl h
    rw [expandSegments, expandSegments, hsegment]
    cases hchars : expandSegment env text segment with
    | error fault => rfl
    | ok chars => rw [hrest chars hchars]

end Template

open Template

theorem expand_eq_ok_iff {env : Environment} {text expanded : String} :
    expand env text = .ok expanded ↔
      expandSegments env text (ofText text) = .ok expanded.toList := by
  rw [expand]
  cases expandSegments env text (ofText text) with
  | error fault => simp
  | ok chars => simp [pure, Except.pure, ← String.toList_inj]

theorem expand_eq_error_iff {env : Environment} {text : String} {fault : ExpandFault} :
    expand env text = .error fault ↔ expandSegments env text (ofText text) = .error fault := by
  rw [expand]
  cases expandSegments env text (ofText text) <;> simp [pure, Except.pure]

/-- Two parts of a text that expand one by one expand together, to the two results one after the
other, where the second part does not go on with a reference of the first. A variable that the first
part misses is missed by the whole text. -/
theorem expand_append (env : Environment) (a b : String)
    (hb : ∀ c ∈ b.toList.head?, c ≠ '\x7b' ∧ ¬ isNameChar c) :
    (∀ x y, expand env a = .ok x → expand env b = .ok y → expand env (a ++ b) = .ok (x ++ y)) ∧
    (∀ name, expand env a = .error (.missingVariable name) →
      expand env (a ++ b) = .error (.missingVariable name)) := by
  simp only [expand_eq_ok_iff, expand_eq_error_iff]
  -- What a part gives on its own it gives within the whole text.
  have hwhole {part segments r} (h : expandSegments env part segments = r)
      (hne : r ≠ .error (.unterminated part)) : expandSegments env (a ++ b) segments = r := by
    subst h
    exact expandSegments_congr_text hne (a ++ b)
  rcases ofText_append a hb with hab | ⟨segments, more, ha, hab⟩
  · refine ⟨fun x y hx hy => ?_, fun name hname => ?_⟩
    · rw [hab, expandSegments_append, hwhole hx nofun, hwhole hy nofun, String.toList_append]
      rfl
    · rw [hab, expandSegments_append, hwhole hname (by simp)]
      rfl
  · -- The brace left open leaves the first part without a value, but not without missing variables.
    have hopen : expandSegments env a [.unclosed] = .error (.unterminated a) := rfl
    rw [ha, hab, expandSegments_append, hopen, expandSegments_append]
    cases hsegments : expandSegments env a segments with
    | ok chars => exact ⟨nofun, nofun⟩
    | error fault =>
      refine ⟨nofun, fun name hname => ?_⟩
      obtain rfl : fault = .missingVariable name := Except.error.inj hname
      rw [hwhole hsegments (by simp)]
      rfl

/-- The value of the one variable looks like a reference itself. -/
def oneVariable : Environment := fun name => if name = "a" then some "$b" else none

theorem expand_append_of_engine_call_and_open_brace :
    expand oneVariable "$a$__f($" = .ok "$b$__f($" ∧
      expand oneVariable "$\x7ba\x7d" = .ok "$b" ∧
      expand oneVariable ("$a$__f($" ++ "$\x7ba\x7d") = .ok ("$b$__f($" ++ "$b") ∧
      expand oneVariable "$a$c\x7d$\x7ba" = .error (.missingVariable "c") ∧
      expand oneVariable ("$a$c\x7d$\x7ba" ++ "\x7d$a") = .error (.missingVariable "c") := by
  have hfirst : expand oneVariable "$a$__f($" = .ok "$b$__f($" := by decide +kernel
  have hsecond : expand oneVariable "$\x7ba\x7d" = .ok "$b" := by decide +kernel
  have hmissed : expand oneVariable "$a$c\x7d$\x7ba" = .error (.missingVariable "c") := by
    decide +kernel
  have hdollar : ∀ c ∈ "$\x7ba\x7d".toList.head?, c ≠ '\x7b' ∧ ¬ isNameChar c := by
    simp [isNameChar]
  have hbrace : ∀ c ∈ "\x7d$a".toList.head?, c ≠ '\x7b' ∧ ¬ isNameChar c := by
    simp [isNameChar]
  exact ⟨hfirst, hsecond, (expand_append oneVariable "$a$__f($" _ hdollar).1 _ _ hfirst hsecond,
    hmissed, (expand_append oneVariable "$a$c\x7d$\x7ba" _ hbrace).2 _ hmissed⟩

end SeriesQuery.Config
