import Mathlib.Data.List.TakeWhile
import SeriesQuery.Config.Template
import SeriesQuery.Proofs.Outcome

/-!
# The grammar of references

From left to right a text is cut into runs without dollar signs, references, and dollar signs that
stand for themselves; a brace that is never closed takes all that is left. What may stand in a
piece depends on what comes after it, so there is one cut. Expanding a text is giving each piece of
its cut a value, and fails at the first piece that has none.
-/

namespace SeriesQuery.Config.Template

inductive Piece where
  | plain (cs : List Char)
  | braced (name : List Char)
  | bare (name : List Char)
  | dollar
  | unclosed (cs : List Char)
  deriving DecidableEq, Repr

namespace Piece

def chars : Piece → List Char
  | .plain cs => cs
  | .braced name => '$' :: '\x7b' :: (name ++ ['\x7d'])
  | .bare name => '$' :: name
  | .dollar => ['$']
  | .unclosed cs => '$' :: '\x7b' :: cs

/-- Whether a piece may stand before the given rest of the text. -/
def Fits (rest : List Char) : Piece → Prop
  | .plain cs => cs ≠ [] ∧ '$' ∉ cs ∧ ∀ c ∈ rest.head?, c = '$'
  | .braced name => '\x7d' ∉ name
  | .bare name =>
    name ≠ [] ∧ (∀ c ∈ name, isNameChar c) ∧ (∀ c ∈ rest.head?, ¬ isNameChar c) ∧
      ¬ ['_', '_'] <+: name
  | .dollar =>
    (∀ c ∈ rest.head?, c ≠ '\x7b') ∧
      ((∀ c ∈ rest.head?, ¬ isNameChar c) ∨ ['_', '_'] <+: rest)
  | .unclosed cs => '\x7d' ∉ cs ∧ rest = []

/-- The characters that a piece stands for; `text` is the whole text, for the message. -/
def value (env : Environment) (text : String) : Piece → Except ExpandFault (List Char)
  | .plain cs => .ok cs
  | .braced name | .bare name =>
    match env (String.ofList name) with
    | some value => .ok value.toList
    | none => .error (.missingVariable (String.ofList name))
  | .dollar => .ok ['$']
  | .unclosed _ => .error (.unterminated text)

end Piece

/-- The pieces make up the text, and each may stand before those after it. -/
inductive IsCut : List Char → List Piece → Prop
  | nil : IsCut [] []
  | cons {piece : Piece} {rest : List Char} {pieces : List Piece} :
      piece.Fits rest → IsCut rest pieces → IsCut (piece.chars ++ rest) (piece :: pieces)

/-! ### Every text has one cut -/

theorem takeWhile_append_of_head {p : Char → Bool} {cs rest : List Char} (hcs : ∀ c ∈ cs, p c)
    (hrest : ∀ c ∈ rest.head?, ¬ p c) : (cs ++ rest).takeWhile p = cs := by
  rw [List.takeWhile_append_of_pos hcs]
  cases rest with
  | nil => rw [List.takeWhile_nil, List.append_nil]
  | cons c rest => rw [List.takeWhile_cons_of_neg (hrest c rfl), List.append_nil]

theorem not_of_mem_head?_dropWhile {p : Char → Bool} {cs : List Char} :
    ∀ c ∈ (cs.dropWhile p).head?, ¬ p c := by
  intro c hc
  have h := List.head?_dropWhile_not p cs
  rw [Option.mem_def.1 hc] at h
  simpa using h

theorem isNameChar_underscore : isNameChar '_' := by decide

theorem exists_takeWhile_of_prefix {cs : List Char} (h : ['_', '_'] <+: cs) :
    ∃ rest, cs.takeWhile isNameChar = '_' :: '_' :: rest := by
  obtain ⟨rest, rfl⟩ := h
  refine ⟨rest.takeWhile isNameChar, ?_⟩
  simp [isNameChar_underscore]

namespace Piece

/-- The piece that a text begins with. -/
def lead : List Char → Piece
  | '$' :: '\x7b' :: cs =>
    if '\x7d' ∈ cs then .braced (cs.takeWhile (· ≠ '\x7d')) else .unclosed cs
  | '$' :: cs =>
    if cs.takeWhile isNameChar = [] ∨ ['_', '_'] <+: cs.takeWhile isNameChar then .dollar
    else .bare (cs.takeWhile isNameChar)
  | cs => .plain (cs.takeWhile (· ≠ '$'))

theorem lead_of_ne {c : Char} (hc : c ≠ '$') (cs : List Char) :
    lead (c :: cs) = .plain ((c :: cs).takeWhile (· ≠ '$')) := by
  unfold lead
  split
  next heq => exact absurd (List.cons.inj heq).1 hc
  next heq => exact absurd (List.cons.inj heq).1 hc
  next => rfl

theorem lead_dollar {cs : List Char} (hcs : ∀ c ∈ cs.head?, c ≠ '\x7b') :
    lead ('$' :: cs) =
      if cs.takeWhile isNameChar = [] ∨ ['_', '_'] <+: cs.takeWhile isNameChar then .dollar
      else .bare (cs.takeWhile isNameChar) := by
  unfold lead
  split
  next heq => exact absurd rfl (hcs '\x7b' (by rw [(List.cons.inj heq).2]; rfl))
  next heq => rw [(List.cons.inj heq).2]
  next h => exact absurd rfl (h cs)

/-- What a text begins with is determined by its characters. -/
theorem Fits.lead_eq {piece : Piece} {rest : List Char} (h : piece.Fits rest) :
    lead (piece.chars ++ rest) = piece := by
  cases piece with
  | plain cs =>
    obtain ⟨hne, hcs, hrest⟩ := h
    obtain ⟨c, cs, rfl⟩ := List.exists_cons_of_ne_nil hne
    have hc : c ≠ '$' := by
      rintro rfl
      exact hcs List.mem_cons_self
    change lead (c :: (cs ++ rest)) = _
    rw [lead_of_ne hc, ← List.cons_append, takeWhile_append_of_head]
    · intro x hx
      simpa using ne_of_mem_of_not_mem hx hcs
    · intro x hx
      simpa using hrest x hx
  | braced name =>
    change '\x7d' ∉ name at h
    have hmem : '\x7d' ∈ name ++ '\x7d' :: rest := List.mem_append_right _ List.mem_cons_self
    have htake : (name ++ '\x7d' :: rest).takeWhile (· ≠ '\x7d') = name := by
      apply takeWhile_append_of_head
      · intro x hx
        simpa using ne_of_mem_of_not_mem hx h
      · simp
    have hchars : (braced name).chars ++ rest = '$' :: '\x7b' :: (name ++ '\x7d' :: rest) := by
      simp [chars]
    rw [hchars, lead, if_pos hmem, htake]
  | bare name =>
    obtain ⟨hne, hname, hrest, hcall⟩ := h
    have htake : (name ++ rest).takeWhile isNameChar = name :=
      takeWhile_append_of_head hname hrest
    obtain ⟨c, cs, rfl⟩ := List.exists_cons_of_ne_nil hne
    have hhead : ∀ x ∈ ((c :: cs) ++ rest).head?, x ≠ '\x7b' := by
      rintro x ⟨⟩ rfl
      exact absurd (hname _ List.mem_cons_self) (by decide)
    change lead ('$' :: ((c :: cs) ++ rest)) = _
    rw [lead_dollar hhead, htake, if_neg (not_or.2 ⟨hne, hcall⟩)]
  | dollar =>
    obtain ⟨hbrace, hrest⟩ := h
    have hliteral : rest.takeWhile isNameChar = [] ∨ ['_', '_'] <+: rest.takeWhile isNameChar := by
      rcases hrest with hend | hcall
      · exact .inl (takeWhile_append_of_head (List.forall_mem_nil _) hend)
      · obtain ⟨tail, htail⟩ := exists_takeWhile_of_prefix hcall
        rw [htail]
        exact .inr ⟨tail, rfl⟩
    change lead ('$' :: rest) = _
    rw [lead_dollar hbrace, if_pos hliteral]
  | unclosed cs =>
    obtain ⟨hcs, rfl⟩ := h
    change lead ('$' :: '\x7b' :: (cs ++ [])) = _
    rw [List.append_nil, lead, if_neg hcs]

theorem Fits.chars_ne_nil {piece : Piece} {rest : List Char} (h : piece.Fits rest) :
    piece.chars ≠ [] := by
  cases piece with
  | plain cs => exact h.1
  | braced | bare | dollar | unclosed => exact List.cons_ne_nil _ _

theorem exists_fits_plain {c : Char} (hc : c ≠ '$') (cs : List Char) :
    ∃ (piece : Piece) (rest : List Char), c :: cs = piece.chars ++ rest ∧ piece.Fits rest := by
  have hrun : (c :: cs).takeWhile (· ≠ '$') = c :: cs.takeWhile (· ≠ '$') :=
    List.takeWhile_cons_of_pos (by simpa using hc)
  refine ⟨.plain ((c :: cs).takeWhile (· ≠ '$')), (c :: cs).dropWhile (· ≠ '$'), ?_, ?_, ?_, ?_⟩
  · rw [chars, List.takeWhile_append_dropWhile]
  · rw [hrun]
    exact List.cons_ne_nil _ _
  · intro hmem
    simpa using List.mem_takeWhile_imp hmem
  · intro x hx
    simpa using not_of_mem_head?_dropWhile x hx

theorem exists_fits_brace (cs : List Char) :
    ∃ (piece : Piece) (rest : List Char), '$' :: '\x7b' :: cs = piece.chars ++ rest ∧
      piece.Fits rest := by
  by_cases hclosed : '\x7d' ∈ cs
  · obtain ⟨name, rest, rfl, hname⟩ := List.eq_append_cons_of_mem hclosed
    exact ⟨.braced name, rest, by simp [chars], hname⟩
  · exact ⟨.unclosed cs, [], by simp [chars], hclosed, rfl⟩

theorem exists_fits_dollar {cs : List Char} (hhead : ∀ c ∈ cs.head?, c ≠ '\x7b') :
    ∃ (piece : Piece) (rest : List Char), '$' :: cs = piece.chars ++ rest ∧ piece.Fits rest := by
  have hcut : cs.takeWhile isNameChar ++ cs.dropWhile isNameChar = cs :=
    List.takeWhile_append_dropWhile
  have hend : ∀ c ∈ (cs.dropWhile isNameChar).head?, ¬ isNameChar c := not_of_mem_head?_dropWhile
  by_cases hname : cs.takeWhile isNameChar = []
  · rw [hname, List.nil_append] at hcut
    rw [hcut] at hend
    exact ⟨.dollar, cs, rfl, hhead, .inl hend⟩
  by_cases hcall : ['_', '_'] <+: cs.takeWhile isNameChar
  · exact ⟨.dollar, cs, rfl, hhead, .inr (hcall.trans (List.takeWhile_prefix _))⟩
  · refine ⟨.bare (cs.takeWhile isNameChar), cs.dropWhile isNameChar, ?_, hname,
      fun c => List.mem_takeWhile_imp, hend, hcall⟩
    rw [chars, List.cons_append, hcut]

theorem exists_fits {cs : List Char} (hne : cs ≠ []) :
    ∃ (piece : Piece) (rest : List Char), cs = piece.chars ++ rest ∧ piece.Fits rest := by
  obtain ⟨c, cs, rfl⟩ := List.exists_cons_of_ne_nil hne
  by_cases hc : c = '$'
  · subst hc
    by_cases hbrace : ∃ after, cs = '\x7b' :: after
    · obtain ⟨after, rfl⟩ := hbrace
      exact exists_fits_brace after
    · apply exists_fits_dollar
      rintro x hx rfl
      exact hbrace ⟨cs.tail, List.eq_cons_of_mem_head? hx⟩
  · exact exists_fits_plain hc cs

end Piece

theorem exists_isCut (cs : List Char) : ∃ pieces, IsCut cs pieces := by
  induction hn : cs.length using Nat.strongRecOn generalizing cs with
  | ind n ih =>
    by_cases hne : cs = []
    · exact ⟨[], hne ▸ .nil⟩
    · obtain ⟨piece, rest, rfl, hfits⟩ := Piece.exists_fits hne
      have hpos := List.length_pos_iff.2 hfits.chars_ne_nil
      rw [List.length_append] at hn
      obtain ⟨pieces, hpieces⟩ := ih rest.length (by omega) rest rfl
      exact ⟨piece :: pieces, .cons hfits hpieces⟩

theorem IsCut.unique {cs : List Char} {pieces pieces' : List Piece} (h : IsCut cs pieces)
    (h' : IsCut cs pieces') : pieces = pieces' := by
  induction h generalizing pieces' with
  | nil =>
    generalize hcs : ([] : List Char) = cs at h'
    cases h' with
    | nil => rfl
    | cons hfits _ => exact absurd (List.append_eq_nil_iff.1 hcs.symm).1 hfits.chars_ne_nil
  | @cons piece rest pieces hfits hrest ih =>
    generalize hcs : piece.chars ++ rest = cs at h'
    cases h' with
    | nil => exact absurd (List.append_eq_nil_iff.1 hcs).1 hfits.chars_ne_nil
    | @cons piece' rest' pieces' hfits' hrest' =>
      -- Both cuts begin with what the text begins with, so the rests are the same.
      have hpiece : piece = piece' := by rw [← hfits.lead_eq, hcs, hfits'.lead_eq]
      subst hpiece
      obtain rfl := List.append_cancel_left hcs
      rw [ih hrest']

/-! ### The scan yields the pieces -/

namespace Piece

def segments : Piece → List Segment
  | .plain cs => cs.map .plain
  | .braced name | .bare name => [.reference name]
  | .dollar => [.plain '$']
  | .unclosed _ => [.unclosed]

end Piece

theorem run_cons (scan : Scan) (c : Char) (cs : List Char) :
    run scan (c :: cs) = (step scan c).1 ++ run (step scan c).2 cs := rfl

theorem run_outside_append {cs : List Char} (h : '$' ∉ cs) (rest : List Char) :
    run .outside (cs ++ rest) = cs.map .plain ++ run .outside rest := by
  induction cs with
  | nil => rfl
  | cons c cs ih =>
    have hc : c ≠ '$' := (List.ne_of_not_mem_cons h).symm
    have hcs := List.not_mem_of_not_mem_cons h
    have hstep : stepOutside c = ([.plain c], .outside) := if_neg hc
    rw [List.cons_append, run_cons, step, hstep, ih hcs]
    rfl

theorem run_brace_append {name : List Char} (h : '\x7d' ∉ name) (letters rest : List Char) :
    run (.brace letters) (name ++ '\x7d' :: rest) =
      .reference (letters.reverse ++ name) :: run .outside rest := by
  induction name generalizing letters with
  | nil => simp [run_cons, step]
  | cons c name ih =>
    have hc : c ≠ '\x7d' := (List.ne_of_not_mem_cons h).symm
    have hname := List.not_mem_of_not_mem_cons h
    have hstep : step (.brace letters) c = ([], .brace (c :: letters)) := if_neg hc
    rw [List.cons_append, run_cons, hstep, List.nil_append, ih hname]
    simp

theorem run_brace_of_not_mem {cs : List Char} (h : '\x7d' ∉ cs) (letters : List Char) :
    run (.brace letters) cs = [.unclosed] := by
  induction cs generalizing letters with
  | nil => rfl
  | cons c cs ih =>
    have hc : c ≠ '\x7d' := (List.ne_of_not_mem_cons h).symm
    have hcs := List.not_mem_of_not_mem_cons h
    have hstep : step (.brace letters) c = ([], .brace (c :: letters)) := if_neg hc
    rw [run_cons, hstep, List.nil_append, ih hcs]

theorem run_name_append {name : List Char} (h : ∀ c ∈ name, isNameChar c)
    (letters rest : List Char) :
    run (.name letters) (name ++ rest) = run (.name (name.reverse ++ letters)) rest := by
  induction name generalizing letters with
  | nil => rfl
  | cons c name ih =>
    rw [List.forall_mem_cons] at h
    have hstep : step (.name letters) c = ([], .name (c :: letters)) := if_pos h.1
    rw [List.cons_append, run_cons, hstep, List.nil_append, ih h.2]
    simp

/-- A name ends at the first character that cannot belong to it. -/
theorem run_name_of_head {rest : List Char} (h : ∀ c ∈ rest.head?, ¬ isNameChar c)
    (letters : List Char) :
    run (.name letters) rest = ofName letters.reverse ++ run .outside rest := by
  cases rest with
  | nil => simp [run, finish]
  | cons c rest =>
    have hstep : step (.name letters) c =
        (ofName letters.reverse ++ (stepOutside c).1, (stepOutside c).2) := if_neg (h c rfl)
    rw [run_cons, hstep, run_cons, step, List.append_assoc]

theorem run_dollar_of_head {rest : List Char}
    (h : ∀ c ∈ rest.head?, c ≠ '\x7b' ∧ ¬ isNameChar c) :
    run .dollar rest = .plain '$' :: run .outside rest := by
  cases rest with
  | nil => rfl
  | cons c rest =>
    obtain ⟨hbrace, hname⟩ := h c rfl
    have hstep : step .dollar c = (.plain '$' :: (stepOutside c).1, (stepOutside c).2) := by
      rw [step, if_neg hbrace, if_neg hname]
    rw [run_cons, hstep, run_cons, step, List.cons_append]

theorem run_dollar_cons {c : Char} (h : isNameChar c) (cs : List Char) :
    run .dollar (c :: cs) = run (.name [c]) cs := by
  have hbrace : c ≠ '\x7b' := by
    rintro rfl
    exact absurd h (by decide)
  have hstep : step .dollar c = ([], .name [c]) := by
    rw [step, if_neg hbrace, if_pos h]
  rw [run_cons, hstep, List.nil_append]

theorem ofName_of_not_prefix {name : List Char} (h : ¬ ['_', '_'] <+: name) :
    ofName name = [.reference name] := by
  unfold ofName
  split
  next rest => exact absurd ⟨rest, rfl⟩ h
  next => rfl

/-- A whole name after a dollar sign. -/
theorem run_dollar_name {name rest : List Char} (hne : name ≠ [])
    (hname : ∀ c ∈ name, isNameChar c) (hrest : ∀ c ∈ rest.head?, ¬ isNameChar c) :
    run .dollar (name ++ rest) = ofName name ++ run .outside rest := by
  obtain ⟨c, cs, rfl⟩ := List.exists_cons_of_ne_nil hne
  rw [List.forall_mem_cons] at hname
  rw [List.cons_append, run_dollar_cons hname.1, run_name_append hname.2, run_name_of_head hrest]
  simp

theorem run_dollar_engineCall {rest : List Char} (h : ['_', '_'] <+: rest) :
    run .dollar rest = .plain '$' :: run .outside rest := by
  obtain ⟨tail, htail⟩ := exists_takeWhile_of_prefix h
  have hname : ∀ c ∈ rest.takeWhile isNameChar, isNameChar c := fun c => List.mem_takeWhile_imp
  have hplain : '$' ∉ rest.takeWhile isNameChar := fun hc => absurd (hname _ hc) (by decide)
  have hcut : rest.takeWhile isNameChar ++ rest.dropWhile isNameChar = rest :=
    List.takeWhile_append_dropWhile
  have hne : rest.takeWhile isNameChar ≠ [] := by
    rw [htail]
    exact List.cons_ne_nil _ _
  have hofName : ofName (rest.takeWhile isNameChar) =
      .plain '$' :: (rest.takeWhile isNameChar).map .plain := by
    rw [htail]
    rfl
  -- The name is kept as it stands, so it may as well be read outside of names.
  calc run .dollar rest
      = run .dollar (rest.takeWhile isNameChar ++ rest.dropWhile isNameChar) := by rw [hcut]
    _ = .plain '$' :: (rest.takeWhile isNameChar).map .plain ++
          run .outside (rest.dropWhile isNameChar) := by
        rw [run_dollar_name hne hname not_of_mem_head?_dropWhile, hofName]
    _ = .plain '$' :: run .outside rest := by
        rw [List.cons_append, ← run_outside_append hplain, hcut]

theorem Piece.Fits.run_chars {piece : Piece} {rest : List Char} (h : piece.Fits rest) :
    run .outside (piece.chars ++ rest) = piece.segments ++ run .outside rest := by
  have hdollar : ∀ cs, run .outside ('$' :: cs) = run .dollar cs := fun cs => rfl
  have hbrace : ∀ cs, run .dollar ('\x7b' :: cs) = run (.brace []) cs := fun cs => rfl
  cases piece with
  | plain cs => exact run_outside_append h.2.1 rest
  | braced name =>
    have hchars : (Piece.braced name).chars ++ rest =
        '$' :: '\x7b' :: (name ++ '\x7d' :: rest) := by simp [Piece.chars]
    rw [hchars, hdollar, hbrace, run_brace_append h]
    rfl
  | bare name =>
    obtain ⟨hne, hname, hrest, hcall⟩ := h
    change run .dollar (name ++ rest) = _
    rw [run_dollar_name hne hname hrest, ofName_of_not_prefix hcall]
    rfl
  | dollar =>
    obtain ⟨hhead, hend | hcall⟩ := h
    · exact run_dollar_of_head fun c hc => ⟨hhead c hc, hend c hc⟩
    · exact run_dollar_engineCall hcall
  | unclosed cs =>
    obtain ⟨hcs, rfl⟩ := h
    change run (.brace []) (cs ++ []) = _
    rw [List.append_nil, run_brace_of_not_mem hcs]
    rfl

theorem IsCut.run_eq {cs : List Char} {pieces : List Piece} (h : IsCut cs pieces) :
    run .outside cs = pieces.flatMap Piece.segments := by
  induction h with
  | nil => rfl
  | cons hfits _ ih => rw [hfits.run_chars, ih, List.flatMap_cons]

/-! ### Expanding the pieces -/

section

variable (env : Environment) (text : String)

theorem expandSegments_append (segments segments' : List Segment) :
    expandSegments env text (segments ++ segments') = do
      let chars ← expandSegments env text segments
      let rest ← expandSegments env text segments'
      return chars ++ rest := by
  induction segments with
  | nil =>
    cases h : expandSegments env text segments' <;> simp [expandSegments, h]
  | cons segment segments ih =>
    rw [List.cons_append, expandSegments, expandSegments, ih]
    cases expandSegment env text segment with
    | error fault => rfl
    | ok chars =>
      cases expandSegments env text segments with
      | error fault => rfl
      | ok more =>
        cases expandSegments env text segments' with
        | error fault => rfl
        | ok rest => simp [pure, Except.pure]

theorem expandSegments_plain (cs : List Char) :
    expandSegments env text (cs.map .plain) = .ok cs := by
  induction cs with
  | nil => rfl
  | cons c cs ih =>
    rw [List.map_cons, expandSegments, ih]
    rfl

theorem expandSegments_segments (piece : Piece) :
    expandSegments env text piece.segments = piece.value env text := by
  cases piece with
  | plain cs => exact expandSegments_plain env text cs
  | braced name | bare name =>
    cases h : env (String.ofList name) <;>
      simp [Piece.segments, Piece.value, expandSegments, expandSegment, h, pure, Except.pure]
  | dollar | unclosed => rfl

theorem expandSegments_flatMap (pieces : List Piece) :
    expandSegments env text (pieces.flatMap Piece.segments) =
      (pieces.mapM (Piece.value env text)).map List.flatten := by
  induction pieces with
  | nil => rfl
  | cons piece pieces ih =>
    rw [List.flatMap_cons, expandSegments_append, expandSegments_segments, ih, List.mapM_cons]
    cases piece.value env text with
    | error fault => rfl
    | ok chars => cases pieces.mapM (Piece.value env text) <;> rfl

theorem expand_eq_of_isCut {pieces : List Piece} (h : IsCut text.toList pieces) :
    expand env text =
      (pieces.mapM (Piece.value env text)).map fun values => String.ofList values.flatten := by
  rw [expand, ofText, h.run_eq, expandSegments_flatMap]
  cases pieces.mapM (Piece.value env text) <;> rfl

end

/-- Every text has one cut. The text expands when each piece of its cut has a value, to these
values one after the other, at which nothing looks again. Otherwise the leftmost piece that has no
value gives the fault. -/
theorem expand_values_each_piece (text : String) :
    ∃ pieces, (∀ other, IsCut text.toList other ↔ other = pieces) ∧ ∀ env,
      (∀ expanded, expand env text = .ok expanded ↔
        ∃ values, List.Forall₂ (fun piece value => piece.value env text = .ok value) pieces values ∧
          expanded.toList = values.flatten) ∧
      (∀ fault, expand env text = .error fault ↔
        ∃ before piece after, pieces = before ++ piece :: after ∧
          (∀ earlier ∈ before, ∃ value, earlier.value env text = .ok value) ∧
          piece.value env text = .error fault) := by
  obtain ⟨pieces, hcut⟩ := exists_isCut text.toList
  refine ⟨pieces, fun other => ⟨fun h => h.unique hcut, fun h => h ▸ hcut⟩, fun env => ⟨?_, ?_⟩⟩
  · intro expanded
    rw [expand_eq_of_isCut env text hcut, Except.map_eq_ok_iff]
    simp only [Except.mapM_eq_ok_iff]
    constructor
    · rintro ⟨values, hvalues, rfl⟩
      exact ⟨values, hvalues, String.toList_ofList⟩
    · rintro ⟨values, hvalues, hexpanded⟩
      exact ⟨values, hvalues, by rw [← hexpanded, String.ofList_toList]⟩
  · intro fault
    rw [expand_eq_of_isCut env text hcut, Except.map_eq_error_iff, Except.mapM_eq_error_iff]

example : expand (fun name => if name = "a" then some "$b" else none) "$a$__f($ 5)$$\x7ba\x7dé" =
    .ok "$b$__f($ 5)$$bé" := by decide +kernel

end SeriesQuery.Config.Template
