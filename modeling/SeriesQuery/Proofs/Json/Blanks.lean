import Mathlib.Data.List.Chain
import SeriesQuery.Json.Node
import SeriesQuery.Proofs.Json.Scanning

/-!
# Blanks between tokens

`unspaced` is a text without the blanks outside of its strings. A sound document has the same tokens
without them, since it never has two numbers in a row, and only there does a blank keep two tokens
apart. So two sound documents that differ in blanks alone are the same.
-/

namespace SeriesQuery.Json

/-! ### Texts without blanks -/

def isBlank (c : Char) : Bool := c == ' ' || c == '\t' || c == '\n' || c == '\r'

theorem eq_of_isBlank {c : Char} (h : isBlank c) : c = ' ' ∨ c = '\t' ∨ c = '\n' ∨ c = '\r' := by
  simpa [isBlank, or_assoc] using h

/-- Where in a text a character stands. -/
inductive Place where
  | outside
  | inString
  /-- Just after a backslash in a string. -/
  | escaped
  deriving DecidableEq, Repr

def Place.next : Place → Char → Place
  | .outside, c => if c = '"' then .inString else .outside
  | .inString, c => if c = '"' then .outside else if c = '\\' then .escaped else .inString
  | .escaped, _ => .inString

theorem Place.next_outside {c : Char} (h : c ≠ '"') : Place.outside.next c = .outside := if_neg h

theorem Place.next_inString {c : Char} (hquote : c ≠ '"') (hslash : c ≠ '\\') :
    Place.inString.next c = .inString := by
  rw [next, if_neg hquote, if_neg hslash]

def withoutBlanks : Place → List Char → List Char
  | _, [] => []
  | place, c :: cs =>
    if place = .outside ∧ isBlank c then withoutBlanks place cs
    else c :: withoutBlanks (place.next c) cs

def unspaced (text : String) : String := String.ofList (withoutBlanks .outside text.toList)

/-! ### The tokens of a sound document -/

def Token.isNumber : Token → Bool
  | .number _ => true
  | _ => false

/-- Whether every token is well formed and no number comes right after another one. -/
structure Separated (tokens : List Token) : Prop where
  clean : .bad ∉ tokens
  apart : tokens.IsChain fun first second => ¬ (first.isNumber ∧ second.isNumber)

namespace Separated

variable {tokens rest : List Token} {first second : Token}

theorem right (h : Separated (tokens ++ rest)) : Separated rest where
  clean hmem := h.clean (List.mem_append_right _ hmem)
  apart := h.apart.right_of_append

theorem tail (h : Separated (first :: rest)) : Separated rest := by
  have hsplit : Separated ([first] ++ rest) := h
  exact hsplit.right

theorem not_bad_cons (h : Separated (.bad :: rest)) : False := h.clean List.mem_cons_self

theorem not_numbers (h : Separated (first :: second :: rest)) (hfirst : first.isNumber)
    (hsecond : second.isNumber) : False :=
  (List.isChain_cons_cons.1 h.apart).1 ⟨hfirst, hsecond⟩

end Separated

namespace Node.Builder

theorem exists_step_bad (b : Builder) : ∃ root, b.step .bad = .failed root := by
  cases b with
  | value stack => exact ⟨_, rfl⟩
  | opened stack => rcases stack with - | ⟨_ | _ | _, _⟩ <;> exact ⟨_, rfl⟩
  | after stack => rcases stack with - | ⟨_ | _ | _, _⟩ <;> exact ⟨_, rfl⟩
  | nextKey stack => rcases stack with - | ⟨_ | _ | _, _⟩ <;> exact ⟨_, rfl⟩
  | colon stack => exact ⟨_, rfl⟩
  | done root => exact ⟨_, rfl⟩
  | failed root => exact ⟨_, rfl⟩

theorem exists_step_put_number (node : Node) (stack : List Frame) (n : Option Number) :
    ∃ root, (put node stack).step (.number n) = .failed root := by
  rcases stack with - | ⟨_ | _ | _, _⟩ <;> exact ⟨_, rfl⟩

/-- After a number comes a comma or the end of a container, if anything. -/
theorem exists_step_number_number (b : Builder) (n n' : Option Number) :
    ∃ root, (b.step (.number n)).step (.number n') = .failed root := by
  cases b with
  | value stack => exact exists_step_put_number _ stack n'
  | opened stack =>
    rcases stack with - | ⟨_ | _ | _, stack⟩
    · exact ⟨_, rfl⟩
    · exact exists_step_put_number _ (.array _ :: stack) n'
    · exact ⟨_, rfl⟩
    · exact ⟨_, rfl⟩
  | after stack => rcases stack with - | ⟨_ | _ | _, _⟩ <;> exact ⟨_, rfl⟩
  | nextKey stack => rcases stack with - | ⟨_ | _ | _, _⟩ <;> exact ⟨_, rfl⟩
  | colon stack => exact ⟨_, rfl⟩
  | done root => exact ⟨_, rfl⟩
  | failed root => exact ⟨_, rfl⟩

theorem not_sound_of_failed (root : Node) (tokens : List Token) :
    ¬ (tokens.foldl step (.failed root)).document.sound := by
  induction tokens with
  | nil => exact Bool.false_ne_true
  | cons token tokens ih => exact ih

theorem separated_of_sound {b : Builder} {tokens : List Token}
    (h : (tokens.foldl step b).document.sound) : Separated tokens := by
  induction tokens generalizing b with
  | nil => exact ⟨List.not_mem_nil, .nil⟩
  | cons first tokens ih =>
    have hrest := ih h
    refine ⟨?_, ?_⟩
    · rw [List.mem_cons, not_or]
      refine ⟨?_, hrest.clean⟩
      rintro rfl
      obtain ⟨root, hroot⟩ := b.exists_step_bad
      rw [List.foldl_cons, hroot] at h
      exact not_sound_of_failed root tokens h
    · cases tokens with
      | nil => exact .singleton first
      | cons second tokens =>
        refine List.isChain_cons_cons.2 ⟨?_, hrest.apart⟩
        rintro ⟨hfirst, hsecond⟩
        cases first <;> cases hfirst
        cases second <;> cases hsecond
        rename_i n n'
        obtain ⟨root, hroot⟩ := b.exists_step_number_number n n'
        rw [List.foldl_cons, List.foldl_cons, hroot] at h
        exact not_sound_of_failed root tokens h

end Node.Builder

/-! ### Scanning without blanks -/

/-- The characters that a number literal can go on with. -/
theorem Numeral.isDigit_or_of_push? {literal : Numeral} {c : Char}
    (h : literal.push? c ≠ none) : c.isDigit ∨ c ∈ ['.', 'e', 'E', '+', '-'] := by
  by_contra hc
  simp only [List.mem_cons, List.not_mem_nil, or_false, not_or] at hc
  obtain ⟨hdigit, hpoint, he, hE, hplus, hminus⟩ := hc
  have hzero : c ≠ '0' := by
    rintro rfl
    exact hdigit rfl
  apply h
  unfold Numeral.push?
  cases literal.phase <;> simp [hdigit, hpoint, he, hE, hplus, hminus, hzero]

theorem Numeral.exists_start?_of_isDigit {c : Char} (h : c.isDigit) :
    ∃ literal, start? c = some literal := by
  unfold start?
  split
  next => exact ⟨_, rfl⟩
  next =>
    split
    next => exact ⟨_, rfl⟩
    next => exact ⟨_, rfl⟩

/-- A blank ends every number. -/
theorem Numeral.push?_blank (literal : Numeral) {c : Char} (h : isBlank c) :
    literal.push? c = none := by
  by_contra hpush
  have hcases := Numeral.isDigit_or_of_push? hpush
  rcases eq_of_isBlank h with rfl | rfl | rfl | rfl <;> exact absurd hcases (by decide)

namespace Scan

theorem run_stuck (cs : List Char) : run .stuck cs = [] := by
  induction cs with
  | nil => rfl
  | cons c cs ih => exact ih

theorem start_blank {c : Char} (h : isBlank c) : start c = ([], .between) := by
  rcases eq_of_isBlank h with rfl | rfl | rfl | rfl <;> rfl

theorem exists_start_of_isDigit {c : Char} (h : c.isDigit) :
    ∃ literal, start c = ([], .number literal) := by
  unfold start
  split
  case h_15 =>
    obtain ⟨literal, hliteral⟩ := Numeral.exists_start?_of_isDigit h
    rw [hliteral]
    exact ⟨literal, rfl⟩
  all_goals exact absurd h (by decide)

/-- What starts as a number is one, or is not well formed. -/
theorem exists_run_number (literal : Numeral) (cs : List Char) :
    ∃ token rest, run (.number literal) cs = token :: rest ∧ (token.isNumber ∨ token = .bad) := by
  induction cs generalizing literal with
  | nil =>
    refine ⟨numberToken literal, [], rfl, ?_⟩
    unfold numberToken
    split
    next => exact .inl rfl
    next => exact .inr rfl
  | cons c cs ih =>
    cases hpush : literal.push? c with
    | some next =>
      obtain ⟨token, rest, hrun, htoken⟩ := ih next
      exact ⟨token, rest, by rw [run, step, hpush]; exact hrun, htoken⟩
    | none =>
      by_cases hcomplete : literal.isComplete
      · exact ⟨.number literal.number?, _, by rw [run, step, hpush, if_pos hcomplete]; rfl, .inl rfl⟩
      · exact ⟨.bad, _, by rw [run, step, hpush, if_neg hcomplete]; rfl, .inr rfl⟩

/-- Where a number is followed by no number, the text after it does not continue it. -/
theorem endsNumber_of_separated {n : Option Number} {cs : List Char}
    (h : Separated (.number n :: run .between cs)) : EndsNumber cs := by
  intro c hc literal
  by_contra hpush
  cases cs with
  | nil => cases hc
  | cons first cs =>
    cases hc
    have hnumber (literal : Numeral) (hstart : start c = ([], .number literal)) : False := by
      obtain ⟨token, rest, hrun, htoken⟩ := exists_run_number literal cs
      have hstep : step .between c = ([], .number literal) := hstart
      rw [run_cons hstep, List.nil_append, hrun] at h
      rcases htoken with htoken | rfl
      · exact h.not_numbers rfl htoken
      · exact h.tail.not_bad_cons
    have hbad (hstart : start c = ([.bad], .stuck)) : False := by
      have hstep : step .between c = ([.bad], .stuck) := hstart
      rw [run_cons hstep] at h
      exact h.tail.not_bad_cons
    rcases Numeral.isDigit_or_of_push? hpush with hdigit | hmem
    · obtain ⟨literal, hstart⟩ := exists_start_of_isDigit hdigit
      exact hnumber literal hstart
    -- Of the other characters only the minus starts a token.
    · simp only [List.mem_cons, List.not_mem_nil, or_false] at hmem
      rcases hmem with rfl | rfl | rfl | rfl | rfl
      · exact hbad rfl
      · exact hbad rfl
      · exact hbad rfl
      · exact hbad rfl
      · exact hnumber _ rfl

def place : Scan → Place
  | .string _ => .inString
  | .hex _ _ _ => .inString
  | .escape _ => .escaped
  | _ => .outside

/-- Whether the letters that are expected are no blanks and no quotes. -/
def Regular : Scan → Prop
  | .word letters _ => ∀ c ∈ letters, ¬ isBlank c ∧ c ≠ '"'
  | _ => True

/-- The scan follows the places of the text, unless it gets stuck. -/
def Follows (next : Scan) (place : Place) : Prop :=
  next = .stuck ∨ next.place = place ∧ next.Regular

theorem follows_start {c : Char} (h : ¬ isBlank c) :
    (start c).2.Follows (Place.outside.next c) := by
  unfold start
  split
  case h_1 | h_2 | h_3 | h_4 => exact absurd rfl h
  case h_5 | h_6 | h_7 | h_8 | h_9 | h_10 | h_11 => exact .inr ⟨rfl, trivial⟩
  case h_12 | h_13 | h_14 => exact .inr ⟨rfl, by simp [Regular, isBlank]⟩
  case h_15 =>
    have hquote : c ≠ '"' := by assumption
    split
    next => exact .inr ⟨(Place.next_outside hquote).symm, trivial⟩
    next => exact .inl rfl

theorem follows_word {letters : List Char} {token : Token}
    (hscan : (word letters token).Regular) (c : Char) :
    ((word letters token).step c).2.Follows (Place.outside.next c) := by
  cases letters with
  | nil => exact .inl rfl
  | cons expected rest =>
    rw [step]
    by_cases hc : c = expected
    · subst hc
      have hplace := Place.next_outside (hscan c List.mem_cons_self).2
      rw [if_pos rfl]
      by_cases hrest : rest = []
      · rw [if_pos hrest]
        exact .inr ⟨hplace.symm, trivial⟩
      · rw [if_neg hrest]
        exact .inr ⟨hplace.symm, fun c hc => hscan c (List.mem_cons_of_mem _ hc)⟩
    · rw [if_neg hc]
      exact .inl rfl

theorem follows_string (units : List Unit16) (c : Char) :
    ((string units).step c).2.Follows (Place.inString.next c) := by
  rw [step]
  by_cases hquote : c = '"'
  · subst hquote
    exact .inr ⟨rfl, trivial⟩
  · by_cases hslash : c = '\\'
    · subst hslash
      exact .inr ⟨rfl, trivial⟩
    · rw [if_neg hquote, if_neg hslash]
      split
      next => exact .inl rfl
      next => exact .inr ⟨(Place.next_inString hquote hslash).symm, trivial⟩

theorem follows_hex (units : List Unit16) (digitsLeft unit : Nat) (c : Char) :
    ((hex units digitsLeft unit).step c).2.Follows (Place.inString.next c) := by
  rw [step]
  cases hvalue : hexValue? c with
  | some digit =>
    have hquote : c ≠ '"' := by
      rintro rfl
      cases hvalue
    have hslash : c ≠ '\\' := by
      rintro rfl
      cases hvalue
    have hplace := Place.next_inString hquote hslash
    by_cases hlast : digitsLeft ≤ 1
    · simp only [if_pos hlast]
      exact .inr ⟨hplace.symm, trivial⟩
    · simp only [if_neg hlast]
      exact .inr ⟨hplace.symm, trivial⟩
  | none => exact .inl rfl

theorem follows_step {scan : Scan} (hscan : scan.Regular) {c : Char}
    (h : ¬ (scan.place = .outside ∧ isBlank c)) : (scan.step c).2.Follows (scan.place.next c) := by
  cases scan with
  | between => exact follows_start fun hblank => h ⟨rfl, hblank⟩
  | word letters token => exact follows_word hscan c
  | number literal =>
    rw [step]
    cases hpush : literal.push? c with
    | some next =>
      have hquote : c ≠ '"' := by
        rintro rfl
        have hcases := Numeral.isDigit_or_of_push? (Option.ne_none_iff_exists'.2 ⟨next, hpush⟩)
        exact absurd hcases (by decide)
      exact .inr ⟨(Place.next_outside hquote).symm, trivial⟩
    | none =>
      by_cases hcomplete : literal.isComplete
      · simp only [if_pos hcomplete]
        exact follows_start fun hblank => h ⟨rfl, hblank⟩
      · simp only [if_neg hcomplete]
        exact .inl rfl
  | string units => exact follows_string units c
  | escape units =>
    rw [step]
    split
    next => exact .inr ⟨rfl, trivial⟩
    next =>
      split
      next => exact .inr ⟨rfl, trivial⟩
      next => exact .inl rfl
  | hex units digitsLeft unit => exact follows_hex units digitsLeft unit c
  | stuck => exact .inl rfl

/-- A blank between tokens leaves no trace. -/
theorem run_blank {scan : Scan} (hscan : scan.Regular) (hplace : scan.place = .outside) {c : Char}
    (hc : isBlank c) {cs : List Char} (h : Separated (run scan (c :: cs))) :
    run scan (c :: cs) = run scan cs := by
  have hstart := start_blank hc
  cases scan with
  | between => exact run_cons (show step .between c = ([], .between) from hstart) cs
  | word letters token =>
    -- The letters are no blanks, so the word would be cut off.
    have hstep : step (.word letters token) c = ([.bad], .stuck) := by
      cases letters with
      | nil => rfl
      | cons expected rest =>
        have hne : c ≠ expected := by
          rintro rfl
          exact (hscan c List.mem_cons_self).1 hc
        exact if_neg hne
    rw [run_cons hstep] at h
    exact h.not_bad_cons.elim
  | number literal =>
    have hpush := literal.push?_blank hc
    by_cases hcomplete : literal.isComplete
    · have hstep : step (.number literal) c = ([.number literal.number?], .between) := by
        rw [step, hpush, if_pos hcomplete, hstart]
      rw [run_cons hstep] at h ⊢
      exact (run_number hcomplete (endsNumber_of_separated h)).symm
    · have hstep : step (.number literal) c = ([.bad], .stuck) := by
        rw [step, hpush, if_neg hcomplete]
      rw [run_cons hstep] at h
      exact h.not_bad_cons.elim
  | string units => cases hplace
  | escape units => cases hplace
  | hex units digitsLeft unit => cases hplace
  | stuck => rfl

/-- A scan whose tokens are separated gives the same tokens without the blanks. -/
theorem run_withoutBlanks {scan : Scan} (hscan : scan.Regular) {cs : List Char}
    (h : Separated (run scan cs)) : run scan (withoutBlanks scan.place cs) = run scan cs := by
  induction cs generalizing scan with
  | nil => rfl
  | cons c cs ih =>
    rw [withoutBlanks]
    by_cases hblank : scan.place = .outside ∧ isBlank c
    · have hrun := run_blank hscan hblank.1 hblank.2 h
      rw [if_pos hblank, hrun]
      rw [hrun] at h
      exact ih hscan h
    · have hrun (cs : List Char) :
          run scan (c :: cs) = (scan.step c).1 ++ run (scan.step c).2 cs := rfl
      rw [hrun] at h ⊢
      rw [if_neg hblank, hrun]
      rcases follows_step hscan hblank with hstuck | ⟨hplace, hregular⟩
      · rw [hstuck, run_stuck, run_stuck]
      · rw [← hplace, ih hregular h.right]

end Scan

theorem Token.scan_unspaced {text : String} (h : (Document.ofText text).sound) :
    scan (unspaced text) = scan text := by
  have hregular : Scan.between.Regular := trivial
  rw [scan, scan, unspaced, String.toList_ofList]
  exact Scan.run_withoutBlanks hregular (Node.Builder.separated_of_sound h)

/-- Two sound documents that differ in blanks alone are the same. -/
theorem Document.ofText_eq_of_unspaced_eq {text text' : String} (h : (ofText text).sound)
    (h' : (ofText text').sound) (heq : unspaced text' = unspaced text) :
    ofText text' = ofText text := by
  rw [ofText, ofText, ← Token.scan_unspaced h, ← Token.scan_unspaced h', heq]

end SeriesQuery.Json
