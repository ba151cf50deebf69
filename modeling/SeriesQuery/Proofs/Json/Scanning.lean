import SeriesQuery.Json.Text
import SeriesQuery.Json.Token
import SeriesQuery.Proofs.Json.Numeral

/-!
# Scanning written values

Scanning the compact text of a value gives back the tokens the value consists of, whatever its
strings hold. The statements are about a text with more behind it, which matters to numbers only:
they end where the next character cannot continue them.
-/

namespace SeriesQuery.Json

namespace Scan

theorem run_cons {scan next : Scan} {c : Char} {tokens : List Token}
    (h : scan.step c = (tokens, next)) (cs : List Char) :
    run scan (c :: cs) = tokens ++ run next cs := by
  rw [run, h]

/-- A character that is a token by itself. -/
theorem run_between_cons {c : Char} {token : Token} (h : start c = ([token], .between))
    (cs : List Char) : run .between (c :: cs) = token :: run .between cs := by
  rw [run, step, h]
  rfl

/-! ### Strings -/

end Scan

/-- The unit that a written character is read as. -/
def Unit16.ofChar (c : Char) : Unit16 :=
  if c.toNat < 0x20 ∧ c ∉ ['\x08', '\x0c', '\n', '\r', '\t'] then .escaped c.toNat else .char c

theorem Unit16.decode_ofChar_cons (c : Char) (units : List Unit16) :
    decode (ofChar c :: units) = (decode units).map (c :: ·) := by
  unfold ofChar
  split
  next h =>
    have hsurrogate : ∀ high, 0xd800 ≤ high → ¬ (high ≤ c.toNat ∧ c.toNat ≤ 0xdfff) := by omega
    cases units with
    | nil =>
      rw [decode.eq_def]
      simp only [Char.ofNat_toNat]
      rw [if_neg (hsurrogate _ le_rfl)]
      rfl
    | cons unit units =>
      rw [decode.eq_def]
      simp only [Char.ofNat_toNat]
      rw [if_neg (by omega), if_neg (by omega)]
  next h => rw [decode]

theorem Unit16.decode_map_ofChar (cs : List Char) : decode (cs.map ofChar) = some cs := by
  induction cs with
  | nil => rfl
  | cons c cs ih => rw [List.map_cons, decode_ofChar_cons, ih, Option.map_some]

theorem hexValue?_digitChar {n : Nat} (h : n < 16) : hexValue? n.digitChar = some n := by
  revert n
  decide

namespace Scan

theorem run_string_hex (units : List Unit16) {n : Nat} (h : n < 0x20) (rest : List Char) :
    run (.string units)
        ('\\' :: 'u' :: '0' :: '0' :: Nat.digitChar (n / 16) :: Nat.digitChar (n % 16) :: rest) =
      run (.string (.escaped n :: units)) rest := by
  have hzero : hexValue? '0' = some 0 := rfl
  have hhigh : hexValue? (n / 16).digitChar = some (n / 16) := hexValue?_digitChar (by omega)
  have hlow : hexValue? (n % 16).digitChar = some (n % 16) := hexValue?_digitChar (by omega)
  have hn : n / 16 * 16 + n % 16 = n := by omega
  simp [run, step, hzero, hhigh, hlow, hn]

theorem run_string_escapeChar (units : List Unit16) (c : Char) (rest : List Char) :
    run (.string units) (escapeChar c ++ rest) = run (.string (Unit16.ofChar c :: units)) rest := by
  unfold escapeChar
  by_cases hquote : c = '"'
  · subst c; rfl
  by_cases hbackslash : c = '\\'
  · subst c; rfl
  by_cases hshort : c ∈ ['\x08', '\x0c', '\n', '\r', '\t']
  · simp only [List.mem_cons, List.not_mem_nil, or_false] at hshort
    rcases hshort with rfl | rfl | rfl | rfl | rfl <;> rfl
  · have hunit : Unit16.ofChar c = if c.toNat < 0x20 then .escaped c.toNat else .char c := by
      simp only [Unit16.ofChar, hshort, not_false_eq_true, and_true]
    simp only [List.mem_cons, List.not_mem_nil, or_false, not_or] at hshort
    obtain ⟨hb, hf, hn, hr, ht⟩ := hshort
    rw [if_neg hquote, if_neg hbackslash, if_neg hb, if_neg hf, if_neg hn, if_neg hr, if_neg ht, hunit]
    by_cases hcontrol : c.toNat < 0x20
    · rw [if_pos hcontrol, if_pos hcontrol]
      exact run_string_hex units hcontrol rest
    · rw [if_neg hcontrol, if_neg hcontrol]
      simp [run, step, hquote, hbackslash, hcontrol]

theorem run_string_flatMap (units : List Unit16) (cs rest : List Char) :
    run (.string units) (cs.flatMap escapeChar ++ rest) =
      run (.string ((cs.map Unit16.ofChar).reverse ++ units)) rest := by
  induction cs generalizing units with
  | nil => rfl
  | cons c cs ih =>
    rw [List.flatMap_cons, List.append_assoc, run_string_escapeChar, ih]
    simp

theorem run_stringChars (s : String) (rest : List Char) :
    run .between (stringChars s ++ rest) = .string (some s) :: run .between rest := by
  have hopen : run .between (stringChars s ++ rest) =
      run (.string []) (s.toList.flatMap escapeChar ++ '"' :: rest) := by
    simp only [stringChars, List.cons_append, List.append_assoc, List.nil_append]
    rfl
  have hclose : run (.string ((s.toList.map Unit16.ofChar).reverse ++ [])) ('"' :: rest) =
      .string (some s) :: run .between rest := by
    simp [run, step, Unit16.decode_map_ofChar]
  rw [hopen, run_string_flatMap, hclose]

end Scan

/-! ### Integers -/

/-- A text that does not continue a number in front of it. -/
def EndsNumber (cs : List Char) : Prop :=
  ∀ c ∈ cs.head?, ∀ literal : Numeral, literal.push? c = none

theorem endsNumber_nil : EndsNumber [] := by
  intro c hc
  cases hc

theorem endsNumber_cons {c : Char} (h : c = ',' ∨ c = ']' ∨ c = '\x7d') (cs : List Char) :
    EndsNumber (c :: cs) := by
  intro _ hc literal
  cases hc
  unfold Numeral.push?
  rcases h with rfl | rfl | rfl <;> cases literal.phase <;> rfl

theorem ne_of_isDigit {c c' : Char} (h : c.isDigit) (h' : ¬ c'.isDigit) : c ≠ c' := by
  rintro rfl
  exact h' h

namespace Scan

theorem run_number {literal : Numeral} (hcomplete : literal.isComplete) {rest : List Char}
    (hrest : EndsNumber rest) :
    run (.number literal) rest = .number literal.number? :: run .between rest := by
  cases rest with
  | nil => simp [run, finish, numberToken, hcomplete]
  | cons c cs =>
    have hc : literal.push? c = none := hrest c rfl literal
    simp [run, step, hc, hcomplete]

theorem run_push {literal next : Numeral} {c : Char} (h : literal.push? c = some next)
    (cs : List Char) : run (.number literal) (c :: cs) = run (.number next) cs := by
  simp [run, step, h]

/-- Digits in a phase that they do not change are pushed one after the other. -/
theorem run_foldl {phase : Numeral.Phase} {push : Numeral → Char → Numeral}
    (hpush : ∀ n c, n.phase = phase → c.isDigit → n.push? c = some (push n c))
    (hphase : ∀ n c, (push n c).phase = n.phase) {n : Numeral} (hn : n.phase = phase)
    {cs : List Char} (hcs : ∀ c ∈ cs, c.isDigit) (rest : List Char) :
    run (.number n) (cs ++ rest) = run (.number (cs.foldl push n)) rest := by
  induction cs generalizing n with
  | nil => rfl
  | cons c cs ih =>
    rw [List.forall_mem_cons] at hcs
    rw [List.cons_append, run_push (hpush n c hn hcs.1), List.foldl_cons]
    exact ih ((hphase n c).trans hn) hcs.2

theorem push?_of_whole {n : Numeral} {c : Char} (hn : n.phase = .whole) (hc : c.isDigit) :
    n.push? c = some (n.addDigit c) := by
  have hpoint : c ≠ '.' := ne_of_isDigit hc (by decide)
  have he : c ≠ 'e' := ne_of_isDigit hc (by decide)
  have hE : c ≠ 'E' := ne_of_isDigit hc (by decide)
  simp [Numeral.push?, hn, hc, hpoint, he, hE]

/-- From a state in which a digit other than zero starts a literal, the digits of a positive number
lead to the literal of that number. -/
theorem run_toDigits {scan : Scan} {negative : Bool}
    (hstart : ∀ c, c.isDigit → c ≠ '0' →
      scan.step c = ([], .number ((Numeral.ofSign negative).addDigit c)))
    {n : Nat} (hpos : 0 < n) (rest : List Char) :
    run scan (Nat.toDigits 10 n ++ rest) = run (.number (Numeral.ofWhole negative n)) rest := by
  have hdigits := Text.forall_mem_toDigits n
  have hfirst := Text.head?_toDigits_ne_zero hpos
  obtain ⟨c, cs, hcs⟩ := List.exists_cons_of_ne_nil (Nat.toDigits_ne_nil (n := n))
  rw [Numeral.ofWhole, if_neg hpos.ne', hcs, List.foldl_cons]
  rw [hcs] at hdigits hfirst
  rw [List.forall_mem_cons] at hdigits
  have hc : c ≠ '0' := fun hzero => hfirst (congrArg some hzero)
  rw [List.cons_append, run_cons (hstart c hdigits.1 hc), List.nil_append]
  refine run_foldl (fun _ _ => push?_of_whole) Numeral.phase_addDigit ?_ hdigits.2 rest
  rw [Numeral.phase_addDigit]
  rfl

theorem run_whole (negative : Bool) (n : Nat) (rest : List Char) :
    run .between ((if negative then ['-'] else []) ++ (Nat.toDigits 10 n ++ rest)) =
      run (.number (Numeral.ofWhole negative n)) rest := by
  rcases Nat.eq_zero_or_pos n with rfl | hn
  · cases negative <;> rfl
  · cases negative with
    | false =>
      have hall : ∀ d < 10, 0 < d → step .between d.digitChar =
          ([], .number ((Numeral.ofSign false).addDigit d.digitChar)) := by decide
      refine run_toDigits (fun c hc hzero => ?_) hn rest
      rw [← Text.digitChar_toNat_sub hc]
      exact hall _ (Text.toNat_sub_lt_ten hc)
        (Nat.pos_of_ne_zero fun hnone => hzero ((Text.toNat_sub_eq_zero_iff hc).1 hnone))
    | true =>
      have hsign : step .between '-' =
          ([], .number { Numeral.ofSign true with phase := .sign }) := rfl
      rw [if_pos rfl, List.singleton_append, run_cons hsign, List.nil_append]
      refine run_toDigits (fun c hc hzero => ?_) hn rest
      simp [step, Numeral.push?, Numeral.ofSign, hc, hzero]

theorem run_integer {n : Int} (hlow : -(2 : Int) ^ 63 ≤ n) (hhigh : n < (2 : Int) ^ 64)
    {rest : List Char} (hrest : EndsNumber rest) :
    run .between ((Number.integer n).chars ++ rest) =
      .number (some (.integer n)) :: run .between rest := by
  have hsize : UInt64.size = 18446744073709551616 := rfl
  have hfits : Numeral.Fits (decide (n < 0)) n.natAbs := by
    unfold Numeral.Fits
    simp only [decide_eq_true_eq]
    split <;> omega
  have hnumber : (if decide (n < 0) then -(n.natAbs : Int) else n.natAbs) = n := by
    simp only [decide_eq_true_eq]
    split <;> omega
  have hchars : (Number.integer n).chars =
      (if decide (n < 0) then ['-'] else []) ++ Nat.toDigits 10 n.natAbs := by
    simp only [Number.chars, decide_eq_true_eq]
  rw [hchars, List.append_assoc, run_whole, run_number (Numeral.isComplete_ofWhole _ _) hrest,
    Numeral.number?_ofWhole_of_fits hfits, hnumber]

end Scan

/-! ### Values -/

namespace Value

mutual

/-- Whether every number is an integer that fits a 64-bit word, signed or unsigned. -/
def IsIntegral : Value → Prop
  | .number (.integer n) => -(2 : Int) ^ 63 ≤ n ∧ n < (2 : Int) ^ 64
  | .number (.double _) => False
  | .array items => AreIntegral items
  | .object fields => FieldsAreIntegral fields
  | _ => True

def AreIntegral : List Value → Prop
  | [] => True
  | item :: items => item.IsIntegral ∧ AreIntegral items

def FieldsAreIntegral : List (String × Value) → Prop
  | [] => True
  | (_, value) :: fields => value.IsIntegral ∧ FieldsAreIntegral fields

end

mutual

def tokens : Value → List Token
  | .null => [.null]
  | .bool b => [.bool b]
  | .number n => [.number (some n)]
  | .string s => [.string (some s)]
  | .array items => .openBracket :: itemsTokens items ++ [.closeBracket]
  | .object fields => .openBrace :: fieldsTokens fields ++ [.closeBrace]

def itemsTokens : List Value → List Token
  | [] => []
  | [item] => item.tokens
  | item :: items => item.tokens ++ .comma :: itemsTokens items

def fieldsTokens : List (String × Value) → List Token
  | [] => []
  | [(key, value)] => .string (some key) :: .colon :: value.tokens
  | (key, value) :: fields =>
    .string (some key) :: .colon :: value.tokens ++ .comma :: fieldsTokens fields

end

theorem itemsChars_cons_cons (item next : Value) (items : List Value) :
    itemsChars (item :: next :: items) = item.chars ++ ',' :: itemsChars (next :: items) := rfl

theorem fieldsChars_cons_cons (key : String) (value : Value) (next : String × Value)
    (fields : List (String × Value)) :
    fieldsChars ((key, value) :: next :: fields) =
      stringChars key ++ ':' :: value.chars ++ ',' :: fieldsChars (next :: fields) := rfl

theorem itemsTokens_cons_cons (item next : Value) (items : List Value) :
    itemsTokens (item :: next :: items) = item.tokens ++ .comma :: itemsTokens (next :: items) := rfl

theorem fieldsTokens_cons_cons (key : String) (value : Value) (next : String × Value)
    (fields : List (String × Value)) :
    fieldsTokens ((key, value) :: next :: fields) =
      .string (some key) :: .colon :: value.tokens ++ .comma :: fieldsTokens (next :: fields) := rfl

mutual

theorem run_chars (v : Value) (hv : v.IsIntegral) {rest : List Char} (hrest : EndsNumber rest) :
    Scan.run .between (v.chars ++ rest) = v.tokens ++ Scan.run .between rest := by
  cases v with
  | null => rfl
  | bool b => cases b <;> rfl
  | number n =>
    cases n with
    | integer n => exact Scan.run_integer hv.1 hv.2 hrest
    | double x => exact hv.elim
  | string s => exact Scan.run_stringChars s rest
  | array items =>
    have hend : EndsNumber (']' :: rest) := endsNumber_cons (.inr (.inl rfl)) rest
    have hitems := run_itemsChars items hv hend
    simp only [chars, tokens, List.append_assoc, List.cons_append, List.nil_append]
    rw [Scan.run_between_cons rfl, hitems, Scan.run_between_cons rfl]
  | object fields =>
    have hend : EndsNumber ('\x7d' :: rest) := endsNumber_cons (.inr (.inr rfl)) rest
    have hfields := run_fieldsChars fields hv hend
    simp only [chars, tokens, List.append_assoc, List.cons_append, List.nil_append]
    rw [Scan.run_between_cons rfl, hfields, Scan.run_between_cons rfl]

theorem run_itemsChars (items : List Value) (hv : AreIntegral items) {rest : List Char}
    (hrest : EndsNumber rest) :
    Scan.run .between (itemsChars items ++ rest) = itemsTokens items ++ Scan.run .between rest := by
  match items, hv with
  | [], _ => rfl
  | [item], hv => exact run_chars item hv.1 hrest
  | item :: next :: items, hv =>
    have hend := endsNumber_cons (.inl rfl) (itemsChars (next :: items) ++ rest)
    have hitem := run_chars item hv.1 hend
    have hitems := run_itemsChars (next :: items) hv.2 hrest
    rw [itemsChars_cons_cons, itemsTokens_cons_cons, List.append_assoc, List.cons_append, hitem,
      Scan.run_between_cons rfl, hitems]
    simp

theorem run_fieldsChars (fields : List (String × Value)) (hv : FieldsAreIntegral fields)
    {rest : List Char} (hrest : EndsNumber rest) :
    Scan.run .between (fieldsChars fields ++ rest) =
      fieldsTokens fields ++ Scan.run .between rest := by
  match fields, hv with
  | [], _ => rfl
  | [(key, value)], hv =>
    have hvalue := run_chars value hv.1 hrest
    rw [fieldsChars, fieldsTokens, List.append_assoc, List.cons_append, Scan.run_stringChars,
      Scan.run_between_cons rfl, hvalue]
    simp
  | (key, value) :: next :: fields, hv =>
    have hend := endsNumber_cons (.inl rfl) (fieldsChars (next :: fields) ++ rest)
    have hvalue := run_chars value hv.1 hend
    have hfields := run_fieldsChars (next :: fields) hv.2 hrest
    simp only [fieldsChars_cons_cons, fieldsTokens_cons_cons, List.append_assoc, List.cons_append]
    rw [Scan.run_stringChars, Scan.run_between_cons rfl, hvalue,
      Scan.run_between_cons rfl, hfields]

end

/-- The text of a value consists of its tokens. -/
theorem scan_text {v : Value} (hv : v.IsIntegral) : Token.scan v.text = v.tokens := by
  have hrun := run_chars v hv endsNumber_nil
  rw [List.append_nil] at hrun
  rw [Token.scan, text, String.toList_ofList, hrun]
  exact List.append_nil _

end Value

end SeriesQuery.Json
