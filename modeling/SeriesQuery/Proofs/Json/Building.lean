import SeriesQuery.Json.Reading
import SeriesQuery.Proofs.Json.Scanning

/-!
# Building documents from written values

The tokens of a value build its node in whatever containers are open, so the text of a value is a
sound document with the node of the value as its root.
-/

namespace SeriesQuery.Json

theorem Node.ofFields_eq_map (fields : List (String × Value)) :
    Node.ofFields fields = fields.map fun field => (some field.1, Node.ofValue field.2) := by
  induction fields with
  | nil => rfl
  | cons field fields ih => rw [Node.ofFields, ih, List.map_cons]

theorem Node.ofValue_ne_null {v : Value} (h : v ≠ .null) : ofValue v ≠ .null := by
  cases v with
  | null => exact absurd rfl h
  | bool | number | string | array | object => exact Node.noConfusion

theorem Node.readOption_of_ne {ε α : Type} {n : Node} (h : n ≠ .null)
    (read : Node → Except (Fault ε) α) : n.readOption read = (read n).map some := by
  cases n with
  | null => exact absurd rfl h
  | bool | number | string | array | object | broken => rfl

namespace Node.Builder

open Value (itemsTokens fieldsTokens itemsTokens_cons_cons fieldsTokens_cons_cons)

/-- An opened array takes the first token of a value as that of its first item. -/
theorem foldl_tokens_opened (v : Value) (stack : List Frame) :
    v.tokens.foldl step (.opened (.array [] :: stack)) =
      v.tokens.foldl step (.value (.array [] :: stack)) := by
  cases v <;> rfl

theorem foldl_itemsTokens_opened (item : Value) (items : List Value) (stack : List Frame) :
    (itemsTokens (item :: items)).foldl step (.opened (.array [] :: stack)) =
      (itemsTokens (item :: items)).foldl step (.value (.array [] :: stack)) := by
  cases items with
  | nil => exact foldl_tokens_opened item stack
  | cons next items =>
    rw [itemsTokens_cons_cons, List.foldl_append, List.foldl_append, foldl_tokens_opened]

theorem foldl_fieldsTokens_opened (field : String × Value) (fields : List (String × Value))
    (stack : List Frame) :
    (fieldsTokens (field :: fields)).foldl step (.opened (.object [] :: stack)) =
      (fieldsTokens (field :: fields)).foldl step (.nextKey (.object [] :: stack)) := by
  cases fields <;> rfl

mutual

theorem foldl_tokens (v : Value) (stack : List Frame) :
    v.tokens.foldl step (.value stack) = put (ofValue v) stack := by
  match v with
  | .null => rfl
  | .bool b => rfl
  | .number n => rfl
  | .string s => rfl
  | .array [] => rfl
  | .array (item :: items) =>
    have hopen : step (.value stack) .openBracket = .opened (.array [] :: stack) := rfl
    have hclose : ∀ read, step (.after (.array read :: stack)) .closeBracket =
        put (.array read.reverse true) stack := fun _ => rfl
    have hitems := foldl_itemsTokens (item :: items) (List.cons_ne_nil _ _) [] stack
    rw [Value.tokens, List.cons_append, List.foldl_cons, hopen, List.foldl_append,
      foldl_itemsTokens_opened, hitems, List.foldl_cons, hclose, List.append_nil,
      List.reverse_reverse]
    rfl
  | .object [] => rfl
  | .object (field :: fields) =>
    have hopen : step (.value stack) .openBrace = .opened (.object [] :: stack) := rfl
    have hclose : ∀ read, step (.after (.object read :: stack)) .closeBrace =
        put (.object read.reverse true) stack := fun _ => rfl
    have hfields := foldl_fieldsTokens (field :: fields) (List.cons_ne_nil _ _) [] stack
    rw [Value.tokens, List.cons_append, List.foldl_cons, hopen, List.foldl_append,
      foldl_fieldsTokens_opened, hfields, List.foldl_cons, hclose, List.append_nil,
      List.reverse_reverse]
    rfl

theorem foldl_itemsTokens (items : List Value) (hne : items ≠ []) (read : List Node)
    (stack : List Frame) :
    (itemsTokens items).foldl step (.value (.array read :: stack)) =
      .after (.array ((ofItems items).reverse ++ read) :: stack) := by
  match items, hne with
  | [item], _ =>
    have hitem := foldl_tokens item (.array read :: stack)
    rw [itemsTokens, hitem]
    rfl
  | item :: next :: items, _ =>
    have hcomma : step (.after (.array (ofValue item :: read) :: stack)) .comma =
        .value (.array (ofValue item :: read) :: stack) := rfl
    have hitem := foldl_tokens item (.array read :: stack)
    have hitems := foldl_itemsTokens (next :: items) (List.cons_ne_nil _ _)
      (ofValue item :: read) stack
    rw [itemsTokens_cons_cons, List.foldl_append, hitem, put, List.foldl_cons, hcomma, hitems]
    simp only [ofItems, List.reverse_cons, List.append_assoc, List.cons_append, List.nil_append]

theorem foldl_fieldsTokens (fields : List (String × Value)) (hne : fields ≠ [])
    (read : List (Option String × Node)) (stack : List Frame) :
    (fieldsTokens fields).foldl step (.nextKey (.object read :: stack)) =
      .after (.object ((ofFields fields).reverse ++ read) :: stack) := by
  have hkey : ∀ (key : String) (tokens : List Token),
      (.string (some key) :: .colon :: tokens).foldl step (.nextKey (.object read :: stack)) =
        tokens.foldl step (.value (.member read (some key) :: stack)) := fun _ _ => rfl
  match fields, hne with
  | [(key, v)], _ =>
    have hvalue := foldl_tokens v (.member read (some key) :: stack)
    rw [fieldsTokens, hkey, hvalue]
    rfl
  | (key, v) :: next :: fields, _ =>
    have hcomma : step (.after (.object ((some key, ofValue v) :: read) :: stack)) .comma =
        .nextKey (.object ((some key, ofValue v) :: read) :: stack) := rfl
    have hvalue := foldl_tokens v (.member read (some key) :: stack)
    have hfields := foldl_fieldsTokens (next :: fields) (List.cons_ne_nil _ _)
      ((some key, ofValue v) :: read) stack
    rw [fieldsTokens_cons_cons, List.cons_append, List.cons_append, hkey, List.foldl_append,
      hvalue, put, List.foldl_cons, hcomma, hfields]
    simp only [ofFields, List.reverse_cons, List.append_assoc, List.cons_append, List.nil_append]

end

end Node.Builder

/-- The text of a value is a sound document that holds the value. -/
theorem Document.ofText_text {v : Value} (hv : v.IsIntegral) :
    Document.ofText v.text = ⟨Node.ofValue v, true⟩ := by
  rw [ofText, Value.scan_text hv, ofTokens, Node.Builder.foldl_tokens]
  rfl

/-- Two values with one text have the same node. -/
theorem Node.ofValue_eq_of_text_eq {v w : Value} (hv : v.IsIntegral) (hw : w.IsIntegral)
    (h : v.text = w.text) : ofValue v = ofValue w := by
  have hdocument := Document.ofText_text hv
  rw [h, Document.ofText_text hw] at hdocument
  exact (Document.mk.inj hdocument).1.symm

section

variable {ε α : Type}

/-- Reading the text of a value is reading its node. -/
theorem readText_text (read : Origin → Node → Except (Fault ε) α) {v : Value}
    (hv : v.IsIntegral) : readText read v.text = read .start (Node.ofValue v) := by
  rw [readText, Document.ofText_text hv]
  cases read .start (Node.ofValue v) <;> rfl

end

end SeriesQuery.Json
