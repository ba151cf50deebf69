import SeriesQuery.Proofs.Json.Literals
import SeriesQuery.Proofs.Json.Nodes
import SeriesQuery.Proofs.Json.Records

/-!
# Places in a document

A text may stop where a value is to come, within containers that are open there. If a document
starts with such a text and a literal, and is sound, then its tree has the literal at this place:
nothing that comes later can move it.
-/

namespace SeriesQuery.Json

open Node (Builder Frame)

/-! ### Texts that stop -/

namespace Scan

/-- The tokens that a text completes, and what is under way at its end. -/
def advance (scan : Scan) : List Char → List Token × Scan
  | [] => ([], scan)
  | c :: cs =>
    ((scan.step c).1 ++ (advance (scan.step c).2 cs).1, (advance (scan.step c).2 cs).2)

theorem run_append (scan : Scan) (cs rest : List Char) :
    scan.run (cs ++ rest) = (scan.advance cs).1 ++ (scan.advance cs).2.run rest := by
  induction cs generalizing scan with
  | nil => rfl
  | cons c cs ih => rw [List.cons_append, run_cons Prod.mk.eta.symm, ih, advance, List.append_assoc]

end Scan

/-- Whether a text stops where a value is to come, with the containers open there. -/
structure AwaitsValue (before : List Char) (stack : List Frame) : Prop where
  between : (Scan.between.advance before).2 = .between
  value : (Scan.between.advance before).1.foldl Builder.step (.value []) = .value stack

/-! ### Nodes in their places -/

namespace Node

/-- Whether a node stands in the tree where the containers were open, behind what they held. -/
def StandsAt (root : Node) : List Frame → Node → Prop
  | [], node => root = node
  | .array items :: stack, node => ∃ later closed,
    root.StandsAt stack (.array (items.reverse ++ node :: later) closed)
  | .member fields key :: stack, node => ∃ later closed,
    root.StandsAt stack (.object (fields.reverse ++ (key, node) :: later) closed)
  | .object _ :: _, _ => False

/-- Whether open containers hold a node in such a way that the tree has a property, however they
are closed. -/
inductive Secures (P : Node → Prop) : List Frame → Prop
  | array {later items : List Node} {node : Node} {stack : List Frame} :
      (∀ root, StandsAt root (.array items :: stack) node → P root) →
      Secures P (.array (later ++ node :: items) :: stack)
  | object {later fields : List (Option String × Node)} {key : Option String} {node : Node}
      {stack : List Frame} :
      (∀ root, StandsAt root (.member fields key :: stack) node → P root) →
      Secures P (.object (later ++ (key, node) :: fields) :: stack)
  | member {later fields : List (Option String × Node)} {key last : Option String} {node : Node}
      {stack : List Frame} :
      (∀ root, StandsAt root (.member fields key :: stack) node → P root) →
      Secures P (.member (later ++ (key, node) :: fields) last :: stack)
  | inner {frame : Frame} {stack : List Frame} : Secures P stack → Secures P (frame :: stack)

namespace Builder

/-- Whether the tree has a property if the document turns out to be sound. -/
def Ensures (P : Node → Prop) : Builder → Prop
  | .done root => P root
  | .failed _ => True
  | .value stack | .opened stack | .after stack | .nextKey stack | .colon stack => Secures P stack

variable {P : Node → Prop} {stack : List Frame} {node : Node}

theorem ensures_put (h : ∀ root, StandsAt root stack node → P root) :
    (put node stack).Ensures P := by
  match stack with
  | [] => exact h node rfl
  | .array items :: stack =>
    have hnew : Secures P (.array ([] ++ node :: items) :: stack) := .array h
    exact hnew
  | .member fields key :: stack =>
    have hnew : Secures P (.object ([] ++ (key, node) :: fields) :: stack) := .object h
    exact hnew
  | .object fields :: stack => trivial

theorem Ensures.of_secures (h : Secures P stack) (node : Node) : (put node stack).Ensures P := by
  cases h with
  | @array later items placed stack h =>
    have hgrown : Secures P (.array ((node :: later) ++ placed :: items) :: stack) := .array h
    exact hgrown
  | object h => trivial
  | @member later fields key last placed stack h =>
    have hgrown : Secures P (.object (((last, node) :: later) ++ (key, placed) :: fields) :: stack) :=
      .object h
    exact hgrown
  | @inner frame stack h =>
    cases frame with
    | array items => exact Secures.inner h
    | object fields => trivial
    | member fields key => exact Secures.inner h

/-- A container that is closed is a node in its place, with all that it holds. -/
theorem ensures_put_array {items : List Node} (h : Secures P (.array items :: stack)) :
    (put (.array items.reverse true) stack).Ensures P := by
  cases h with
  | @array later items placed stack h =>
    refine ensures_put fun root hroot => h root ⟨later.reverse, true, ?_⟩
    rwa [List.reverse_append, List.reverse_cons, List.append_assoc, List.singleton_append] at hroot
  | inner h => exact Ensures.of_secures h _

theorem ensures_put_object {fields : List (Option String × Node)}
    (h : Secures P (.object fields :: stack)) :
    (put (.object fields.reverse true) stack).Ensures P := by
  cases h with
  | @object later fields key placed stack h =>
    refine ensures_put fun root hroot => h root ⟨later.reverse, true, ?_⟩
    rwa [List.reverse_append, List.reverse_cons, List.append_assoc, List.singleton_append] at hroot
  | inner h => exact Ensures.of_secures h _

theorem Ensures.takeValue (h : Secures P stack) (token : Token) :
    (takeValue stack token).Ensures P := by
  cases token with
  | null | bool | number | string => exact of_secures h _
  | openBracket | openBrace => exact Secures.inner h
  | closeBracket | closeBrace | comma | colon | bad => trivial

theorem Ensures.takeKey (h : Secures P stack) (token : Token) : (takeKey stack token).Ensures P := by
  unfold Builder.takeKey
  split
  next fields stack key =>
    cases h with
    | object h => exact Secures.member h
    | inner h => exact Secures.inner h
  next => trivial

/-- What a document ensures, the next token does not undo. -/
theorem Ensures.step {builder : Builder} (h : builder.Ensures P) (token : Token) :
    (builder.step token).Ensures P := by
  cases builder with
  | value stack => exact takeValue h token
  | opened stack =>
    unfold Builder.step
    simp only
    split
    next => exact ensures_put_array h
    next => exact ensures_put_object h
    next => exact takeValue h token
    next => exact takeKey h token
  | after stack =>
    unfold Builder.step
    simp only
    split
    next => exact h
    next => exact ensures_put_array h
    next => exact h
    next => exact ensures_put_object h
    next => trivial
  | nextKey stack => exact takeKey h token
  | colon stack =>
    unfold Builder.step
    simp only
    split
    next => exact h
    next => trivial
  | done root => trivial
  | failed root => trivial

theorem Ensures.foldl {builder : Builder} (h : builder.Ensures P) (tokens : List Token) :
    (tokens.foldl Builder.step builder).Ensures P := by
  induction tokens generalizing builder with
  | nil => exact h
  | cons token tokens ih => exact ih (h.step token)

theorem Ensures.root {builder : Builder} (h : builder.Ensures P)
    (hsound : builder.document.sound) : P builder.document.root := by
  cases builder with
  | done root => exact h
  | value | opened | after | nextKey | colon | failed => cases hsound

end Builder

end Node

def Literal.node : Literal → Node
  | .bool b => .bool b
  | .number l => .number l.number?

/-- A literal is found where the containers before it were open. -/
theorem standsAt_literal {before after : List Char} {stack : List Frame}
    (hbefore : AwaitsValue before stack) (l : Literal) (hafter : EndsNumber after)
    (hsound : (Document.ofText (String.ofList (before ++ l.chars ++ after))).sound) :
    (Document.ofText (String.ofList (before ++ l.chars ++ after))).root.StandsAt stack l.node := by
  have htokens : Token.scan (String.ofList (before ++ l.chars ++ after)) =
      (Scan.between.advance before).1 ++ l.token :: Scan.between.run after := by
    rw [Token.scan, String.toList_ofList, List.append_assoc, Scan.run_append, hbefore.between,
      Scan.run_literal l hafter]
  have hput : Builder.step (.value stack) l.token = Builder.put l.node stack := by
    cases l <;> rfl
  have hensures : (Builder.put l.node stack).Ensures fun root => root.StandsAt stack l.node :=
    Builder.ensures_put fun _ h => h
  rw [Document.ofText, htokens, Document.ofTokens, List.foldl_append, hbefore.value,
    List.foldl_cons, hput] at hsound ⊢
  exact (hensures.foldl _).root hsound

/-! ### Items and fields -/

section

variable {ε α : Type} {read : Origin → Node → Except (Fault ε) α} {origin : Origin}

theorem Node.exists_of_readItems_eq_ok {read : Node → Except (Fault ε) α} {closed : Bool}
    {items : List Node} {as : List α} (h : readItems read closed items = .ok as) {index : Nat}
    {item : Node} (hitem : items[index]? = some item) :
    ∃ a, as[index]? = some a ∧ read item = .ok a := by
  induction items generalizing as index with
  | nil => cases hitem
  | cons first items ih =>
    rw [readItems] at h
    simp only [Except.bind_eq_ok_iff] at h
    obtain ⟨a, ha, as', has', heq⟩ := h
    obtain rfl := Except.ok.inj heq
    cases index with
    | zero =>
      obtain rfl : first = item := Option.some.inj hitem
      exact ⟨a, rfl, ha⟩
    | succ index => exact ih has' hitem

theorem Node.exists_of_readList_eq_ok {items : List Node} {closed : Bool} {as : List α}
    (h : (Node.array items closed).readList origin read = .ok as) {index : Nat} {item : Node}
    (hitem : items[index]? = some item) :
    ∃ inside a, as[index]? = some a ∧ read inside item = .ok a := by
  rw [readList] at h
  obtain ⟨inside, -, h⟩ := Except.bind_eq_ok_iff.1 h
  exact ⟨inside, exists_of_readItems_eq_ok h hitem⟩

end

/-- Whether a value that comes next in a container is a certain field of a record. -/
def Node.Frame.Opens (shape : RecordShape) (name : String) : Frame → Prop
  | .member _ key => key = some name
  | .array items => shape.fields[items.length]? = some name
  | .object _ => False

/-- Whether a node is a record that has a certain node as a field. -/
inductive Node.HasField (shape : RecordShape) (name : String) (field : Node) : Node → Prop
  | object {fields : List (Option String × Node)} {closed : Bool} :
      (some name, field) ∈ fields → HasField shape name field (.object fields closed)
  | array {items : List Node} {closed : Bool} {index : Nat} :
      shape.fields[index]? = some name → items[index]? = some field →
      HasField shape name field (.array items closed)

theorem Node.StandsAt.exists_hasField {root node : Node} {frame : Frame} {stack : List Frame}
    {shape : RecordShape} {name : String} (h : root.StandsAt (frame :: stack) node)
    (hframe : frame.Opens shape name) :
    ∃ record, root.StandsAt stack record ∧ HasField shape name node record := by
  cases frame with
  | array items =>
    obtain ⟨later, closed, h⟩ := h
    refine ⟨_, h, .array hframe ?_⟩
    rw [List.getElem?_append_right (by rw [List.length_reverse]), List.length_reverse,
      Nat.sub_self, List.getElem?_cons_zero]
  | object fields => exact h.elim
  | member fields key =>
    obtain ⟨later, closed, h⟩ := h
    obtain rfl : key = some name := hframe
    exact ⟨_, h, .object (List.mem_append_right _ List.mem_cons_self)⟩

theorem Node.StandsAt.exists_getElem? {root node : Node} {items : List Node} {stack : List Frame}
    (h : root.StandsAt (.array items :: stack) node) :
    ∃ items' closed, root.StandsAt stack (.array items' closed) ∧
      items'[items.length]? = some node := by
  obtain ⟨later, closed, h⟩ := h
  refine ⟨_, closed, h, ?_⟩
  rw [List.getElem?_append_right (by rw [List.length_reverse]), List.length_reverse,
    Nat.sub_self, List.getElem?_cons_zero]

namespace RecordReader

variable {ε σ β : Type} {reader : RecordReader ε σ}

/-- Whether a part of a record changes with one field only. -/
def SetsApart (reader : RecordReader ε σ) (name : String) (part : σ → β) : Prop :=
  ∀ {origin : Origin} {name' : String} {node : Node} {a b : σ}, name' ≠ name →
    reader.set origin name' a node = .ok b → part b = part a

variable {name : String} {part : σ → β} (hpart : reader.SetsApart name part) {origin : Origin}
  {field : Node}

include hpart

theorem readFields_part_eq {closed : Bool} {fields : List (Option String × Node)}
    {seen : List String} {a c : σ} (hseen : name ∈ seen)
    (h : reader.readFields origin closed fields seen a = .ok c) : part c = part a := by
  induction fields generalizing seen a with
  | nil =>
    unfold readFields at h
    split at h
    next =>
      split at h
      next => cases h
      next => rw [Except.ok.inj h]
    next => cases h
  | cons head fields ih =>
    obtain ⟨seen', b, haccepts, hrest⟩ := readFields_cons_eq_ok_iff.1 h
    cases haccepts with
    | @known key node _ _ hnew hset =>
      have hne : key ≠ name := by
        rintro rfl
        exact hnew hseen
      rw [ih (List.mem_cons_of_mem _ hseen) hrest, hpart hne hset]
    | unknown => exact ih hseen hrest

theorem readFields_part_of_mem {closed : Bool} {fields : List (Option String × Node)}
    {seen : List String} {a c : σ} (hname : name ∈ reader.shape.fields)
    (hmem : (some name, field) ∈ fields)
    (h : reader.readFields origin closed fields seen a = .ok c) :
    ∃ a' b, reader.set origin name a' field = .ok b ∧ part c = part b := by
  induction fields generalizing seen a with
  | nil => cases hmem
  | cons head fields ih =>
    obtain ⟨seen', b, haccepts, hrest⟩ := readFields_cons_eq_ok_iff.1 h
    rcases List.mem_cons.1 hmem with rfl | hmem
    · cases haccepts with
      | known _ _ hset =>
        exact ⟨a, b, hset, readFields_part_eq hpart List.mem_cons_self hrest⟩
      | unknown hunknown => exact absurd hname hunknown
    · exact ih hmem hrest

theorem readElements_part_eq {names : List String} {items : List Node} {a c : σ}
    (hname : name ∉ names) (h : reader.readElements origin names items a = .ok c) :
    part c = part a := by
  induction names generalizing items a with
  | nil => rw [← Except.ok.inj h]
  | cons first names ih =>
    rw [List.mem_cons, not_or] at hname
    cases items with
    | nil => rw [← Except.ok.inj h]
    | cons item items =>
      obtain ⟨b, hset, hrest⟩ := Except.bind_eq_ok_iff.1 h
      rw [ih hname.2 hrest, hpart (Ne.symm hname.1) hset]

theorem readElements_part_of_getElem? {names : List String} (hnames : names.Nodup)
    {items : List Node} {index : Nat} {a c : σ} (hname : names[index]? = some name)
    (hitem : items[index]? = some field)
    (h : reader.readElements origin names items a = .ok c) :
    ∃ a' b, reader.set origin name a' field = .ok b ∧ part c = part b := by
  induction names generalizing items index a with
  | nil => cases hname
  | cons first names ih =>
    rw [List.nodup_cons] at hnames
    cases items with
    | nil => cases hitem
    | cons item items =>
      obtain ⟨b, hset, hrest⟩ := Except.bind_eq_ok_iff.1 h
      cases index with
      | zero =>
        obtain rfl : first = name := Option.some.inj hname
        obtain rfl : item = field := Option.some.inj hitem
        exact ⟨a, b, hset, readElements_part_eq hpart hnames.1 hrest⟩
      | succ index => exact ih hnames.2 hname hitem hrest

/-- A field of a record that is read decides what is set apart for it. -/
theorem read_part_of_hasField (hfields : reader.shape.fields.Nodup) {node : Node}
    (hnode : Node.HasField reader.shape name field node) {initial c : σ}
    (hname : name ∈ reader.shape.fields) (h : reader.read origin initial node = .ok c) :
    ∃ inside a b, reader.set inside name a field = .ok b ∧ part c = part b := by
  cases hnode with
  | object hmem =>
    rw [read] at h
    obtain ⟨inside, -, h⟩ := Except.bind_eq_ok_iff.1 h
    obtain ⟨a, b, hset, hc⟩ := readFields_part_of_mem hpart hname hmem h
    exact ⟨inside, a, b, hset, hc⟩
  | array hindex hitem =>
    rw [read] at h
    simp only [Except.bind_eq_ok_iff] at h
    obtain ⟨inside, -, c', helements, ⟨⟩, -, hc⟩ := h
    obtain rfl := Except.ok.inj hc
    obtain ⟨a, b, hset, hc⟩ := readElements_part_of_getElem? hpart hfields hindex hitem helements
    exact ⟨inside, a, b, hset, hc⟩

end RecordReader

end SeriesQuery.Json
