import SeriesQuery.Proofs.Json.LiteralTexts
import SeriesQuery.Proofs.Json.Places
import SeriesQuery.Proofs.Query.RoundTrip
import SeriesQuery.Proofs.Query.WindowSize

/-!
# Literals among the parameters of conditions

A condition stands alone in a text, or among the conditions of a query. The literal in the place of
its third parameter is what the condition compares with, as the text of the value of the literal.
-/

namespace SeriesQuery.Query

open Json (AwaitsValue Document EndsNumber Literal Node Origin RecordReader Value)
open Json.Node (Frame HasField)

theorem TaggedPart.setsApart_params : reader.SetsApart "params" TaggedPart.params := by
  intro origin field node p q hne h
  obtain ⟨update, hupdate, rfl, -⟩ := exists_update_of_set h
  cases hupdate with
  | params => exact absurd rfl hne
  | kind | name | other => rfl

theorem Target.setsApart_conditions : reader.SetsApart "where" Target.conditions := by
  intro origin field node t u hne h
  obtain ⟨update, hupdate, rfl, -⟩ := exists_update_of_set h
  cases hupdate with
  | conditions => exact absurd rfl hne
  | dataset | table | rawQuery | rawSql | timeColumn | timeColumnType | metricColumn | select |
    group | other => rfl

section

variable {origin : Origin} {node item : Node} {items : List Node} {closed : Bool} {index : Nat}

theorem TaggedPart.exists_param_of_hasField {p : TaggedPart} (h : read origin node = .ok p)
    (hparams : HasField reader.shape "params" (.array items closed) node)
    (hitem : items[index]? = some item) :
    ∃ inside v, p.params[index]? = some v ∧ item.readValue inside = (.ok v : Except ReadFault Value) := by
  obtain ⟨inside, q, q', hset, hp⟩ := RecordReader.read_part_of_hasField setsApart_params
    (by decide) hparams (by decide) h
  obtain ⟨params, hlist, hq⟩ := Except.bind_eq_ok_iff.1 hset
  obtain rfl := Except.ok.inj hq
  rw [hp]
  exact Node.exists_of_readList_eq_ok hlist hitem

theorem Descriptor.exists_condition_of_hasField {d : Descriptor} (h : read origin node = .ok d)
    (hconditions : HasField Target.reader.shape "where" (.array items closed) node)
    (hitem : items[index]? = some item) :
    ∃ inside c, d.conditions[index]? = some c ∧ Condition.read inside item = .ok c := by
  obtain ⟨t, ht, hd⟩ := Except.bind_eq_ok_iff.1 h
  obtain rfl := Except.ok.inj hd
  obtain ⟨inside, u, u', hset, hsame⟩ := RecordReader.read_part_of_hasField
    Target.setsApart_conditions Target.nodup_fields hconditions (by decide) ht
  obtain ⟨conditions, hoption, hu⟩ := Except.bind_eq_ok_iff.1 hset
  obtain rfl := Except.ok.inj hu
  obtain ⟨cs, hlist, rfl⟩ := Except.map_eq_ok_iff.1 hoption
  rw [Target.descriptor, hsame]
  exact Node.exists_of_readList_eq_ok hlist hitem

end

/-! ### Conditions in their places -/

/-- Whether a text has a condition behind containers that are open: behind none if the text is that
of the condition, or else within the list of the conditions of a query. -/
inductive ReadAt (text : String) : List Frame → Condition → Prop
  | alone {c : Condition} : Json.readText Condition.read text = .ok c → ReadAt text [] c
  | listed {conditions : List Node} {query : Frame} {d : Descriptor} {c : Condition} :
      query.Opens Target.reader.shape "where" → Descriptor.ofText text = .ok d →
      d.conditions[conditions.length]? = some c → ReadAt text [.array conditions, query] c

namespace ReadAt

variable {text : String} {stack : List Frame} {c : Condition}

theorem sound (h : ReadAt text stack c) : (Document.ofText text).sound := by
  cases h with
  | alone hread => exact (Json.readText_eq_ok_iff.1 hread).1
  | listed _ hread => exact (Json.readText_eq_ok_iff.1 hread).1

/-- The node that stands in the place is read as the condition. -/
theorem exists_read_eq_ok (h : ReadAt text stack c) {part : Node}
    (hpart : (Document.ofText text).root.StandsAt stack part) :
    ∃ origin, Condition.read origin part = .ok c := by
  cases h with
  | alone hread =>
    obtain rfl : (Document.ofText text).root = part := hpart
    exact ⟨.start, (Json.readText_eq_ok_iff.1 hread).2⟩
  | listed hquery hread hc =>
    obtain ⟨items, closed, hitems, hitem⟩ := hpart.exists_getElem?
    obtain ⟨root, hroot, hfield⟩ := hitems.exists_hasField hquery
    obtain rfl : (Document.ofText text).root = root := hroot
    obtain ⟨inside, c', hc', hread'⟩ := Descriptor.exists_condition_of_hasField
      (Json.readText_eq_ok_iff.1 hread).2 hfield hitem
    obtain rfl := Option.some.inj (hc.symm.trans hc')
    exact ⟨inside, hread'⟩

end ReadAt

/-! ### The third parameter -/

theorem value?_eq_some_of_readValue {l : Literal} {inside : Origin} {v : Value}
    (h : l.node.readValue inside = (.ok v : Except ReadFault Value)) : l.value? = some v := by
  cases l with
  | bool b => exact congrArg some (Except.ok.inj h)
  | number l =>
    rw [Literal.value?]
    rw [Literal.node] at h
    cases hn : l.number? with
    | none =>
      rw [hn] at h
      cases h
    | some n =>
      rw [hn] at h
      exact congrArg some (Except.ok.inj h)

theorem ParamText.eq_text_of_literal {l : Literal} {v : Value} {text : String}
    (hv : l.value? = some v) (h : ParamText v text) : text = v.text := by
  cases h with
  | string s =>
    cases l with
    | bool b => cases hv
    | number l =>
      obtain ⟨n, -, hn⟩ := Option.map_eq_some_iff.1 hv
      cases hn
  | json => rfl

/-- A condition compares with the text of the value of a literal that is its third parameter. -/
theorem exists_value_of_awaitsValue {before after : List Char} {params : List Node} {part : Frame}
    {stack : List Frame} {l : Literal} {left op right : String}
    (hplace : AwaitsValue before (.array params :: part :: stack)) (hthird : params.length = 2)
    (hparams : part.Opens TaggedPart.reader.shape "params") (hafter : EndsNumber after)
    (hread : ReadAt (String.ofList (before ++ l.chars ++ after)) stack
      (.expression left op right)) :
    ∃ v, l.value? = some v ∧ right = v.text := by
  obtain ⟨items, closed, hitems, hitem⟩ :=
    (Json.standsAt_literal hplace l hafter hread.sound).exists_getElem?
  obtain ⟨record, hrecord, hfield⟩ := hitems.exists_hasField hparams
  obtain ⟨origin, hcondition⟩ := hread.exists_read_eq_ok hrecord
  obtain ⟨p, hp, hcontent⟩ := Except.bind_eq_ok_iff.1 hcondition
  have hexpression := TaggedPart.toCondition_eq_ok_iff.1 (liftContent_eq_ok_iff.1 hcontent)
  rw [hthird] at hitem
  obtain ⟨inside, v, hv, hvalue⟩ := TaggedPart.exists_param_of_hasField hp hfield hitem
  cases hexpression with
  | expression _ _ _ hright =>
    obtain ⟨v', hv', htext⟩ := hright
    obtain rfl := Option.some.inj (hv'.symm.trans hv)
    have hliteral := value?_eq_some_of_readValue hvalue
    exact ⟨v', hliteral, htext.eq_text_of_literal hliteral⟩

end SeriesQuery.Query
