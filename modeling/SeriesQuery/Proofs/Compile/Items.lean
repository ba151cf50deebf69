import SeriesQuery.Proofs.Compile.Texts
import SeriesQuery.Proofs.Sql.Stream

/-!
# Reading a statement back

A statement is a list of blocks: a heading and the lines indented under it. While the texts that it
is made of have no line breaks, nothing that they hold can be taken for a heading or for the end of
an item, so a statement determines its columns, its table, its conditions and its grouping.
-/

namespace SeriesQuery.Compile

open Query (ColumnSpec Condition Descriptor)
open Sql (Stream)
open Text (Composed IsWord OneLine Section broken marked)

namespace Statement

/-! ### Blocks -/

/-- Headings stand at the margin; every other line begins with a blank. -/
def IsHeading (line : String) : Prop := line.toList.head? ≠ some ' '

instance (line : String) : Decidable (IsHeading line) := inferInstanceAs (Decidable (_ ≠ _))

def indented (items : List String) : List String := items.map fun item => "  " ++ item

theorem indented_cons (item : String) (items : List String) :
    indented (item :: items) = ("  " ++ item) :: indented items := rfl

/-- The metric column, if there is one, and the value columns. -/
def laterColumns (d : Descriptor) (values : List String) : List String :=
  (d.metric.map fun _ => (Clause.metric d).text).toList ++ values

def conditionTexts (d : Descriptor) (o : Options) : List String :=
  d.conditions.map fun c => (Clause.condition d o c).text

def ordinalText (d : Descriptor) : String := if d.metric.isSome then "1,2" else "1"

def columnBlock (d : Descriptor) (o : Options) (values : List String) : Section String :=
  ⟨"SELECT", marked "," ((" " ++ (Clause.time d o true).text) :: indented (laterColumns d values))⟩

def conditionBlock (texts : List String) : Section String :=
  ⟨"WHERE", marked " AND" (indented texts)⟩

def conditionBlocks (texts : List String) : List (Section String) :=
  if texts.isEmpty then [] else [conditionBlock texts]

def closingBlocks (d : Descriptor) : List (Section String) :=
  (if d.group.isEmpty then [] else [⟨"GROUP BY " ++ ordinalText d, []⟩]) ++
    [⟨"ORDER BY " ++ ordinalText d, []⟩]

def blocks (d : Descriptor) (o : Options) (values : List String) : List (Section String) :=
  [⟨"#standardSQL", []⟩, columnBlock d o values, ⟨"FROM " ++ (Clause.table d o).text, []⟩] ++
    conditionBlocks (conditionTexts d o) ++ closingBlocks d

variable {d d' : Descriptor} {o o' : Options} {values values' : List String}

/-! ### The blocks make up the statement -/

theorem text_ordinalList (d : Descriptor) (keyword : Sql.Keyword) :
    (Clause.ordinalList d keyword).text = "\n" ++ keyword.text ++ " " ++ ordinalText d := by
  have hlead : (Stream.of [.newline, .keyword keyword, .space]).text =
      "\n" ++ keyword.text ++ " " := by
    simp [Sql.Token.text, String.append_assoc]
  have hpositions : (Stream.of [.comma]).text.intercalate
      (((Clause.ordinals d).map fun n => Stream.of [.position n]).map Stream.text) =
        ordinalText d := by
    unfold Clause.ordinals ordinalText
    split <;> decide
  rw [Clause.ordinalList, Stream.text_join, hlead, hpositions]

theorem broken_marked_indented (mark first : String) (items : List String) :
    broken (marked mark (first :: indented items)) =
      "\n" ++ first ++ String.join (items.map fun item => mark ++ "\n  " ++ item) := by
  have hbreak : ∀ item, mark ++ "\n" ++ ("  " ++ item) = mark ++ "\n  " ++ item := by
    intro item
    apply String.toList_injective
    simp
  rw [Text.broken_marked_cons, indented, List.map_map]
  simp only [Function.comp_def, hbreak]

theorem text_conditions (d : Descriptor) (o : Options) :
    (Clause.conditions d o).text =
      broken ((conditionBlocks (conditionTexts d o)).flatMap Section.items) := by
  unfold conditionBlocks conditionBlock conditionTexts
  rw [text_conditions_intercalate]
  cases d.conditions with
  | nil => rfl
  | cons c conditions =>
    have hmark : (" AND" ++ "\n  " : String) = " AND\n  " := by decide
    rw [if_neg (by simp), if_neg (by simp), List.map_cons, Sql.intercalate_cons,
      List.flatMap_singleton, Section.items, Text.broken_cons, indented_cons,
      broken_marked_indented, hmark]
    apply String.toList_injective
    simp

theorem text_closing (d : Descriptor) :
    (Clause.group d).text ++ (Clause.order d).text =
      broken ((closingBlocks d).flatMap Section.items) := by
  unfold Clause.group Clause.order closingBlocks
  apply String.toList_injective
  cases d.group.isEmpty <;> simp [text_ordinalList, Section.items, Sql.Keyword.text]

theorem join_laterColumns (d : Descriptor) (values : List String) :
    String.join ((laterColumns d values).map fun column => ",\n  " ++ column) =
      (if d.metric.isSome then ",\n  " ++ (Clause.metric d).text else "") ++
        String.join (values.map fun value => ",\n  " ++ value) := by
  unfold laterColumns
  cases d.metric <;> simp

theorem broken_columns (d : Descriptor) (o : Options) (values : List String) :
    broken (marked "," ((" " ++ (Clause.time d o true).text) :: indented (laterColumns d values))) =
      "\n " ++ (Clause.time d o true).text ++
        (if d.metric.isSome then ",\n  " ++ (Clause.metric d).text else "") ++
        String.join (values.map fun value => ",\n  " ++ value) := by
  have hmark : ("," ++ "\n  " : String) = ",\n  " := by decide
  rw [broken_marked_indented, hmark, join_laterColumns]
  apply String.toList_injective
  simp

theorem broken_blocks (d : Descriptor) (o : Options) (values : List String) :
    "\n" ++ layout d o values = broken ((blocks d o values).flatMap Section.items) := by
  have hclosing : (Clause.group d).text.toList ++ (Clause.order d).text.toList =
      (broken ((closingBlocks d).flatMap Section.items)).toList := by
    rw [← text_closing, String.toList_append]
  unfold layout framed blocks columnBlock
  apply String.toList_injective
  simp [Section.items, broken_columns, text_conditions, hclosing, text_table]

/-! ### The statement is cut back into its blocks -/

theorem not_isHeading_of_mem_marked {mark line : String} {items : List String}
    (hitems : ∀ item ∈ items, ¬IsHeading item) (h : line ∈ marked mark items) :
    ¬IsHeading line := by
  obtain ⟨item, hitem, hline⟩ := Text.exists_of_mem_marked h
  have hblank : item.toList.head? = some ' ' := Decidable.not_not.1 (hitems item hitem)
  rcases hline with rfl | rfl
  · exact hitems line hitem
  · simp [IsHeading, hblank]

theorem not_isHeading_indented {items : List String} :
    ∀ item ∈ indented items, ¬IsHeading item := by
  intro item hitem
  obtain ⟨text, -, rfl⟩ := List.mem_map.1 hitem
  simp [IsHeading]

/-- Every block but those of the columns and of the conditions is a heading alone. -/
theorem mem_blocks {s : Section String} (h : s ∈ blocks d o values) :
    s = columnBlock d o values ∨ s = conditionBlock (conditionTexts d o) ∨ s.body = [] ∧
      s.head ∈ ["#standardSQL", "FROM " ++ (Clause.table d o).text, "GROUP BY " ++ ordinalText d,
        "ORDER BY " ++ ordinalText d] := by
  rcases List.mem_append.1 h with hbefore | hclosing
  · rcases List.mem_append.1 hbefore with hfirst | hconditions
    · simp only [List.mem_cons, List.not_mem_nil, or_false] at hfirst
      rcases hfirst with rfl | rfl | rfl
      · exact .inr (.inr ⟨rfl, by simp⟩)
      · exact .inl rfl
      · exact .inr (.inr ⟨rfl, by simp⟩)
    · unfold conditionBlocks at hconditions
      split at hconditions
      · cases hconditions
      · exact .inr (.inl (List.mem_singleton.1 hconditions))
  · rcases List.mem_append.1 hclosing with hgroup | horder
    · split at hgroup
      · cases hgroup
      · cases List.mem_singleton.1 hgroup
        exact .inr (.inr ⟨rfl, by simp⟩)
    · cases List.mem_singleton.1 horder
      exact .inr (.inr ⟨rfl, by simp⟩)

theorem isCutBy_blocks {s : Section String} (h : s ∈ blocks d o values) : s.IsCutBy IsHeading := by
  rcases mem_blocks h with rfl | rfl | ⟨hbody, hhead⟩
  · refine ⟨(by decide : IsHeading "SELECT"),
      fun line hline => not_isHeading_of_mem_marked ?_ hline⟩
    rw [List.forall_mem_cons]
    exact ⟨by simp [IsHeading], not_isHeading_indented⟩
  · exact ⟨(by decide : IsHeading "WHERE"),
      fun line hline => not_isHeading_of_mem_marked not_isHeading_indented hline⟩
  · refine ⟨?_, by simp [hbody]⟩
    simp only [List.mem_cons, List.not_mem_nil, or_false] at hhead
    rcases hhead with h | h | h | h <;> simp [h, IsHeading]

section

variable {texts : List String}

theorem composed_of_mem_marked {mark line : String} {items : List String} (hmark : IsWord mark)
    (hitems : ∀ item ∈ items, Composed texts item) (h : line ∈ marked mark items) :
    Composed texts line := by
  obtain ⟨item, hitem, rfl | rfl⟩ := Text.exists_of_mem_marked h
  · exact hitems line hitem
  · exact (hitems item hitem).append (.word hmark)

theorem composed_indented {items : List String} (hitems : ∀ item ∈ items, Composed texts item) :
    ∀ item ∈ indented items, Composed texts item := by
  intro item hitem
  obtain ⟨text, htext, rfl⟩ := List.mem_map.1 hitem
  exact .append (.word (by decide)) (hitems text htext)

end

theorem isWord_ordinalText (d : Descriptor) : IsWord (ordinalText d) := by
  unfold ordinalText
  split <;> decide

/-- Every line of a statement is composed of the texts of the query, the placeholders and the texts
of the value columns. -/
theorem composed_blocks (d : Descriptor) (o : Options) (values : List String) :
    ∀ line ∈ (blocks d o values).flatMap Section.items,
      Composed (d.texts ++ o.texts ++ values) line := by
  intro line hline
  obtain ⟨s, hs, hmem⟩ := List.mem_flatMap.1 hline
  have hsub : d.texts ++ o.texts ⊆ d.texts ++ o.texts ++ values := List.subset_append_left _ _
  rcases mem_blocks hs with rfl | rfl | ⟨hbody, hhead⟩
  · have htime : Composed (d.texts ++ o.texts ++ values) (" " ++ (Clause.time d o true).text) :=
      .append (.word (by decide)) ((composed_time d o true).mono hsub)
    have hlater : ∀ column ∈ laterColumns d values,
        Composed (d.texts ++ o.texts ++ values) column := by
      unfold laterColumns
      rw [List.forall_mem_append]
      refine ⟨?_, fun value hvalue => .given (List.mem_append_right _ hvalue)⟩
      intro column hcolumn
      obtain ⟨metric, -, rfl⟩ := Option.map_eq_some_iff.1 (Option.mem_toList.1 hcolumn)
      exact (composed_metric d o).mono hsub
    rcases List.mem_cons.1 hmem with rfl | hitem
    · exact .word (by decide : IsWord "SELECT")
    · refine composed_of_mem_marked (by decide) ?_ hitem
      rw [List.forall_mem_cons]
      exact ⟨htime, composed_indented hlater⟩
  · have hconditions : ∀ text ∈ conditionTexts d o,
        Composed (d.texts ++ o.texts ++ values) text := by
      intro text htext
      obtain ⟨c, hc, rfl⟩ := List.mem_map.1 htext
      exact (composed_condition d o hc).mono hsub
    rcases List.mem_cons.1 hmem with rfl | hitem
    · exact .word (by decide : IsWord "WHERE")
    · exact composed_of_mem_marked (by decide) (composed_indented hconditions) hitem
  · have hordinals : Composed (d.texts ++ o.texts ++ values) (ordinalText d) :=
      .word (isWord_ordinalText d)
    rw [Section.items, hbody, List.mem_singleton] at hmem
    rw [hmem]
    simp only [List.mem_cons, List.not_mem_nil, or_false] at hhead
    rcases hhead with h | h | h | h <;> rw [h]
    · exact .word (by decide)
    · exact .append (.word (by decide)) ((composed_table d o).mono hsub)
    · exact .append (.word (by decide)) hordinals
    · exact .append (.word (by decide)) hordinals

theorem oneLine_blocks (htexts : ∀ text ∈ d.texts ++ o.texts, OneLine text)
    (hvalues : ∀ value ∈ values, OneLine value) :
    ∀ line ∈ (blocks d o values).flatMap Section.items, OneLine line := fun line hline =>
  (composed_blocks d o values line hline).oneLine (List.forall_mem_append.2 ⟨htexts, hvalues⟩)

theorem layout_eq_iff (htexts : ∀ text ∈ d.texts ++ o.texts, OneLine text)
    (htexts' : ∀ text ∈ d'.texts ++ o'.texts, OneLine text)
    (hvalues : ∀ value ∈ values, OneLine value) (hvalues' : ∀ value ∈ values', OneLine value) :
    layout d o values = layout d' o' values' ↔ blocks d o values = blocks d' o' values' := by
  constructor
  · intro h
    have hlines := Text.eq_of_broken_eq (oneLine_blocks htexts hvalues)
      (oneLine_blocks htexts' hvalues') (by rw [← broken_blocks, ← broken_blocks, h])
    exact Section.eq_of_flatMap_items_eq (fun _ => isCutBy_blocks) (fun _ => isCutBy_blocks) hlines
  · intro h
    apply (String.append_right_inj "\n").1
    rw [broken_blocks, broken_blocks, h]

/-! ### The items of a block -/

theorem ordinalText_inj : ordinalText d = ordinalText d' ↔ d.metric.isSome = d'.metric.isSome := by
  unfold ordinalText
  cases d.metric.isSome <;> cases d'.metric.isSome <;> decide

theorem laterColumns_inj (h : d.metric.isSome = d'.metric.isSome) :
    laterColumns d values = laterColumns d' values' ↔ d.metric = d'.metric ∧ values = values' := by
  unfold laterColumns
  cases hm : d.metric with
  | none =>
    cases hm' : d'.metric with
    | none => simp
    | some metric' => simp [hm, hm'] at h
  | some metric =>
    cases hm' : d'.metric with
    | none => simp [hm, hm'] at h
    | some metric' => simp [text_metric hm, text_metric hm']

theorem indented_injective : Function.Injective indented :=
  List.map_injective_iff.2 fun _ _ h => (String.append_right_inj "  ").1 h

theorem columnBlock_inj (h : d.metric.isSome = d'.metric.isSome) :
    columnBlock d o values = columnBlock d' o' values' ↔
      (Clause.time d o true).text = (Clause.time d' o' true).text ∧ d.metric = d'.metric ∧
        values = values' := by
  rw [← laterColumns_inj h]
  simp [columnBlock, (Text.marked_injective ",").eq_iff, indented_injective.eq_iff]

/-- The positions tell whether there is a metric column, and with that which of the later columns it
is. -/
theorem closingBlocks_inj : closingBlocks d = closingBlocks d' ↔
    d.group.isEmpty = d'.group.isEmpty ∧ d.metric.isSome = d'.metric.isSome := by
  rw [← ordinalText_inj]
  unfold closingBlocks
  cases d.group.isEmpty <;> cases d'.group.isEmpty <;> simp

/-- The block of the conditions is no block of the grouping or the ordering. -/
theorem conditionBlock_ne_closing (texts : List String) (rest : List (Section String)) :
    conditionBlock texts :: rest ≠ closingBlocks d := by
  intro h
  have hchar : ∀ heading : String, "WHERE" = heading → heading.toList.head? = some 'W' := by
    rintro _ rfl
    decide
  unfold closingBlocks at h
  split at h
  · have hhead := hchar _ (congrArg Section.head (List.cons.inj h).1)
    simp at hhead
  · have hhead := hchar _ (congrArg Section.head (List.cons.inj h).1)
    simp at hhead

/-- Whether there are conditions can be seen from the first heading. -/
theorem conditionBlocks_append_inj {texts texts' : List String} :
    conditionBlocks texts ++ closingBlocks d = conditionBlocks texts' ++ closingBlocks d' ↔
      texts = texts' ∧ closingBlocks d = closingBlocks d' := by
  cases texts with
  | nil =>
    cases texts' with
    | nil => simp [conditionBlocks]
    | cons text' texts' =>
      have hne := (conditionBlock_ne_closing (d := d) (text' :: texts') (closingBlocks d')).symm
      simp [conditionBlocks, hne]
  | cons text texts =>
    cases texts' with
    | nil => simp [conditionBlocks, conditionBlock_ne_closing]
    | cons text' texts' =>
      simp [conditionBlocks, conditionBlock, (Text.marked_injective " AND").eq_iff,
        indented_injective.eq_iff]

theorem blocks_inj : blocks d o values = blocks d' o' values' ↔
    (Clause.time d o true).text = (Clause.time d' o' true).text ∧ d.metric = d'.metric ∧
      values = values' ∧ (Clause.table d o).text = (Clause.table d' o').text ∧
      conditionTexts d o = conditionTexts d' o' ∧ d.group.isEmpty = d'.group.isEmpty := by
  have hcut : blocks d o values = blocks d' o' values' ↔
      columnBlock d o values = columnBlock d' o' values' ∧
        (Clause.table d o).text = (Clause.table d' o').text ∧
        conditionTexts d o = conditionTexts d' o' ∧ closingBlocks d = closingBlocks d' := by
    unfold blocks
    rw [List.append_assoc, List.append_assoc, ← conditionBlocks_append_inj]
    simp
  rw [hcut, closingBlocks_inj]
  constructor
  · rintro ⟨hcolumns, htable, hconditions, hgroup, hmetric⟩
    obtain ⟨htime, hname, hvalues⟩ := (columnBlock_inj hmetric).1 hcolumns
    exact ⟨htime, hname, hvalues, htable, hconditions, hgroup⟩
  · rintro ⟨htime, hname, hvalues, htable, hconditions, hgroup⟩
    have hmetric : d.metric.isSome = d'.metric.isSome := by rw [hname]
    have hcolumns := (columnBlock_inj hmetric).2 ⟨htime, hname, hvalues⟩
    exact ⟨hcolumns, htable, hconditions, hgroup, hmetric⟩

end Statement

/-- Whether two queries with their placeholders have the same items in their statements: the time
column, the metric column, the value columns in order, the path of the table and the conditions in
order, and whether rows are grouped. -/
structure SameItems (d : Descriptor) (o : Options) (d' : Descriptor) (o' : Options) : Prop where
  time : (Clause.time d o true).text = (Clause.time d' o' true).text
  metric : d.metric = d'.metric
  values : d.select.map (valueText d o) = d'.select.map (valueText d' o')
  table : (Clause.table d o).text = (Clause.table d' o').text
  conditions : d.conditions.map (fun c => (Clause.condition d o c).text) =
    d'.conditions.map fun c => (Clause.condition d' o' c).text
  isGrouped : d.group.isEmpty = d'.group.isEmpty

section

variable {d : Descriptor} {o : Options} {values : List String}

theorem map_valueText_eq {specs : List ColumnSpec}
    (h : List.Forall₂ (fun spec value => valueText d o spec = .ok value) specs values) :
    specs.map (valueText d o) = values.map .ok := by
  rw [← List.forall₂_eq_eq_eq, List.forall₂_map_left_iff, List.forall₂_map_right_iff]
  exact h

/-- The texts of the value columns of a query are composed of its own texts. -/
theorem composed_values
    (h : List.Forall₂ (fun spec value => valueText d o spec = .ok value) d.select values) :
    ∀ value ∈ values, Composed (d.texts ++ o.texts) value := by
  intro value hvalue
  have hmem : .ok value ∈ d.select.map (valueText d o) := by
    rw [map_valueText_eq h]
    exact List.mem_map_of_mem hvalue
  obtain ⟨spec, hspec, hok⟩ := List.mem_map.1 hmem
  refine (composed_valueText hok).mono (List.append_subset.2 ⟨List.Subset.refl _, ?_⟩)
  exact List.subset_append_of_subset_left _ (Descriptor.texts_subset_of_select hspec)

theorem oneLine_values (htexts : ∀ text ∈ d.texts ++ o.texts, OneLine text)
    (h : List.Forall₂ (fun spec value => valueText d o spec = .ok value) d.select values) :
    ∀ value ∈ values, OneLine value := fun value hvalue =>
  (composed_values h value hvalue).oneLine htexts

end

/-- A statement tells all of its items apart: when no text of two queries and their placeholders has
a line break, the queries compile to one statement exactly when they have the same items. -/
theorem statement_determines_items {d d' : Descriptor} {o o' : Options} {sql sql' : String}
    (htexts : ∀ text ∈ d.texts ++ o.texts, '\n' ∉ text.toList)
    (htexts' : ∀ text ∈ d'.texts ++ o'.texts, '\n' ∉ text.toList)
    (h : compile d o = .ok sql) (h' : compile d' o' = .ok sql') :
    sql = sql' ↔ SameItems d o d' o' := by
  obtain ⟨values, hvalues, rfl⟩ := compile_eq_ok_iff.1 h
  obtain ⟨values', hvalues', rfl⟩ := compile_eq_ok_iff.1 h'
  have hsame : d.select.map (valueText d o) = d'.select.map (valueText d' o') ↔
      values = values' := by
    rw [map_valueText_eq hvalues, map_valueText_eq hvalues']
    exact (List.map_injective_iff.2 fun _ _ => Except.ok.inj).eq_iff
  rw [Statement.layout_eq_iff htexts htexts' (oneLine_values htexts hvalues)
    (oneLine_values htexts' hvalues'), Statement.blocks_inj]
  constructor
  · rintro ⟨htime, hmetric, hcolumns, htable, hconditions, hgroup⟩
    exact ⟨htime, hmetric, hsame.2 hcolumns, htable, hconditions, hgroup⟩
  · rintro ⟨htime, hmetric, hcolumns, htable, hconditions, hgroup⟩
    exact ⟨htime, hmetric, hsame.1 hcolumns, htable, hconditions, hgroup⟩

/-- Two queries with different fields and placeholders but the same items. -/
theorem statement_determines_items_of_moved_texts :
    let d : Descriptor := { Descriptor.new "c" with
      dataset := some "a.b", timeColumn := some "ts", metricColumn := some "host"
      select := [[.column "max(v)", .label "v"]], conditions := [.expression "x" "=" "1 OR y, z"] }
    let d' : Descriptor := { Descriptor.new "b.c" with
      dataset := some "a", metricColumn := some "host"
      select := [[.aggregate "max", .column "v"]], conditions := [.expression "x = 1" "OR" "y, z"] }
    let o' : Options := ⟨"ts", "undefined", "undefined"⟩
    let sql := "#standardSQL\nSELECT\n ts AS time,\n  host AS metric,\n  max(v) AS v\nFROM a.b.c" ++
      "\nWHERE\n  x = 1 OR y, z\nORDER BY 1,2"
    (∀ text ∈ d.texts ++ Options.default.texts, '\n' ∉ text.toList) ∧
      (∀ text ∈ d'.texts ++ o'.texts, '\n' ∉ text.toList) ∧
      compile d .default = .ok sql ∧ compile d' o' = .ok sql ∧ SameItems d .default d' o' := by
  intro d d' o' sql
  have htexts : ∀ text ∈ d.texts ++ Options.default.texts, '\n' ∉ text.toList := by decide
  have htexts' : ∀ text ∈ d'.texts ++ o'.texts, '\n' ∉ text.toList := by decide
  have h : compile d .default = .ok sql := by decide +kernel
  have h' : compile d' o' = .ok sql := by decide +kernel
  exact ⟨htexts, htexts', h, h', (statement_determines_items htexts htexts' h h').1 rfl⟩

end SeriesQuery.Compile
