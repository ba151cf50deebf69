import SeriesQuery.Proofs.Compile.Items

/-!
# Parentheses of statements

Statements, value columns and clauses are written token by token, and every token that opens a
parenthesis has its own that closes it. Where the texts of a query are balanced, so is everything
that is written for it.
-/

namespace SeriesQuery.Compile

open Query (Descriptor ColumnPart)
open Statement (blocks broken_blocks composed_blocks conditionBlocks conditionTexts layout)
open Text (Balanced Section balanced_append_iff balanced_broken balanced_of_no_parens)

section

variable {d : Descriptor} {o : Options} (htexts : ∀ text ∈ d.texts ++ o.texts, Balanced text)
include htexts

theorem balanced_valueText {spec : Query.ColumnSpec} {text : String}
    (hspec : ∀ text ∈ spec.flatMap ColumnPart.texts, Balanced text)
    (h : valueText d o spec = .ok text) : Balanced text :=
  (composed_valueText h).balanced (List.forall_mem_append.2 ⟨htexts, hspec⟩)

theorem balanced_blocks {values : List String} (hvalues : ∀ value ∈ values, Balanced value) :
    ∀ line ∈ (blocks d o values).flatMap Section.items, Balanced line := fun line hline =>
  (composed_blocks d o values line hline).balanced (List.forall_mem_append.2 ⟨htexts, hvalues⟩)

theorem balanced_layout {values : List String} (hvalues : ∀ value ∈ values, Balanced value) :
    Balanced (layout d o values) := by
  have hbreak : Balanced "\n" := balanced_of_no_parens (by decide)
  rw [← balanced_append_iff hbreak, broken_blocks]
  exact balanced_broken (balanced_blocks htexts hvalues)

/-- The lines of the conditions are lines of the statement, whatever its value columns are. -/
theorem balanced_conditions : Balanced (Clause.conditions d o).text := by
  rw [Statement.text_conditions]
  apply balanced_broken
  intro line hline
  have hsub : conditionBlocks (conditionTexts d o) ⊆ blocks d o [] := by
    unfold blocks
    exact List.Subset.trans (List.subset_append_right _ _) (List.subset_append_left _ _)
  obtain ⟨s, hs, hmem⟩ := List.mem_flatMap.1 hline
  exact balanced_blocks htexts (List.forall_mem_nil _) line (List.mem_flatMap.2 ⟨s, hsub hs, hmem⟩)

theorem balanced_compile {sql : String} (h : compile d o = .ok sql) : Balanced sql := by
  obtain ⟨values, hvalues, rfl⟩ := compile_eq_ok_iff.1 h
  exact balanced_layout htexts fun value hvalue =>
    (composed_values hvalues value hvalue).balanced htexts

end

/-- Parentheses stay balanced: when each text of a query and each placeholder is balanced, so are its
statement, its time column and its conditions, and each value column whose own texts are balanced. -/
theorem balanced_of_balanced_texts {d : Descriptor} {o : Options}
    (htexts : ∀ text ∈ d.texts ++ o.texts, Balanced text) :
    (∀ sql, compile d o = .ok sql → Balanced sql) ∧
    (∀ spec : Query.ColumnSpec, (∀ text ∈ spec.flatMap ColumnPart.texts, Balanced text) →
      ∀ text, valueText d o spec = .ok text → Balanced text) ∧
    (∀ isNamed, Balanced (Clause.time d o isNamed).text) ∧
    Balanced (Clause.conditions d o).text :=
  ⟨fun _ h => balanced_compile htexts h,
    fun _ hspec _ h => balanced_valueText htexts hspec h,
    fun isNamed => (composed_time d o isNamed).balanced htexts,
    balanced_conditions htexts⟩

/-- A rate of percentiles for each host, over texts with parentheses of their own. -/
theorem balanced_of_balanced_texts_of_percentile_rate :
    let spec : Query.ColumnSpec :=
      [.percentile "percentile_cont" "(0.5)", .window .rate, .column "abs(v)", .label "p50"]
    let d : Descriptor := { Descriptor.new "events" with
      timeColumn := some "date(ts)", metricColumn := some "host", select := [spec]
      conditions := [.engine .time, .expression "abs(v)" "IN" "(1, 2)"]
      group := [.time "f(1h)" (some "NULL")] }
    let time := "$__timeGroupAlias(date(ts),f(1h),NULL)"
    let conditions := "\nWHERE\n  $__timeFilter(date(ts)) AND\n  abs(v) IN (1, 2)"
    (∀ text ∈ d.texts ++ Options.default.texts, Balanced text) ∧
      (∀ text ∈ spec.flatMap ColumnPart.texts, Balanced text) ∧
      ∃ value, valueText d .default spec = .ok value ∧ Balanced value ∧
        (∃ sql, compile d .default = .ok sql ∧ Balanced sql) ∧ Balanced time ∧
        Balanced conditions := by
  intro spec d time conditions
  have htexts : ∀ text ∈ d.texts ++ Options.default.texts, Balanced text := by decide
  have hspec : ∀ text ∈ spec.flatMap ColumnPart.texts, Balanced text := by decide
  obtain ⟨hsql, hvalue, htime, hconditions⟩ := balanced_of_balanced_texts htexts
  have htimeText : (Clause.time d .default true).text = time := by decide +kernel
  have hconditionsText : (Clause.conditions d .default).text = conditions := by decide +kernel
  refine ⟨htexts, hspec, _, rfl, hvalue spec hspec _ rfl, ⟨_, rfl, hsql _ rfl⟩, ?_, ?_⟩
  · exact htimeText ▸ htime true
  · exact hconditionsText ▸ hconditions

end SeriesQuery.Compile
