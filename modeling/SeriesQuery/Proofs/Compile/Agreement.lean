import SeriesQuery.Compile.Render
import SeriesQuery.Proofs.Compile.Statement

/-!
# What a statement depends on

A statement depends on the query only through its tables and columns, the metric column in effect,
whether there is any grouping, and the first grouping by time. Each clause reads no more than that,
and so does the scope of the value columns. A raw query depends on its text alone.
-/

namespace SeriesQuery

namespace Query

/-- The interval of a grouping by time, and how empty buckets are filled if they are. -/
def Grouping.bucket? : Grouping → Option (String × Option String)
  | .time interval fill => some (interval, unlessNone fill)
  | .column _ => none

namespace Descriptor

/-- The buckets of the first grouping by time. -/
def bucket? (d : Descriptor) : Option (String × Option String) :=
  d.group.findSome? Grouping.bucket?

/-- Whether two queries agree on everything that a statement depends on. -/
structure Agree (d d' : Descriptor) : Prop where
  dataset : d.dataset = d'.dataset
  table : d.table = d'.table
  timeColumn : d.timeColumn = d'.timeColumn
  select : d.select = d'.select
  conditions : d.conditions = d'.conditions
  metric : d.metric = d'.metric
  isGrouped : d.group = [] ↔ d'.group = []
  bucket : d.bucket? = d'.bucket?

theorem bucket?_of_timeGroup_none {d : Descriptor} (h : d.timeGroup = none) : d.bucket? = none := by
  rw [timeGroup, List.find?_eq_none] at h
  rw [bucket?, List.findSome?_eq_none_iff]
  intro g hg
  cases g with
  | time interval fill => exact absurd rfl (h _ hg)
  | column name => rfl

/-- The first grouping by time is what the buckets are those of. -/
theorem bucket?_of_timeGroup_some {d : Descriptor} {g : Grouping} (h : d.timeGroup = some g) :
    ∃ interval fill, g = .time interval fill ∧ d.bucket? = some (interval, unlessNone fill) := by
  obtain ⟨htime, before, after, hgroup, hbefore⟩ := List.find?_eq_some_iff_append.1 h
  cases g with
  | column name => cases htime
  | time interval fill =>
    -- What stands before the first grouping by time has no buckets.
    have hskip : before.findSome? Grouping.bucket? = none := by
      rw [List.findSome?_eq_none_iff]
      intro g hg
      cases g with
      | time interval fill => exact absurd (hbefore _ hg) (by simp [Grouping.isTime])
      | column name => rfl
    refine ⟨interval, fill, rfl, ?_⟩
    rw [bucket?, hgroup, List.findSome?_append, hskip]
    rfl

end Descriptor

end Query

namespace Compile

open Query (Descriptor Grouping)

variable {d d' : Descriptor}

theorem Clause.metric_congr (hmetric : d.metric = d'.metric) :
    Clause.metric d = Clause.metric d' := by
  rw [Clause.metric, Clause.metric, Clause.metric?, Clause.metric?, hmetric]

/-- The positions only tell whether there is a metric column. -/
theorem Clause.ordinalList_congr (hmetric : d.metric = d'.metric) :
    Clause.ordinalList d = Clause.ordinalList d' := by
  funext keyword
  rw [Clause.ordinalList, Clause.ordinalList, Clause.ordinals, Clause.ordinals, hmetric]

section

variable (h : d.Agree d') (o : Options)
include h

theorem timeName_congr : timeName d o = timeName d' o := by
  rw [timeName, timeName, h.timeColumn]

theorem Scope.of_congr : Scope.of d o = Scope.of d' o := by
  rw [Scope.of, Scope.of, timeName_congr h o, h.metric]

theorem Clause.time_congr (isNamed : Bool) :
    Clause.time d o isNamed = Clause.time d' o isNamed := by
  have hbucket := h.bucket
  unfold Clause.time
  rw [timeName_congr h o]
  cases hd : d.timeGroup with
  | none =>
    rw [Descriptor.bucket?_of_timeGroup_none hd] at hbucket
    cases hd' : d'.timeGroup with
    | none => rfl
    | some g' =>
      obtain ⟨interval', fill', -, hbucket'⟩ := Descriptor.bucket?_of_timeGroup_some hd'
      cases hbucket.trans hbucket'
  | some g =>
    obtain ⟨interval, fill, rfl, hsome⟩ := Descriptor.bucket?_of_timeGroup_some hd
    rw [hsome] at hbucket
    cases hd' : d'.timeGroup with
    | none => cases hbucket.trans (Descriptor.bucket?_of_timeGroup_none hd')
    | some g' =>
      obtain ⟨interval', fill', rfl, hbucket'⟩ := Descriptor.bucket?_of_timeGroup_some hd'
      obtain ⟨rfl, hfill⟩ := Prod.mk.inj (Option.some.inj (hbucket.trans hbucket'))
      simp only [Grouping.fillMode, hfill]

theorem Clause.conditions_congr : Clause.conditions d o = Clause.conditions d' o := by
  have hcondition : Clause.condition d o = Clause.condition d' o := by
    funext c
    cases c with
    | engine filter => cases filter; simp only [Clause.condition, timeName_congr h o]
    | expression left op right => rfl
  rw [Clause.conditions, Clause.conditions, hcondition, h.conditions]

theorem Clause.group_congr : Clause.group d = Clause.group d' := by
  have hempty : d.group.isEmpty = d'.group.isEmpty := by
    rw [Bool.eq_iff_iff, List.isEmpty_iff, List.isEmpty_iff]
    exact h.isGrouped
  rw [Clause.group, Clause.group, hempty, Clause.ordinalList_congr h.metric]

theorem Statement.framed_congr (columns : String) :
    Statement.framed d o columns = Statement.framed d' o columns := by
  unfold Statement.framed
  rw [Clause.time_congr h o, h.metric, Clause.metric_congr h.metric, h.dataset, h.table,
    Clause.conditions_congr h o, Clause.group_congr h, Clause.order, Clause.order,
    Clause.ordinalList_congr h.metric]

end

theorem render_of_rawQuery (h : d.rawQuery = true) (o : Options) :
    render d o = .ok (d.rawSql.getD "") := by
  rw [render, renderTraced, if_pos h]
  rfl

theorem render_of_not_rawQuery (h : d.rawQuery = false) (o : Options) :
    render d o = compile d o := by
  rw [render, renderTraced, h, if_neg Bool.false_ne_true, compile]

/-- Queries that agree on what a statement depends on compile to the same statement or fail in the
same way, whatever else they hold; raw queries with one text are rendered as this text. -/
theorem compile_depends_on_agreement (d d' : Descriptor) (o o' : Options) :
    (d.Agree d' → compile d o = compile d' o) ∧
    (d.rawQuery = true → d'.rawQuery = true → d.rawSql = d'.rawSql →
      render d o = .ok (d.rawSql.getD "") ∧ render d' o' = .ok (d.rawSql.getD "")) := by
  constructor
  · intro h
    rw [Statement.compile_eq, Statement.compile_eq, Scope.of_congr h o, h.select]
    simp only [Statement.framed_congr h o]
  · intro hraw hraw' hsql
    exact ⟨render_of_rawQuery hraw o, by rw [render_of_rawQuery hraw' o', hsql]⟩

/-- Two queries that differ wherever they may. The raw text of the one is also that of a query
without a valid value column. -/
theorem compile_depends_on_agreement_of_selectors :
    let select : List Query.ColumnSpec := [[.column "v", .aggregate "sum", .window .rate]]
    let d : Descriptor := { Descriptor.new "t" with
      rawSql := some "SELECT 1", rawQuery := true, metricColumn := some "none", select := select
      group := [.column "host", .time "1h" (some "none"), .time "5m" none] }
    let d' : Descriptor := { Descriptor.new "t" with
      timeColumnType := some "DATE", select := select, group := [.time "1h" none] }
    let raw : Descriptor := { Descriptor.new "u" with
      rawSql := some "SELECT 1", rawQuery := true, select := [[]] }
    d.Agree d' ∧ compile d .default = compile d' .default ∧
      d.rawQuery = true ∧ raw.rawQuery = true ∧ d.rawSql = raw.rawSql ∧
      render raw ⟨"", "", ""⟩ = .ok "SELECT 1" := by
  intro select d d' raw
  have hagree : d.Agree d' := ⟨rfl, rfl, rfl, rfl, rfl, by decide, by decide, by decide⟩
  exact ⟨hagree, (compile_depends_on_agreement d d' .default .default).1 hagree, rfl, rfl, rfl,
    ((compile_depends_on_agreement d raw .default ⟨"", "", ""⟩).2 rfl rfl rfl).2⟩

end Compile

end SeriesQuery
