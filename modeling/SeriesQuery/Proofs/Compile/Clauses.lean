import SeriesQuery.Proofs.Compile.Items

/-!
# The clauses around the value columns

The time column is bucketed as the first grouping by time says. The conditions are listed with a
conjunction between them. Rows are grouped and ordered by positions, and these are the positions at
which the columns that are not values stand among the output columns of the statement.
-/

namespace SeriesQuery.Compile

open Query (ColumnSpec Condition Descriptor Grouping)
open Text (parens)

/-! ### The output columns -/

inductive OutputColumn where
  | time
  | metric (name : String)
  | value (spec : ColumnSpec)
  deriving DecidableEq, Repr

namespace OutputColumn

def IsValue : OutputColumn → Prop
  | .time | .metric _ => False
  | .value _ => True

def text (d : Descriptor) (o : Options) : OutputColumn → Except CompileFault String
  | .time => .ok (Clause.time d o true).text
  | .metric name => .ok (name ++ " AS metric")
  | .value spec => valueText d o spec

end OutputColumn

/-- What a statement selects, in order. -/
def outputColumns (d : Descriptor) : List OutputColumn :=
  .time :: ((d.metric.map .metric).toList ++ d.select.map .value)

namespace Formula

/-- A way of filling empty buckets, where one is named. -/
def filling : Option String → String
  | none => ""
  | some mode => if mode = "none" then "" else "," ++ mode

def bucketed (isNamed : Bool) (time interval : String) (fill : Option String) : String :=
  (if isNamed then "$__timeGroupAlias" else "$__timeGroup") ++
    parens (time ++ "," ++ interval ++ filling fill)

def condition (time : String) : Condition → String
  | .engine .time => "$__timeFilter" ++ parens time
  | .expression left op right => left ++ " " ++ op ++ " " ++ right

end Formula

section

variable (d : Descriptor) (o : Options)

/-! ### The time column -/

theorem text_time_of_bucketed {before after : List Grouping} {interval : String}
    {fill : Option String} (hgroup : d.group = before ++ .time interval fill :: after)
    (hbefore : ∀ g ∈ before, ¬ g.isTime) (isNamed : Bool) :
    (Clause.time d o isNamed).text = Formula.bucketed isNamed (timeName d o) interval fill := by
  have hfirst : d.timeGroup = some (.time interval fill) := by
    rw [Descriptor.timeGroup, List.find?_eq_some_iff_append]
    exact ⟨rfl, before, after, hgroup, fun g hg => by simpa using hbefore g hg⟩
  rw [text_time, hfirst]
  unfold Formula.bucketed Formula.filling Query.unlessNone Query.noneText
  cases fill with
  | none => rfl
  | some mode => by_cases hmode : mode = "none" <;> simp [hmode]

theorem text_time_of_forall_not_isTime (hgroup : ∀ g ∈ d.group, ¬ g.isTime) (isNamed : Bool) :
    (Clause.time d o isNamed).text = timeName d o ++ " AS time" := by
  have hnone : d.timeGroup = none := by
    rw [Descriptor.timeGroup, List.find?_eq_none]
    exact hgroup
  rw [text_time, hnone]

theorem exists_bucketed_or_forall_not_isTime (groups : List Grouping) :
    (∃ before interval fill after, groups = before ++ .time interval fill :: after ∧
      ∀ g ∈ before, ¬ g.isTime) ∨ ∀ g ∈ groups, ¬ g.isTime := by
  cases hfind : groups.find? Grouping.isTime with
  | none => exact .inr (List.find?_eq_none.1 hfind)
  | some g =>
    obtain ⟨htime, before, after, rfl, hbefore⟩ := List.find?_eq_some_iff_append.1 hfind
    cases g with
    | column name => cases htime
    | time interval fill =>
      exact .inl ⟨before, interval, fill, after, rfl, fun g hg => by simpa using hbefore g hg⟩

/-! ### Positions -/

/-- The positions of the columns by which rows are told apart, counted from one. -/
def keyPositions : List Nat := if d.metric.isSome then [1, 2] else [1]

theorem pairwise_keyPositions : (keyPositions d).Pairwise (· < ·) := by
  unfold keyPositions
  split <;> decide

theorem mem_keyPositions_iff {n : Nat} :
    n ∈ keyPositions d ↔
      ∃ i column, (outputColumns d)[i]? = some column ∧ ¬ column.IsValue ∧ n = i + 1 := by
  have hvalue : ∀ {i : Nat} {column : OutputColumn},
      (d.select.map OutputColumn.value)[i]? = some column → column.IsValue := by
    intro i column h
    obtain ⟨spec, -, rfl⟩ := List.mem_map.1 (List.mem_of_getElem? h)
    trivial
  unfold keyPositions outputColumns
  cases hmetric : d.metric with
  | none =>
    constructor
    · intro h
      exact ⟨0, .time, rfl, id, List.mem_singleton.1 h⟩
    · rintro ⟨i, column, hcolumn, hkey, rfl⟩
      cases i with
      | zero => exact List.mem_singleton_self 1
      | succ i => exact absurd (hvalue hcolumn) hkey
  | some name =>
    constructor
    · intro h
      rcases List.mem_pair.1 h with rfl | rfl
      · exact ⟨0, .time, rfl, id, rfl⟩
      · exact ⟨1, .metric name, rfl, id, rfl⟩
    · rintro ⟨i, column, hcolumn, hkey, rfl⟩
      match i with
      | 0 => exact List.mem_pair.2 (.inl rfl)
      | 1 => exact List.mem_pair.2 (.inr rfl)
      | i + 2 => exact absurd (hvalue hcolumn) hkey

theorem ordinalText_eq_intercalate :
    Statement.ordinalText d = ",".intercalate ((keyPositions d).map toString) := by
  unfold Statement.ordinalText keyPositions
  split <;> decide

theorem text_order :
    (Clause.order d).text = "\nORDER BY " ++ ",".intercalate ((keyPositions d).map toString) := by
  rw [Clause.order, Statement.text_ordinalList, ordinalText_eq_intercalate]
  rfl

theorem text_group :
    (Clause.group d).text =
      if d.group = [] then ""
      else "\nGROUP BY " ++ ",".intercalate ((keyPositions d).map toString) := by
  unfold Clause.group
  cases d.group with
  | nil => rfl
  | cons g groups =>
    rw [if_neg (by simp), if_neg (by simp), Statement.text_ordinalList, ordinalText_eq_intercalate]
    rfl

/-! ### The statement around its output columns -/

theorem forall₂_outputColumns_iff {texts : List String} :
    List.Forall₂ (fun column text => column.text d o = .ok text) (outputColumns d) texts ↔
      ∃ values, List.Forall₂ (fun spec value => valueText d o spec = .ok value) d.select values ∧
        texts = (Clause.time d o true).text :: Statement.laterColumns d values := by
  have hvalues : ∀ {values : List String},
      List.Forall₂ (fun column text => OutputColumn.text d o column = .ok text)
        (d.select.map .value) values ↔
      List.Forall₂ (fun spec value => valueText d o spec = .ok value) d.select values :=
    List.forall₂_map_left_iff
  unfold outputColumns Statement.laterColumns
  cases hmetric : d.metric with
  | none =>
    constructor
    · intro h
      obtain ⟨_, htime, values, hselect, rfl⟩ := List.Forall₂.cons_left_iff.1 h
      obtain rfl := Except.ok.inj htime
      exact ⟨values, hvalues.1 hselect, rfl⟩
    · rintro ⟨values, hselect, rfl⟩
      exact .cons rfl (hvalues.2 hselect)
  | some name =>
    constructor
    · intro h
      obtain ⟨_, htime, _, hlater, rfl⟩ := List.Forall₂.cons_left_iff.1 h
      obtain ⟨_, hname, values, hselect, rfl⟩ := List.Forall₂.cons_left_iff.1 hlater
      obtain rfl := Except.ok.inj htime
      obtain rfl := (text_metric hmetric).trans (Except.ok.inj hname)
      exact ⟨values, hvalues.1 hselect, rfl⟩
    · rintro ⟨values, hselect, rfl⟩
      exact .cons rfl (.cons (congrArg Except.ok (text_metric hmetric).symm) (hvalues.2 hselect))

/-- The columns are listed with a separator between them. -/
theorem layout_eq_intercalate (values : List String) :
    Statement.layout d o values =
      "#standardSQL\nSELECT\n " ++
        ",\n  ".intercalate ((Clause.time d o true).text :: Statement.laterColumns d values) ++
        "\nFROM " ++ (Clause.table d o).text ++ (Clause.conditions d o).text ++
        (Clause.group d).text ++ (Clause.order d).text := by
  rw [Sql.intercalate_cons, Statement.join_laterColumns, Statement.text_table]
  unfold Statement.layout Statement.framed
  simp only [String.append_assoc]

end

/-- The time column is bucketed as the first grouping by time says, wherever it stands, and is named
plainly when there is none. The conditions are those of the query in order, with a conjunction
between each two. Rows are grouped, if at all, and ordered by one list of positions, those of the
time column and of the metric column among the columns that the statement selects. -/
theorem clauses_follow_output_columns (d : Descriptor) (o : Options) :
    ((∃ before interval fill after, d.group = before ++ .time interval fill :: after ∧
        (∀ g ∈ before, ¬ g.isTime) ∧ ∀ isNamed, (Clause.time d o isNamed).text =
          Formula.bucketed isNamed (d.timeColumn.getD o.timePlaceholder) interval fill) ∨
      (∀ g ∈ d.group, ¬ g.isTime) ∧ ∀ isNamed, (Clause.time d o isNamed).text =
        d.timeColumn.getD o.timePlaceholder ++ " AS time") ∧
    (Clause.conditions d o).text =
      (if d.conditions = [] then ""
      else "\nWHERE\n  " ++ " AND\n  ".intercalate
        (d.conditions.map (Formula.condition (d.timeColumn.getD o.timePlaceholder)))) ∧
    ((Clause.group d).text = "" ↔ d.group = []) ∧
    (∃ positions : List Nat, positions.Pairwise (· < ·) ∧
      (∀ n, n ∈ positions ↔
        ∃ i column, (outputColumns d)[i]? = some column ∧ ¬ column.IsValue ∧ n = i + 1) ∧
      (Clause.group d).text =
        (if d.group = [] then "" else "\nGROUP BY " ++ ",".intercalate (positions.map toString)) ∧
      (Clause.order d).text = "\nORDER BY " ++ ",".intercalate (positions.map toString)) ∧
    ∀ sql, compile d o = .ok sql ↔
      ∃ columns, List.Forall₂ (fun column text => column.text d o = .ok text) (outputColumns d)
          columns ∧
        sql = "#standardSQL\nSELECT\n " ++ ",\n  ".intercalate columns ++ "\nFROM " ++
          (Clause.table d o).text ++ (Clause.conditions d o).text ++ (Clause.group d).text ++
          (Clause.order d).text := by
  refine ⟨?_, ?_, ?_, ?_, fun sql => ?_⟩
  · rcases exists_bucketed_or_forall_not_isTime d.group with
      ⟨before, interval, fill, after, hgroup, hbefore⟩ | hgroup
    · exact .inl ⟨before, interval, fill, after, hgroup, hbefore,
        text_time_of_bucketed d o hgroup hbefore⟩
    · exact .inr ⟨hgroup, text_time_of_forall_not_isTime d o hgroup⟩
  · have hcondition : ∀ c, (Clause.condition d o c).text = Formula.condition (timeName d o) c :=
      text_condition d o
    rw [text_conditions_intercalate]
    simp only [hcondition]
    rfl
  · rw [text_group]
    split
    next hgroup => simp [hgroup]
    next hgroup => simp [hgroup]
  · exact ⟨keyPositions d, pairwise_keyPositions d, fun n => mem_keyPositions_iff d, text_group d,
      text_order d⟩
  · rw [compile_eq_ok_iff]
    simp only [layout_eq_intercalate, forall₂_outputColumns_iff]
    constructor
    · rintro ⟨values, hvalues, rfl⟩
      exact ⟨_, ⟨values, hvalues, rfl⟩, rfl⟩
    · rintro ⟨_, ⟨values, hvalues, rfl⟩, rfl⟩
      exact ⟨values, hvalues, rfl⟩

example : (Clause.time { Descriptor.new "t" with
    group := [.column "host", .time "1h" (some "none"), .time "5m" none] } .default true).text =
      "$__timeGroupAlias(-- time --,1h)" := by decide

end SeriesQuery.Compile
