import SeriesQuery.Proofs.Outcome
import SeriesQuery.Proofs.Query.RowCount
import SeriesQuery.Query.TaggedPart

/-!
# The format of tagged parts

Each category of parts has its kinds, and each kind a number of mandatory parameters. A tagged part
is read exactly when it has the form of a part. Otherwise it has one fault: an unknown kind before
all others, then a number of rows that is none, then the first mandatory parameter that is missing,
and last a choice that does not exist.
-/

namespace SeriesQuery.Query

open Json (Value)

/-! ### Parameters -/

/-- The text of a parameter: a string stands for itself, any other value but null for its JSON. -/
inductive ParamText : Value → String → Prop
  | string (s : String) : ParamText (.string s) s
  | json {v : Value} : v ≠ .null → (∀ s, v ≠ .string s) → ParamText v v.text

theorem paramText?_eq_some_iff {v : Value} {text : String} :
    paramText? v = some text ↔ ParamText v text := by
  constructor
  · intro h
    unfold paramText? at h
    split at h
    next => cases h
    next => exact Option.some.inj h ▸ .string _
    next hnull hstring => exact Option.some.inj h ▸ .json hnull hstring
  · intro h
    cases h with
    | string => rfl
    | json hnull hstring =>
      unfold paramText?
      split
      next => exact absurd rfl hnull
      next s => exact absurd rfl (hstring s)
      next => rfl

theorem paramText?_eq_none_iff {v : Value} : paramText? v = none ↔ v = .null := by
  cases v <;> simp [paramText?]

namespace TaggedPart

def Holds (p : TaggedPart) (index : Nat) (text : String) : Prop :=
  ∃ v, p.params[index]? = some v ∧ ParamText v text

def Lacks (p : TaggedPart) (index : Nat) : Prop := ∀ v, p.params[index]? = some v → v = .null

variable {p : TaggedPart}

theorem param?_eq_some_iff {index : Nat} {text : String} :
    p.param? index = some text ↔ p.Holds index text := by
  simp only [param?, Option.bind_eq_some_iff, paramText?_eq_some_iff, Holds]

theorem param?_eq_none_iff {index : Nat} : p.param? index = none ↔ p.Lacks index := by
  simp only [param?, Option.bind_eq_none_iff, paramText?_eq_none_iff, Lacks]

theorem param_eq_ok_iff {index : Nat} {text : String} :
    p.param index = .ok text ↔ p.Holds index text := by
  rw [← param?_eq_some_iff, param]
  cases p.param? index <;> simp

theorem param_eq_error_iff {index : Nat} {fault : PartFault} :
    p.param index = .error fault ↔ p.Lacks index ∧ fault = .missingParam p.kind index := by
  rw [← param?_eq_none_iff, param]
  cases p.param? index <;> simp [eq_comm]

theorem exists_holds_of_not_lacks {index : Nat} (h : ¬ p.Lacks index) :
    ∃ text, p.Holds index text := by
  rw [← param?_eq_none_iff, ← ne_eq, Option.ne_none_iff_exists'] at h
  simpa only [param?_eq_some_iff] using h

theorem Holds.not_lacks {index : Nat} {text : String} (h : p.Holds index text) :
    ¬ p.Lacks index := by
  rw [← param?_eq_none_iff, param?_eq_some_iff.2 h]
  exact Option.some_ne_none text

/-- What the second parameter says on the number of rows. -/
inductive HoldsRows (p : TaggedPart) : Option UInt32 → Prop
  | absent : p.Lacks 1 → HoldsRows p none
  | given {text : String} {n : UInt32} :
      p.Holds 1 text → RowCount.Spells text n → HoldsRows p (some n)

theorem rows_eq_ok_iff {rows : Option UInt32} : p.rows = .ok rows ↔ p.HoldsRows rows := by
  constructor
  · intro h
    unfold TaggedPart.rows at h
    split at h
    next hparam =>
      cases h
      exact .absent (param?_eq_none_iff.1 hparam)
    next text hparam =>
      split at h
      next n hn =>
        cases h
        exact .given (param?_eq_some_iff.1 hparam) (RowCount.ofText?_eq_some_iff.1 hn)
      next => cases h
  · intro h
    cases h with
    | absent hlacks => rw [TaggedPart.rows, param?_eq_none_iff.2 hlacks]
    | given hholds hspells =>
      rw [TaggedPart.rows, param?_eq_some_iff.2 hholds]
      simp only [RowCount.ofText?_eq_some_iff.2 hspells]

theorem rows_eq_error_iff {fault : PartFault} :
    p.rows = .error fault ↔
      ∃ text, p.Holds 1 text ∧ (∀ n, ¬ RowCount.Spells text n) ∧
        fault = .invalidParam p.kind text := by
  simp only [← param?_eq_some_iff, ← RowCount.ofText?_eq_none_iff, TaggedPart.rows]
  cases p.param? 1 with
  | none => simp
  | some text => cases h : RowCount.ofText? text <;> simp [h, eq_comm]

end TaggedPart

/-! ### Choices -/

theorem WindowKind.ofName?_eq_some_iff {text : String} {kind : WindowKind} :
    ofName? text = some kind ↔ text = kind.name := by
  constructor
  · intro h
    unfold ofName? at h
    split at h <;> cases h <;> rfl
  · rintro rfl
    cases kind <;> rfl

theorem EngineFilter.ofName?_eq_some_iff {text : String} {filter : EngineFilter} :
    ofName? text = some filter ↔ text = filter.name := by
  cases filter
  constructor
  · intro h
    unfold ofName? at h
    split at h
    next => rfl
    next => cases h
  · rintro rfl
    rfl

namespace TaggedPart

theorem windowKind_eq_ok_iff {text : String} {kind : WindowKind} :
    windowKind text = .ok kind ↔ text = kind.name := by
  rw [← WindowKind.ofName?_eq_some_iff, windowKind]
  cases WindowKind.ofName? text <;> simp

theorem windowKind_eq_error_iff {text : String} {fault : PartFault} :
    windowKind text = .error fault ↔
      (∀ kind : WindowKind, text ≠ kind.name) ∧ fault = .unknownWindow text := by
  simp only [ne_eq, ← WindowKind.ofName?_eq_some_iff, ← Option.eq_none_iff_forall_ne_some,
    windowKind]
  cases WindowKind.ofName? text <;> simp [eq_comm]

theorem engineFilter_eq_ok_iff {text : String} {filter : EngineFilter} :
    engineFilter text = .ok filter ↔ text = filter.name := by
  rw [← EngineFilter.ofName?_eq_some_iff, engineFilter]
  cases EngineFilter.ofName? text <;> simp

theorem engineFilter_eq_error_iff {text : String} {fault : PartFault} :
    engineFilter text = .error fault ↔
      (∀ filter : EngineFilter, text ≠ filter.name) ∧ fault = .unknownFilter text := by
  simp only [ne_eq, ← EngineFilter.ofName?_eq_some_iff, ← Option.eq_none_iff_forall_ne_some,
    engineFilter]
  cases EngineFilter.ofName? text <;> simp [eq_comm]

end TaggedPart

/-! ### The forms of parts -/

/-- The kinds of a category, each with the number of its mandatory parameters. -/
def PartCategory.kinds : PartCategory → List (String × Nat)
  | .column => [("column", 1), ("alias", 1), ("aggregate", 1), ("percentile", 2), ("window", 1),
      ("moving_window", 1)]
  | .condition => [("macro", 1), ("expression", 3)]
  | .group => [("time", 1), ("column", 1)]

namespace TaggedPart

/-- The name of an engine filter, which may also be given as a parameter. -/
inductive Names (p : TaggedPart) : String → Prop
  | name {text : String} : p.name = some text → Names p text
  | param {text : String} : p.name = none → p.Holds 0 text → Names p text

inductive IsColumnPart (p : TaggedPart) : ColumnPart → Prop
  | column {name : String} : p.kind = "column" → p.Holds 0 name → IsColumnPart p (.column name)
  | label {name : String} : p.kind = "alias" → p.Holds 0 name → IsColumnPart p (.label name)
  | aggregate {function : String} :
      p.kind = "aggregate" → p.Holds 0 function → IsColumnPart p (.aggregate function)
  | percentile {function argument : String} :
      p.kind = "percentile" → p.Holds 0 function → p.Holds 1 argument →
        IsColumnPart p (.percentile function argument)
  | window {kind : WindowKind} :
      p.kind = "window" → p.Holds 0 kind.name → IsColumnPart p (.window kind)
  | movingWindow {function : String} {rows : Option UInt32} :
      p.kind = "moving_window" → p.Holds 0 function → p.HoldsRows rows →
        IsColumnPart p (.movingWindow function rows)

inductive IsCondition (p : TaggedPart) : Condition → Prop
  | engine {filter : EngineFilter} :
      p.kind = "macro" → p.Names filter.name → IsCondition p (.engine filter)
  | expression {left op right : String} :
      p.kind = "expression" → p.Holds 0 left → p.Holds 1 op → p.Holds 2 right →
        IsCondition p (.expression left op right)

inductive IsGrouping (p : TaggedPart) : Grouping → Prop
  | unfilled {interval : String} :
      p.kind = "time" → p.Holds 0 interval → p.Lacks 1 → IsGrouping p (.time interval none)
  | filled {interval fill : String} :
      p.kind = "time" → p.Holds 0 interval → p.Holds 1 fill →
        IsGrouping p (.time interval (some fill))
  | column {name : String} : p.kind = "column" → p.Holds 0 name → IsGrouping p (.column name)

/-- Whether a parameter is mandatory. An engine filter with a name needs none. -/
def Needs (p : TaggedPart) (category : PartCategory) (index : Nat) : Prop :=
  ∃ count, (p.kind, count) ∈ category.kinds ∧ index < count ∧ ¬ (p.kind = "macro" ∧ p.name.isSome)

/-- Whether a moving window is given a number of rows that is none. -/
def HasWrongRows (p : TaggedPart) (category : PartCategory) (text : String) : Prop :=
  category = .column ∧ p.kind = "moving_window" ∧ p.Holds 1 text ∧ ∀ n, ¬ RowCount.Spells text n

inductive HasFault (p : TaggedPart) (category : PartCategory) : PartFault → Prop
  | unknownKind :
      p.kind ∉ category.kinds.map Prod.fst → HasFault p category (.unknownKind category p.kind)
  | invalidParam {text : String} :
      p.HasWrongRows category text → HasFault p category (.invalidParam p.kind text)
  | missingParam {index : Nat} :
      p.Needs category index → (∀ text, ¬ p.HasWrongRows category text) → p.Lacks index →
        (∀ earlier < index, ¬ p.Lacks earlier) → HasFault p category (.missingParam p.kind index)
  | unknownWindow {text : String} :
      category = .column → p.kind = "window" → p.Holds 0 text →
        (∀ kind : WindowKind, text ≠ kind.name) → HasFault p category (.unknownWindow text)
  | unknownFilter {text : String} :
      category = .condition → p.kind = "macro" → p.Names text →
        (∀ filter : EngineFilter, text ≠ filter.name) → HasFault p category (.unknownFilter text)

variable {p : TaggedPart}

/-! ### Reading succeeds on the forms of parts -/

theorem toColumnPart_eq_ok_iff {part : ColumnPart} :
    p.toColumnPart = .ok part ↔ p.IsColumnPart part := by
  unfold toColumnPart
  constructor
  · intro h
    split at h <;>
      simp only [Except.bind_eq_ok_iff, param_eq_ok_iff, windowKind_eq_ok_iff, rows_eq_ok_iff, pure,
        Except.pure, Except.ok.injEq, reduceCtorEq] at h
    next hkind =>
      obtain ⟨name, hname, rfl⟩ := h
      exact .column hkind hname
    next hkind =>
      obtain ⟨name, hname, rfl⟩ := h
      exact .label hkind hname
    next hkind =>
      obtain ⟨function, hfunction, rfl⟩ := h
      exact .aggregate hkind hfunction
    next hkind =>
      obtain ⟨function, hfunction, argument, hargument, rfl⟩ := h
      exact .percentile hkind hfunction hargument
    next hkind =>
      obtain ⟨_, hname, kind, rfl, rfl⟩ := h
      exact .window hkind hname
    next hkind =>
      obtain ⟨rows, hrows, function, hfunction, rfl⟩ := h
      exact .movingWindow hkind hfunction hrows
  · intro h
    cases h with
    | column hkind hname | label hkind hname | aggregate hkind hname =>
      simp only [hkind, param_eq_ok_iff.2 hname]
      rfl
    | percentile hkind hfunction hargument =>
      simp only [hkind, param_eq_ok_iff.2 hfunction, param_eq_ok_iff.2 hargument]
      rfl
    | window hkind hname =>
      simp only [hkind, param_eq_ok_iff.2 hname, Except.ok_bind, windowKind_eq_ok_iff.2 rfl]
      rfl
    | movingWindow hkind hfunction hrows =>
      simp only [hkind, rows_eq_ok_iff.2 hrows, param_eq_ok_iff.2 hfunction]
      rfl

/-- Where an engine filter has its name. -/
def filterName (p : TaggedPart) : Except PartFault String :=
  match p.name with
  | some name => .ok name
  | none => p.param 0

theorem toCondition_of_engine (hkind : p.kind = "macro") :
    p.toCondition = p.filterName >>= fun name => (engineFilter name).map .engine := by
  unfold toCondition filterName
  simp only [hkind]
  cases p.name with
  | some name => rfl
  | none => rfl

theorem filterName_eq_ok_iff {text : String} : p.filterName = .ok text ↔ p.Names text := by
  unfold filterName
  constructor
  · intro h
    split at h
    next name hname => exact .name (Except.ok.inj h ▸ hname)
    next hname => exact .param hname (param_eq_ok_iff.1 h)
  · intro h
    cases h with
    | name hname => simp only [hname]
    | param hname hholds => simp only [hname, param_eq_ok_iff.2 hholds]

theorem filterName_eq_error_iff {fault : PartFault} :
    p.filterName = .error fault ↔
      p.name = none ∧ p.Lacks 0 ∧ fault = .missingParam p.kind 0 := by
  rw [filterName, ← param_eq_error_iff]
  cases p.name <;> simp

theorem toCondition_eq_ok_iff {c : Condition} : p.toCondition = .ok c ↔ p.IsCondition c := by
  constructor
  · intro h
    by_cases hkind : p.kind = "macro"
    · simp only [toCondition_of_engine hkind, Except.bind_eq_ok_iff, Except.map_eq_ok_iff,
        filterName_eq_ok_iff, engineFilter_eq_ok_iff] at h
      obtain ⟨_, hname, filter, rfl, rfl⟩ := h
      exact .engine hkind hname
    · unfold toCondition at h
      split at h
      next hengine => exact absurd hengine hkind
      next hkind =>
        simp only [Except.bind_eq_ok_iff, param_eq_ok_iff, pure, Except.pure, Except.ok.injEq] at h
        obtain ⟨left, hleft, op, hop, right, hright, rfl⟩ := h
        exact .expression hkind hleft hop hright
      next => cases h
  · intro h
    cases h with
    | engine hkind hname =>
      rw [toCondition_of_engine hkind, filterName_eq_ok_iff.2 hname, Except.ok_bind,
        engineFilter_eq_ok_iff.2 rfl]
      rfl
    | expression hkind hleft hop hright =>
      simp only [toCondition, hkind, param_eq_ok_iff.2 hleft, param_eq_ok_iff.2 hop,
        param_eq_ok_iff.2 hright]
      rfl

theorem toGrouping_eq_ok_iff {g : Grouping} : p.toGrouping = .ok g ↔ p.IsGrouping g := by
  unfold toGrouping
  constructor
  · intro h
    split at h <;>
      simp only [Except.bind_eq_ok_iff, param_eq_ok_iff, pure, Except.pure, Except.ok.injEq,
        reduceCtorEq] at h
    next hkind =>
      obtain ⟨interval, hinterval, rfl⟩ := h
      cases hfill : p.param? 1 with
      | none => exact .unfilled hkind hinterval (param?_eq_none_iff.1 hfill)
      | some fill => exact .filled hkind hinterval (param?_eq_some_iff.1 hfill)
    next hkind =>
      obtain ⟨name, hname, rfl⟩ := h
      exact .column hkind hname
  · intro h
    cases h with
    | unfilled hkind hinterval hlacks =>
      simp only [hkind, param_eq_ok_iff.2 hinterval, param?_eq_none_iff.2 hlacks]
      rfl
    | filled hkind hinterval hfill =>
      simp only [hkind, param_eq_ok_iff.2 hinterval, param?_eq_some_iff.2 hfill]
      rfl
    | column hkind hname =>
      simp only [hkind, param_eq_ok_iff.2 hname]
      rfl

/-! ### Reading fails with the fault of a part -/

theorem not_hasWrongRows (category : PartCategory) (h : p.kind ≠ "moving_window") (text : String) :
    ¬ p.HasWrongRows category text := fun hwrong => h hwrong.2.1

theorem HoldsRows.not_hasWrongRows {rows : Option UInt32} (h : p.HoldsRows rows)
    (category : PartCategory) (text : String) : ¬ p.HasWrongRows category text := by
  rintro ⟨-, -, htext, hwrong⟩
  cases (rows_eq_ok_iff.2 h).symm.trans (rows_eq_error_iff.2 ⟨text, htext, hwrong, rfl⟩)

theorem exists_holdsRows (hkind : p.kind = "moving_window")
    (h : ∀ text, ¬ p.HasWrongRows .column text) : ∃ rows, p.HoldsRows rows := by
  cases hrows : p.rows with
  | ok rows => exact ⟨rows, rows_eq_ok_iff.1 hrows⟩
  | error fault =>
    obtain ⟨text, htext, hwrong, -⟩ := rows_eq_error_iff.1 hrows
    exact absurd ⟨rfl, hkind, htext, hwrong⟩ (h text)

theorem HasFault.of_lacks {category : PartCategory} {kind : String} {index : Nat}
    (hkind : p.kind = kind) (count : Nat)
    (hcount : (kind, count) ∈ category.kinds ∧ index < count ∧ kind ∉ ["macro", "moving_window"])
    (hlacks : p.Lacks index) (hearlier : ∀ earlier < index, ¬ p.Lacks earlier) :
    p.HasFault category (.missingParam p.kind index) := by
  subst hkind
  obtain ⟨hmem, hindex, hplain⟩ := hcount
  have hname : p.kind ≠ "macro" := fun h => hplain (by simp [h])
  have hrows : p.kind ≠ "moving_window" := fun h => hplain (by simp [h])
  exact .missingParam ⟨count, hmem, hindex, fun h => hname h.1⟩ (not_hasWrongRows category hrows)
    hlacks hearlier

theorem not_lacks_before_one {text : String} (h : p.Holds 0 text) :
    ∀ earlier < 1, ¬ p.Lacks earlier := by
  intro earlier hearlier
  obtain rfl : earlier = 0 := by omega
  exact h.not_lacks

theorem hasFault_of_toColumnPart_eq_error {fault : PartFault}
    (h : p.toColumnPart = .error fault) : p.HasFault .column fault := by
  unfold toColumnPart at h
  split at h <;>
    simp only [Except.bind_eq_error_iff, param_eq_error_iff, param_eq_ok_iff,
      windowKind_eq_error_iff, rows_eq_error_iff, rows_eq_ok_iff, pure, Except.pure, reduceCtorEq,
      and_false, exists_false, or_false, Except.error.injEq] at h
  next hkind =>
    obtain ⟨hlacks, rfl⟩ := h
    exact .of_lacks hkind 1 (by decide) hlacks nofun
  next hkind =>
    obtain ⟨hlacks, rfl⟩ := h
    exact .of_lacks hkind 1 (by decide) hlacks nofun
  next hkind =>
    obtain ⟨hlacks, rfl⟩ := h
    exact .of_lacks hkind 1 (by decide) hlacks nofun
  next hkind =>
    rcases h with ⟨hlacks, rfl⟩ | ⟨function, hfunction, hlacks, rfl⟩
    · exact .of_lacks hkind 2 (by decide) hlacks nofun
    · exact .of_lacks hkind 2 (by decide) hlacks (not_lacks_before_one hfunction)
  next hkind =>
    rcases h with ⟨hlacks, rfl⟩ | ⟨text, htext, hunknown, rfl⟩
    · exact .of_lacks hkind 1 (by decide) hlacks nofun
    · exact .unknownWindow rfl hkind htext hunknown
  next hkind =>
    rcases h with ⟨text, htext, hwrong, rfl⟩ | ⟨rows, hrows, hlacks, rfl⟩
    · exact .invalidParam ⟨rfl, hkind, htext, hwrong⟩
    · exact .missingParam ⟨1, by simp [PartCategory.kinds, hkind], by decide, by simp [hkind]⟩
        (hrows.not_hasWrongRows .column) hlacks nofun
  next hcolumn halias haggregate hpercentile hwindow hmoving =>
    subst h
    exact .unknownKind (by simpa [PartCategory.kinds] using
      ⟨hcolumn, halias, haggregate, hpercentile, hwindow, hmoving⟩)

theorem toColumnPart_of_lacks_first
    (hkind : p.kind ∈ ["column", "alias", "aggregate", "percentile", "window"])
    (hlacks : p.Lacks 0) : p.toColumnPart = .error (.missingParam p.kind 0) := by
  have hparam : p.param 0 = .error (.missingParam p.kind 0) := param_eq_error_iff.2 ⟨hlacks, rfl⟩
  simp only [List.mem_cons, List.not_mem_nil, or_false] at hkind
  rcases hkind with hkind | hkind | hkind | hkind | hkind <;>
    · simp only [toColumnPart, hkind] at hparam ⊢
      rw [hparam]
      rfl

theorem toColumnPart_eq_error_of_hasFault {fault : PartFault} (h : p.HasFault .column fault) :
    p.toColumnPart = .error fault := by
  cases h with
  | unknownKind hkind =>
    unfold toColumnPart
    split <;> simp_all [PartCategory.kinds]
  | invalidParam hwrong =>
    obtain ⟨-, hkind, htext, hwrong⟩ := hwrong
    simp only [toColumnPart, hkind, rows_eq_error_iff.2 ⟨_, htext, hwrong, rfl⟩]
    rfl
  | @missingParam index hneeds hrows hlacks hearlier =>
    obtain ⟨count, hcount, hindex, -⟩ := hneeds
    simp only [PartCategory.kinds, List.mem_cons, Prod.mk.injEq, List.not_mem_nil,
      or_false] at hcount
    by_cases hmoving : p.kind = "moving_window"
    · obtain ⟨rows, hrows⟩ := exists_holdsRows hmoving hrows
      obtain rfl : index = 0 := by grind
      simp only [toColumnPart, hmoving, rows_eq_ok_iff.2 hrows, param_eq_error_iff.2 ⟨hlacks, rfl⟩]
      rfl
    · cases index with
      | zero => exact toColumnPart_of_lacks_first (by grind) hlacks
      | succ index =>
        obtain ⟨hkind, rfl⟩ : p.kind = "percentile" ∧ index = 0 := by grind
        obtain ⟨function, hfunction⟩ := exists_holds_of_not_lacks (hearlier 0 (by decide))
        simp only [toColumnPart, hkind, param_eq_ok_iff.2 hfunction, Except.ok_bind,
          param_eq_error_iff.2 ⟨hlacks, rfl⟩]
        rfl
  | unknownWindow _ hkind htext hunknown =>
    simp only [toColumnPart, hkind, param_eq_ok_iff.2 htext, Except.ok_bind,
      windowKind_eq_error_iff.2 ⟨hunknown, rfl⟩]
    rfl
  | unknownFilter hcategory => cases hcategory

theorem hasFault_of_toCondition_eq_error {fault : PartFault} (h : p.toCondition = .error fault) :
    p.HasFault .condition fault := by
  by_cases hkind : p.kind = "macro"
  · simp only [toCondition_of_engine hkind, Except.bind_eq_error_iff, Except.map_eq_error_iff,
      filterName_eq_error_iff, filterName_eq_ok_iff, engineFilter_eq_error_iff] at h
    rcases h with ⟨hname, hlacks, rfl⟩ | ⟨text, htext, hunknown, rfl⟩
    · exact .missingParam ⟨1, by simp [PartCategory.kinds, hkind], by decide, by simp [hname]⟩
        (not_hasWrongRows _ (by simp [hkind])) hlacks nofun
    · exact .unknownFilter rfl hkind htext hunknown
  · unfold toCondition at h
    split at h
    next hengine => exact absurd hengine hkind
    next hkind =>
      simp only [Except.bind_eq_error_iff, param_eq_error_iff, param_eq_ok_iff, pure, Except.pure,
        reduceCtorEq, and_false, exists_false, or_false] at h
      rcases h with ⟨hlacks, rfl⟩ | ⟨left, hleft, ⟨hlacks, rfl⟩ | ⟨op, hop, hlacks, rfl⟩⟩
      · exact .of_lacks hkind 3 (by decide) hlacks nofun
      · exact .of_lacks hkind 3 (by decide) hlacks (not_lacks_before_one hleft)
      · refine .of_lacks hkind 3 (by decide) hlacks ?_
        intro earlier hearlier
        match earlier with
        | 0 => exact hleft.not_lacks
        | 1 => exact hop.not_lacks
    next hexpression =>
      cases h
      exact .unknownKind (by simpa [PartCategory.kinds] using ⟨hkind, hexpression⟩)

theorem toCondition_eq_error_of_hasFault {fault : PartFault} (h : p.HasFault .condition fault) :
    p.toCondition = .error fault := by
  cases h with
  | unknownKind hkind =>
    unfold toCondition
    split <;> simp_all [PartCategory.kinds]
  | invalidParam hwrong => cases hwrong.1
  | @missingParam index hneeds hrows hlacks hearlier =>
    obtain ⟨count, hcount, hindex, hname⟩ := hneeds
    simp only [PartCategory.kinds, List.mem_cons, Prod.mk.injEq, List.not_mem_nil,
      or_false] at hcount
    rcases hcount with ⟨hkind, rfl⟩ | ⟨hkind, rfl⟩
    · obtain rfl : index = 0 := by omega
      have hnone : p.name = none := by simpa [hkind] using hname
      rw [toCondition_of_engine hkind, filterName_eq_error_iff.2 ⟨hnone, hlacks, rfl⟩]
      rfl
    · match index with
      | 0 =>
        simp only [toCondition, hkind, param_eq_error_iff.2 ⟨hlacks, rfl⟩]
        rfl
      | 1 =>
        obtain ⟨left, hleft⟩ := exists_holds_of_not_lacks (hearlier 0 (by decide))
        simp only [toCondition, hkind, param_eq_ok_iff.2 hleft, Except.ok_bind,
          param_eq_error_iff.2 ⟨hlacks, rfl⟩]
        rfl
      | 2 =>
        obtain ⟨left, hleft⟩ := exists_holds_of_not_lacks (hearlier 0 (by decide))
        obtain ⟨op, hop⟩ := exists_holds_of_not_lacks (hearlier 1 (by decide))
        simp only [toCondition, hkind, param_eq_ok_iff.2 hleft, param_eq_ok_iff.2 hop,
          Except.ok_bind, param_eq_error_iff.2 ⟨hlacks, rfl⟩]
        rfl
  | unknownWindow hcategory => cases hcategory
  | unknownFilter _ hkind htext hunknown =>
    rw [toCondition_of_engine hkind, filterName_eq_ok_iff.2 htext, Except.ok_bind,
      engineFilter_eq_error_iff.2 ⟨hunknown, rfl⟩]
    rfl

theorem hasFault_of_toGrouping_eq_error {fault : PartFault} (h : p.toGrouping = .error fault) :
    p.HasFault .group fault := by
  unfold toGrouping at h
  split at h <;>
    simp only [Except.bind_eq_error_iff, param_eq_error_iff, pure, Except.pure, reduceCtorEq,
      and_false, exists_false, or_false, Except.error.injEq] at h
  next hkind =>
    obtain ⟨hlacks, rfl⟩ := h
    exact .of_lacks hkind 1 (by decide) hlacks nofun
  next hkind =>
    obtain ⟨hlacks, rfl⟩ := h
    exact .of_lacks hkind 1 (by decide) hlacks nofun
  next htime hcolumn =>
    subst h
    exact .unknownKind (by simpa [PartCategory.kinds] using ⟨htime, hcolumn⟩)

theorem toGrouping_eq_error_of_hasFault {fault : PartFault} (h : p.HasFault .group fault) :
    p.toGrouping = .error fault := by
  cases h with
  | unknownKind hkind =>
    unfold toGrouping
    split <;> simp_all [PartCategory.kinds]
  | invalidParam hwrong => cases hwrong.1
  | @missingParam index hneeds hrows hlacks hearlier =>
    obtain ⟨count, hcount, hindex, -⟩ := hneeds
    simp only [PartCategory.kinds, List.mem_cons, Prod.mk.injEq, List.not_mem_nil,
      or_false] at hcount
    obtain rfl : index = 0 := by omega
    rcases hcount with ⟨hkind, -⟩ | ⟨hkind, -⟩ <;>
      · simp only [toGrouping, hkind, param_eq_error_iff.2 ⟨hlacks, rfl⟩]
        rfl
  | unknownWindow hcategory => cases hcategory
  | unknownFilter hcategory => cases hcategory

end TaggedPart

/-- A tagged part is read as a part of a category exactly when it has the form of that part, so
whatever the form does not mention is ignored, and is refused exactly with the fault that it has. -/
theorem read_by_format (p : TaggedPart) :
    (∀ part, p.toColumnPart = .ok part ↔ p.IsColumnPart part) ∧
    (∀ fault, p.toColumnPart = .error fault ↔ p.HasFault .column fault) ∧
    (∀ c, p.toCondition = .ok c ↔ p.IsCondition c) ∧
    (∀ fault, p.toCondition = .error fault ↔ p.HasFault .condition fault) ∧
    (∀ g, p.toGrouping = .ok g ↔ p.IsGrouping g) ∧
    ∀ fault, p.toGrouping = .error fault ↔ p.HasFault .group fault := by
  have hcolumn (fault : PartFault) : p.toColumnPart = .error fault ↔ p.HasFault .column fault :=
    ⟨TaggedPart.hasFault_of_toColumnPart_eq_error, TaggedPart.toColumnPart_eq_error_of_hasFault⟩
  have hcondition (fault : PartFault) :
      p.toCondition = .error fault ↔ p.HasFault .condition fault :=
    ⟨TaggedPart.hasFault_of_toCondition_eq_error, TaggedPart.toCondition_eq_error_of_hasFault⟩
  have hgroup (fault : PartFault) : p.toGrouping = .error fault ↔ p.HasFault .group fault :=
    ⟨TaggedPart.hasFault_of_toGrouping_eq_error, TaggedPart.toGrouping_eq_error_of_hasFault⟩
  exact ⟨fun _ => TaggedPart.toColumnPart_eq_ok_iff, hcolumn,
    fun _ => TaggedPart.toCondition_eq_ok_iff, hcondition,
    fun _ => TaggedPart.toGrouping_eq_ok_iff, hgroup⟩

example : (⟨"moving_window", none, [.null, .string " 5x "]⟩ : TaggedPart).toColumnPart =
    .error (.invalidParam "moving_window" " 5x ") := by rfl

end SeriesQuery.Query
