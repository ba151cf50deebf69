import SeriesQuery.Proofs.Cache.Run
import SeriesQuery.Proofs.CommandLine.Targets

/-!
# Compiling a file

What a compilation reports is put together from rendering each target alone: the targets go through
one cache, but no target has an effect on another one. Nothing is printed for a file that cannot be
read as a whole.
-/

namespace SeriesQuery.CommandLine

open Compile (CompileFault Options)
open Config (CacheSettings Host Settings)
open Json (Value)
open Query (Descriptor)

/-! ### Reports -/

/-- The report of a command that runs under given settings. -/
def commandReport (host : Host) (settings : Settings) (command : Command) : Report :=
  match runCommand host settings command with
  | .ok report => report
  | .error failure => .failed failure

theorem runInvocation_eq {host : Host} {config : Option String} {settings : Settings}
    (h : loadSettings host config = .ok settings) (command : Command) :
    runInvocation host ⟨config, command⟩ = commandReport host settings command := by
  simp only [runInvocation, h, Except.ok_bind]
  rfl

theorem Report.code_eq_zero_iff {r : Report} : r.code = 0 ↔ r.failures = [] := by
  unfold code
  cases r.failures <;> simp

theorem Report.code_eq_one_iff {r : Report} : r.code = 1 ↔ r.failures ≠ [] := by
  unfold code
  cases r.failures <;> simp

theorem Failure.text_target (index : Nat) (fault : CompileFault) :
    (Failure.target index fault).text =
      "Compilation error in target " ++ toString index ++ ": " ++ fault.message ++ "\n" := by
  unfold Failure.text targetLine
  simp only [← String.append_assoc, String.reduceAppend]

/-! ### Targets rendered one by one -/

/-- The indexed targets that have a text, each with its text. -/
def rendered (o : Options) (targets : List (Descriptor × Nat)) : List (Descriptor × Nat × String) :=
  targets.filterMap fun (d, index) => (Compile.render d o).toOption.map fun sql => (d, index, sql)

/-- The indices of the targets that have none, each with what is wrong with it. -/
def failing (o : Options) (targets : List (Descriptor × Nat)) : List (Nat × CompileFault) :=
  targets.filterMap fun (d, index) =>
    match Compile.render d o with
    | .ok _ => none
    | .error fault => some (index, fault)

section

variable {o : Options} {d : Descriptor} {index : Nat} {rest : List (Descriptor × Nat)}

theorem rendered_cons_of_ok {sql : String} (h : Compile.render d o = .ok sql) :
    rendered o ((d, index) :: rest) = (d, index, sql) :: rendered o rest := by
  simp [rendered, h, Except.toOption]

theorem rendered_cons_of_error {fault : CompileFault} (h : Compile.render d o = .error fault) :
    rendered o ((d, index) :: rest) = rendered o rest := by
  simp [rendered, h, Except.toOption]

theorem failing_cons_of_ok {sql : String} (h : Compile.render d o = .ok sql) :
    failing o ((d, index) :: rest) = failing o rest := by
  simp [failing, h]

theorem failing_cons_of_error {fault : CompileFault} (h : Compile.render d o = .error fault) :
    failing o ((d, index) :: rest) = (index, fault) :: failing o rest := by
  simp [failing, h]

theorem failing_eq_nil_iff {targets : List Descriptor} :
    failing o (targets.zipIdx index) = [] ↔ ∀ d ∈ targets, ∃ sql, Compile.render d o = .ok sql := by
  induction targets generalizing index with
  | nil => simp [failing]
  | cons d targets ih =>
    rw [List.zipIdx_cons, List.forall_mem_cons]
    cases h : Compile.render d o with
    | ok sql => simp [failing_cons_of_ok h, ih]
    | error fault => simp [failing_cons_of_error h]

theorem failing_ne_nil_iff {targets : List Descriptor} :
    failing o (targets.zipIdx index) ≠ [] ↔
      ∃ d ∈ targets, ∃ fault, Compile.render d o = .error fault := by
  simp only [ne_eq, failing_eq_nil_iff, not_forall, exists_prop]
  refine exists_congr fun d => and_congr_right fun _ => ?_
  cases Compile.render d o <;> simp

end

/-- What rendering each target alone gives, put together in the order of the targets. -/
def plainReport (o : Options) (text : Nat → Descriptor → String → String)
    (targets : List Descriptor) (index : Nat) : Report :=
  ⟨String.join ((rendered o (targets.zipIdx index)).map fun (d, i, sql) => text i d sql),
    (failing o (targets.zipIdx index)).map fun (i, fault) => .target i fault⟩

section

variable {o : Options} {text : Nat → Descriptor → String → String} {c : StatementCache}
  {index : Nat} {targets : List Descriptor}

theorem plainReport_failures_eq_nil_iff :
    (plainReport o text targets index).failures = [] ↔
      ∀ d ∈ targets, ∃ sql, Compile.render d o = .ok sql := by
  rw [plainReport, List.map_eq_nil_iff, failing_eq_nil_iff]

theorem plainReport_failures_ne_nil_iff :
    (plainReport o text targets index).failures ≠ [] ↔
      ∃ d ∈ targets, ∃ fault, Compile.render d o = .error fault := by
  rw [plainReport, ne_eq, List.map_eq_nil_iff, ← ne_eq, failing_ne_nil_iff]

theorem plainReport_errors :
    (plainReport o text targets index).errors =
      String.join ((failing o (targets.zipIdx index)).map fun (i, fault) =>
        "Compilation error in target " ++ toString i ++ ": " ++ fault.message ++ "\n") := by
  rw [plainReport, Report.errors, List.map_map]
  exact congrArg String.join (List.map_congr_left fun (i, fault) _ => Failure.text_target i fault)

theorem renderTargets_cons_of_ok {d : Descriptor} {sql : String}
    (h : (c.render d o).value.1 = .ok sql) :
    renderTargets o text c index (d :: targets) =
      let rest := renderTargets o text (c.render d o).value.2 (index + 1) targets
      ⟨text index d sql ++ rest.output, rest.failures⟩ := by
  simp only [renderTargets, h]

theorem renderTargets_cons_of_error {d : Descriptor} {fault : CompileFault}
    (h : (c.render d o).value.1 = .error fault) :
    renderTargets o text c index (d :: targets) =
      let rest := renderTargets o text (c.render d o).value.2 (index + 1) targets
      ⟨rest.output, .target index fault :: rest.failures⟩ := by
  simp only [renderTargets, h]

/-- Targets that get from the cache what they would get alone. -/
theorem renderTargets_eq
    (hrun : (c.run (targets.map fun d => (d, o))).1 = targets.map fun d => Compile.render d o) :
    renderTargets o text c index targets = plainReport o text targets index := by
  -- The cache stays general, since each target leaves another one behind.
  induction targets generalizing c index with
  | nil => rfl
  | cons d targets ih =>
    obtain ⟨hresult, hrest⟩ := List.cons.inj hrun
    change (c.render d o).value.1 = Compile.render d o at hresult
    rw [plainReport, List.zipIdx_cons]
    cases h : Compile.render d o with
    | ok sql =>
      rw [renderTargets_cons_of_ok (hresult.trans h), ih hrest, rendered_cons_of_ok h,
        failing_cons_of_ok h, List.map_cons, String.join_cons]
      rfl
    | error fault =>
      rw [renderTargets_cons_of_error (hresult.trans h), ih hrest, rendered_cons_of_error h,
        failing_cons_of_error h, List.map_cons]
      rfl

theorem renderTargets_new_eq
    (hfree : Cache.CollisionFree (targets.map fun d => Request.hashedBytes (d, o)))
    (capacity : Nat) :
    renderTargets o text (.new capacity) index targets = plainReport o text targets index := by
  apply renderTargets_eq
  have hfree' : Cache.CollisionFree ((targets.map fun d => (d, o)).map Request.hashedBytes) := by
    rwa [List.map_map]
  have hrun := StatementCache.run_eq_of_faithful (List.Subset.refl _)
    (StatementCache.faithful_new (targets.map fun d => (d, o)) capacity)
    (StatementCache.collisionFree_hashedInputs hfree')
  rw [hrun, List.map_map]
  rfl

end

/-! ### The default dataset -/

/-- Whether a dataset is the one for targets that name none: the one that is given, or else the one
of the settings with its variables expanded. -/
inductive FillsIn (host : Host) (settings : Settings) : Option String → Option String → Prop
  | given {dataset : String} : FillsIn host settings (some dataset) (some dataset)
  | expanded {template expanded : String} : settings.compiler.defaultDataset = some template →
      Config.expand host.environment template = .ok expanded →
      FillsIn host settings none (some expanded)
  | absent : settings.compiler.defaultDataset = none → FillsIn host settings none none

section

variable {host : Host} {settings : Settings} {file : String} {dataset fallback chosen : Option String}
  {output : OutputFormat} {targets : List Descriptor}

theorem chosenDataset_of_expanded {template expanded : String}
    (htemplate : settings.compiler.defaultDataset = some template)
    (hexpanded : Config.expand host.environment template = .ok expanded) :
    chosenDataset host settings none = .ok (some expanded) := by
  simp only [chosenDataset, Config.CompilerSettings.resolvedDataset, htemplate, hexpanded, Except.map]

theorem chosenDataset_of_unexpanded {template : String} {fault : Config.ExpandFault}
    (htemplate : settings.compiler.defaultDataset = some template)
    (hfault : Config.expand host.environment template = .error fault) :
    chosenDataset host settings none = .error (.dataset fault) := by
  simp only [chosenDataset, Config.CompilerSettings.resolvedDataset, htemplate, hfault, Except.map]

theorem chosenDataset_of_absent (h : settings.compiler.defaultDataset = none) :
    chosenDataset host settings none = .ok none := by
  simp only [chosenDataset, Config.CompilerSettings.resolvedDataset, h]

theorem chosenDataset_eq_ok_iff :
    chosenDataset host settings dataset = .ok chosen ↔ FillsIn host settings dataset chosen := by
  constructor
  · intro h
    cases dataset with
    | some dataset =>
      obtain rfl := Except.ok.inj h
      exact .given
    | none =>
      cases htemplate : settings.compiler.defaultDataset with
      | none =>
        rw [chosenDataset_of_absent htemplate] at h
        obtain rfl := Except.ok.inj h
        exact .absent htemplate
      | some template =>
        cases hexpand : Config.expand host.environment template with
        | ok expanded =>
          rw [chosenDataset_of_expanded htemplate hexpand] at h
          obtain rfl := Except.ok.inj h
          exact .expanded htemplate hexpand
        | error fault =>
          rw [chosenDataset_of_unexpanded htemplate hexpand] at h
          cases h
  · intro h
    cases h with
    | given => rfl
    | expanded htemplate hexpanded => exact chosenDataset_of_expanded htemplate hexpanded
    | absent htemplate => exact chosenDataset_of_absent htemplate

theorem chosenDataset_eq_ok (h : dataset = none →
    settings.compiler.resolvedDataset host.environment = .ok fallback) :
    chosenDataset host settings dataset = .ok (dataset.or fallback) := by
  cases dataset with
  | none => simp only [chosenDataset, h rfl, Option.none_or]
  | some dataset => rfl

/-- The cache does not show in the report. -/
theorem commandReport_compile_eq (htargets : readTargets host file = .ok targets)
    (hchosen : chosenDataset host settings dataset = .ok chosen)
    (hfree : Cache.CollisionFree ((targets.map (withDefaultDataset chosen)).map
      fun d => Request.hashedBytes (d, settings.compiler.options))) :
    commandReport host settings (.compile file dataset output) =
      plainReport settings.compiler.options (targetText output file)
        (targets.map (withDefaultDataset chosen)) 0 := by
  simp only [commandReport, runCommand, runCompile, htargets, hchosen, Except.ok_bind]
  exact renderTargets_new_eq hfree settings.cache.effectiveCapacity

theorem commandReport_compile_of_unreadable {failure : Failure}
    (h : readTargets host file = .error failure) :
    commandReport host settings (.compile file dataset output) = .failed failure := by
  simp only [commandReport, runCommand, runCompile, h, Except.error_bind]

theorem commandReport_compile_of_unexpanded {failure : Failure}
    (htargets : readTargets host file = .ok targets)
    (hfailure : chosenDataset host settings dataset = .error failure) :
    commandReport host settings (.compile file dataset output) = .failed failure := by
  simp only [commandReport, runCommand, runCompile, htargets, hfailure, Except.ok_bind,
    Except.error_bind]

/-- A file that cannot be read, or a default dataset that cannot be expanded, is found before
anything is rendered, whatever the cache. -/
theorem exists_failure_of_unreadable {text : String} (output : OutputFormat)
    (htext : (host.files file).readText = .ok text)
    (h : Value.ofText? text = none ∨
      (∃ value, Value.ofText? text = some value ∧
        ∃ v ∈ value.listed, ∃ fault, Descriptor.ofJson v = .error fault) ∨
      (dataset = none ∧ ∃ template fault, settings.compiler.defaultDataset = some template ∧
        Config.expand host.environment template = .error fault)) :
    ∃ failure, ∀ settings' : Settings, settings'.compiler = settings.compiler →
      commandReport host settings' (.compile file dataset output) = .failed failure := by
  cases hread : readTargets host file with
  | error failure => exact ⟨failure, fun _ _ => commandReport_compile_of_unreadable hread⟩
  | ok targets =>
    obtain ⟨value, hvalue, hall⟩ := (exists_readTargets_iff htext).1 ⟨targets, hread⟩
    rcases h with hnone | ⟨value', hvalue', v, hv, fault, hfault⟩ |
        ⟨rfl, template, fault, htemplate, hfault⟩
    · rw [hnone] at hvalue
      cases hvalue
    · rw [hvalue, Option.some.injEq] at hvalue'
      subst hvalue'
      obtain ⟨d, hd⟩ := hall v hv
      rw [hd] at hfault
      cases hfault
    · refine ⟨.dataset fault, fun settings' hsettings => ?_⟩
      rw [← hsettings] at htemplate
      exact commandReport_compile_of_unexpanded hread (chosenDataset_of_unexpanded htemplate hfault)

end

/-- A compilation of a file that cannot be read, or without a dataset that is given and with a
default one whose variables cannot be expanded, prints nothing and fails. Any other compilation
prints what rendering each target alone gives, in the order of the targets, and has one line for
each target that fails; the cache does not show. -/
theorem compile_reports_each_target (host : Host) (settings : Settings) (file : String)
    (dataset : Option String) (output : OutputFormat) {text : String}
    (htext : (host.files file).readText = .ok text) :
    let o := settings.compiler.options
    let command := Command.compile file dataset output
    let report := commandReport host settings command
    ((Value.ofText? text = none ∨
        (∃ value, Value.ofText? text = some value ∧
          ∃ v ∈ value.listed, ∃ fault, Descriptor.ofJson v = .error fault) ∨
        (dataset = none ∧ ∃ template fault, settings.compiler.defaultDataset = some template ∧
          Config.expand host.environment template = .error fault)) →
      report.output = "" ∧ report.code = 1 ∧
        ∀ cache, commandReport host { settings with cache } command = report) ∧
    ∀ value targets chosen, Value.ofText? text = some value →
      List.Forall₂ (fun v d => Descriptor.ofJson v = .ok d) value.listed targets →
      FillsIn host settings dataset chosen →
      let filled := targets.map fun d => { d with dataset := d.dataset.or chosen }
      Cache.CollisionFree (filled.map fun d => Request.hashedBytes (d, o)) →
      report.output = String.join ((rendered o filled.zipIdx).map fun (d, index, sql) =>
        match output with
        | .sql => sql ++ "\n"
        | .verbose =>
          "-- bqcompile\n-- Source: " ++ file ++ " [" ++ toString index ++ "]\n-- Mode: " ++
            (if d.rawQuery then "raw" else "builder") ++ "\n\n" ++ sql ++ "\n\n") ∧
      report.errors = String.join ((failing o filled.zipIdx).map fun (index, fault) =>
        "Compilation error in target " ++ toString index ++ ": " ++ fault.message ++ "\n") ∧
      (report.code = 1 ↔ ∃ d ∈ filled, ∃ fault, Compile.render d o = .error fault) ∧
      (report.code = 0 ↔ ∀ d ∈ filled, ∃ sql, Compile.render d o = .ok sql) ∧
      ∀ cache, commandReport host { settings with cache } command = report := by
  intro o command report
  constructor
  · intro hfails
    obtain ⟨failure, hfailure⟩ := exists_failure_of_unreadable output htext hfails
    have hreport : report = .failed failure := hfailure settings rfl
    rw [hreport]
    exact ⟨rfl, rfl, fun cache => hfailure { settings with cache } rfl⟩
  · intro value targets chosen hvalue htargets hfills filled hfree
    have hread := (readTargets_eq_ok_iff htext).2
      (targetsOfText_eq_ok_iff.2 ⟨value, hvalue, htargets⟩)
    have hchosen := chosenDataset_eq_ok_iff.2 hfills
    have hreport : report = plainReport o (targetText output file) filled 0 :=
      commandReport_compile_eq hread hchosen hfree
    refine ⟨?_, ?_, ?_, ?_, fun cache => ?_⟩
    · rw [hreport]
      cases output <;> rfl
    · rw [hreport, plainReport_errors]
    · rw [hreport, Report.code_eq_one_iff, plainReport_failures_ne_nil_iff]
    · rw [hreport, Report.code_eq_zero_iff, plainReport_failures_eq_nil_iff]
    · rw [hreport]
      exact commandReport_compile_eq hread hchosen hfree

/-- A target that compiles, one with a value column that has no shape, and a raw one. -/
def mixedTargets : List Descriptor :=
  [.new "a", { Descriptor.new "b" with select := [[]] }, (Descriptor.new "c").withRawSql "SELECT 1"]

def mixedValue : Value := .array (mixedTargets.map Descriptor.toJson)

theorem ofText?_mixedValue : Value.ofText? mixedValue.text = some mixedValue.sorted := by
  have hintegral : mixedValue.IsIntegral :=
    Json.ReadsBack.areIntegral (List.forall₂_map_left_iff.2
      (List.forall₂_same.2 fun d _ => d.readsBack_toJson))
  rw [Value.ofText?_eq_some_iff Query.PartFault, Json.readText_text _ hintegral]
  rfl

theorem forall₂_mixedValue :
    List.Forall₂ (fun v d => Descriptor.ofJson v = .ok d) mixedValue.sorted.listed mixedTargets :=
  .cons rfl (.cons rfl (.cons rfl .nil))

theorem readTargets_mixedValue (file : String) :
    readTargets (hostHolding mixedValue.text) file = .ok mixedTargets :=
  (readTargets_eq_ok_iff (readText_hostHolding _ file)).2
    (targetsOfText_eq_ok_iff.2 ⟨_, ofText?_mixedValue, forall₂_mixedValue⟩)

theorem collisionFree_mixedTargets :
    Cache.CollisionFree ((mixedTargets.map (withDefaultDataset (some "shop"))).map
      fun d => Request.hashedBytes (d, .default)) := by
  apply Cache.CollisionFree.of_nodup
  simp only [mixedTargets, List.map, Request.hashedBytes, Cache.hashedBytes_eq_flatMap]
  decide +kernel

/-- Settings with a default dataset that is the value of a variable. -/
def shopSettings : Settings :=
  { Settings.default with
    compiler := { Config.CompilerSettings.default with defaultDataset := some "$\x7bSHOP\x7d" } }

/-- A machine with the variable. -/
def shopHost : Host :=
  { hostHolding mixedValue.text with
    environment := fun name => if name = "SHOP" then some "shop" else none }

theorem compile_reports_each_target_of_mixed :
    ((commandReport (hostHolding mixedValue.text) shopSettings (.compile "q.json" none .sql)).output =
        "" ∧
      (commandReport (hostHolding mixedValue.text) shopSettings (.compile "q.json" none .sql)).code =
        1) ∧
    (commandReport shopHost shopSettings (.compile "q.json" none .sql)).output =
      "#standardSQL\nSELECT\n -- time -- AS time\nFROM shop.a\nORDER BY 1\nSELECT 1\n" ∧
    (commandReport shopHost shopSettings (.compile "q.json" none .sql)).code = 1 ∧
    ∀ cache, commandReport shopHost { shopSettings with cache } (.compile "q.json" none .sql) =
      commandReport shopHost shopSettings (.compile "q.json" none .sql) := by
  have htext := readText_hostHolding mixedValue.text "q.json"
  have hmissing : Config.expand (hostHolding mixedValue.text).environment "$\x7bSHOP\x7d" =
      .error (.missingVariable "SHOP") := by decide +kernel
  have hexpanded : Config.expand shopHost.environment "$\x7bSHOP\x7d" = .ok "shop" := by
    decide +kernel
  have hunset := (compile_reports_each_target (hostHolding mixedValue.text) shopSettings "q.json" none
    .sql htext).1 (.inr (.inr ⟨rfl, _, _, rfl, hmissing⟩))
  have hreport := (compile_reports_each_target shopHost shopSettings "q.json" none .sql htext).2 _
    mixedTargets _ ofText?_mixedValue forall₂_mixedValue (.expanded rfl hexpanded)
    collisionFree_mixedTargets
  refine ⟨⟨hunset.1, hunset.2.1⟩, hreport.1.trans ?_, hreport.2.2.1.2 ?_, hreport.2.2.2.2⟩
  · decide +kernel
  · exact ⟨_, .tail _ (.head _), _, rfl⟩

end SeriesQuery.CommandLine
