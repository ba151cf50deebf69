import SeriesQuery.Proofs.CommandLine.Compiling
import SeriesQuery.Proofs.Compile.Agreement

/-!
# Validating a file

Validation neither renders targets nor looks at the raw ones, and gives them no dataset. It finds
the same faults as a compilation all the same: a raw target never fails, and no fault has to do with
the dataset.
-/

namespace SeriesQuery.CommandLine

open Compile (CompileFault Options)
open Config (Host Settings)
open Query (Descriptor)

/-! ### Faults of targets -/

/-- The targets that a failure tells of, by their indices, with the message for each. -/
def Failure.targetFaults : Failure → List (Nat × String)
  | .target index fault => [(index, fault.message)]
  | .validation faults => faults.map fun (index, fault) => (index, fault.message)
  | _ => []

def Report.targetFaults (r : Report) : List (Nat × String) := r.failures.flatMap Failure.targetFaults

section

variable {o : Options} {targets : List Descriptor} {index : Nat}

theorem compile_withDefaultDataset_eq_error_iff {d : Descriptor} {fallback : Option String}
    {fault : CompileFault} :
    Compile.compile (withDefaultDataset fallback d) o = .error fault ↔
      Compile.compile d o = .error fault := by
  rw [Compile.compile_eq_error_iff, Compile.compile_eq_error_iff]
  exact Iff.rfl

theorem render_eq_error_iff {d : Descriptor} {fault : CompileFault} :
    Compile.render d o = .error fault ↔
      d.rawQuery = false ∧ Compile.compile d o = .error fault := by
  cases hraw : d.rawQuery with
  | true => simp [Compile.render_of_rawQuery hraw]
  | false => simp [Compile.render_of_not_rawQuery hraw]

theorem render_withDefaultDataset_eq_error_iff {d : Descriptor} {fallback : Option String}
    {fault : CompileFault} :
    Compile.render (withDefaultDataset fallback d) o = .error fault ↔
      Compile.render d o = .error fault := by
  rw [render_eq_error_iff, render_eq_error_iff, compile_withDefaultDataset_eq_error_iff]
  exact Iff.rfl

/-- The default dataset does not show in the faults. -/
theorem failing_withDefaultDataset (fallback : Option String) :
    failing o ((targets.map (withDefaultDataset fallback)).zipIdx index) =
      failing o (targets.zipIdx index) := by
  induction targets generalizing index with
  | nil => rfl
  | cons d targets ih =>
    rw [List.map_cons, List.zipIdx_cons, List.zipIdx_cons]
    cases h : Compile.render d o with
    | ok sql =>
      cases h' : Compile.render (withDefaultDataset fallback d) o with
      | ok sql' => rw [failing_cons_of_ok h, failing_cons_of_ok h', ih]
      | error fault =>
        rw [render_withDefaultDataset_eq_error_iff, h] at h'
        cases h'
    | error fault =>
      have h' : Compile.render (withDefaultDataset fallback d) o = .error fault :=
        render_withDefaultDataset_eq_error_iff.2 h
      rw [failing_cons_of_error h, failing_cons_of_error h', ih]

/-- The targets that are not valid are those that cannot be rendered. -/
theorem invalidTargets_eq_failing :
    invalidTargets o index targets = failing o (targets.zipIdx index) := by
  induction targets generalizing index with
  | nil => rfl
  | cons d targets ih =>
    rw [invalidTargets, ih, List.zipIdx_cons]
    cases hraw : d.rawQuery with
    | true =>
      rw [failing_cons_of_ok (Compile.render_of_rawQuery hraw o)]
      rfl
    | false =>
      have hrender := Compile.render_of_not_rawQuery hraw o
      cases h : Compile.compile d o with
      | ok sql =>
        rw [failing_cons_of_ok (hrender.trans h)]
        rfl
      | error fault =>
        rw [failing_cons_of_error (hrender.trans h)]
        rfl

/-- The faults of targets as they are reported. -/
def messages (faults : List (Nat × CompileFault)) : List (Nat × String) :=
  faults.map fun (index, fault) => (index, fault.message)

theorem plainReport_targetFaults (text : Nat → Descriptor → String → String) :
    (plainReport o text targets index).targetFaults = messages (failing o (targets.zipIdx index)) := by
  rw [plainReport, Report.targetFaults, List.flatMap_map, messages, List.map_eq_flatMap]
  rfl

end

/-! ### Reports of a validation -/

theorem Failure.text_validation (faults : List (Nat × CompileFault)) :
    (Failure.validation faults).text =
      "Validation errors:\n" ++ String.join ((messages faults).map fun (index, message) =>
        "  target " ++ toString index ++ ": " ++ message ++ "\n") := by
  have hline (index : Nat) (fault : CompileFault) : "  " ++ targetLine index fault ++ "\n" =
      "  target " ++ toString index ++ ": " ++ fault.message ++ "\n" := by
    unfold targetLine
    simp only [← String.append_assoc, String.reduceAppend]
  have htext : (Failure.validation faults).text = "Validation errors:\n" ++
      String.join (faults.map fun (index, fault) => "  " ++ targetLine index fault ++ "\n") := rfl
  rw [htext, messages, List.map_map]
  simp only [Function.comp_def, hline]

section

variable {r : Report} {faults : List (Nat × CompileFault)}
  (h : r.failures = if faults = [] then [] else [.validation faults])

include h

theorem code_eq_zero_iff_of_validation : r.code = 0 ↔ faults = [] := by
  rw [Report.code_eq_zero_iff, h]
  by_cases hfaults : faults = [] <;> simp [hfaults]

theorem targetFaults_of_validation : r.targetFaults = messages faults := by
  rw [Report.targetFaults, h]
  by_cases hfaults : faults = []
  · subst hfaults
    rfl
  · rw [if_neg hfaults, List.flatMap_singleton]
    rfl

theorem errors_of_validation :
    r.errors = if messages faults = [] then "" else
      "Validation errors:\n" ++ String.join ((messages faults).map fun (index, message) =>
        "  target " ++ toString index ++ ": " ++ message ++ "\n") := by
  have hnone : messages faults = [] ↔ faults = [] := List.map_eq_nil_iff
  rw [Report.errors, h]
  simp only [hnone]
  by_cases hfaults : faults = []
  · simp only [hfaults, if_true, List.map_nil, String.join_nil]
  · rw [if_neg hfaults, if_neg hfaults, List.map_singleton, String.join_cons, String.join_nil,
      String.append_empty, Failure.text_validation]

end

section

variable {host : Host} {settings : Settings} {file : String} {targets : List Descriptor}

theorem failures_validate_eq (htargets : readTargets host file = .ok targets) :
    (commandReport host settings (.validate file)).failures =
      let faults := failing settings.compiler.options targets.zipIdx
      if faults = [] then [] else [.validation faults] := by
  simp only [commandReport, runCommand, runValidate, htargets, Except.ok_bind,
    invalidTargets_eq_failing]
  cases failing settings.compiler.options targets.zipIdx <;> rfl

/-- A validation succeeds exactly when a compilation does, and tells of the same targets in the same
order, with the same messages. -/
theorem validate_agrees_with_compile {dataset fallback : Option String} (output : OutputFormat)
    (htargets : readTargets host file = .ok targets)
    (hfallback : dataset = none →
      settings.compiler.resolvedDataset host.environment = .ok fallback)
    (hfree : Cache.CollisionFree ((targets.map (withDefaultDataset (dataset.or fallback))).map
      fun d => Request.hashedBytes (d, settings.compiler.options))) :
    let validated := commandReport host settings (.validate file)
    let compiled := commandReport host settings (.compile file dataset output)
    (validated.code = 0 ↔ compiled.code = 0) ∧
    ∃ faults : List (Nat × String),
      validated.targetFaults = faults ∧ compiled.targetFaults = faults ∧
      validated.errors = (if faults = [] then "" else
        "Validation errors:\n" ++ String.join (faults.map fun (index, message) =>
          "  target " ++ toString index ++ ": " ++ message ++ "\n")) ∧
      compiled.errors = String.join (faults.map fun (index, message) =>
        "Compilation error in target " ++ toString index ++ ": " ++ message ++ "\n") := by
  intro validated compiled
  let faults := failing settings.compiler.options targets.zipIdx
  have hcompiled : compiled = plainReport settings.compiler.options (targetText output file)
      (targets.map (withDefaultDataset (dataset.or fallback))) 0 :=
    commandReport_compile_eq htargets (chosenDataset_eq_ok hfallback) hfree
  have hvalidated : validated.failures = if faults = [] then [] else [.validation faults] :=
    failures_validate_eq htargets
  refine ⟨?_, messages faults, ?_, ?_, ?_, ?_⟩
  · have hnone : compiled.code = 0 ↔ faults = [] := by
      rw [Report.code_eq_zero_iff, hcompiled, plainReport, failing_withDefaultDataset,
        List.map_eq_nil_iff]
    rw [code_eq_zero_iff_of_validation hvalidated, hnone]
  · exact targetFaults_of_validation hvalidated
  · rw [hcompiled, plainReport_targetFaults, failing_withDefaultDataset]
  · exact errors_of_validation hvalidated
  · rw [hcompiled, plainReport_errors, failing_withDefaultDataset, messages, List.map_map]
    rfl

end

theorem validate_agrees_with_compile_of_mixed :
    let validated := commandReport (hostHolding mixedValue.text) .default (.validate "q.json")
    let compiled := commandReport (hostHolding mixedValue.text) .default
      (.compile "q.json" (some "shop") .verbose)
    (validated.code = 0 ↔ compiled.code = 0) ∧
      validated.targetFaults.map Prod.fst = [1] ∧ compiled.targetFaults.map Prod.fst = [1] := by
  intro validated compiled
  have hfallback : some "shop" = none →
      Settings.default.compiler.resolvedDataset (hostHolding mixedValue.text).environment =
        .ok none := fun h => nomatch h
  obtain ⟨hcode, faults, hvalidated, hcompiled, -⟩ := validate_agrees_with_compile .verbose
    (readTargets_mixedValue "q.json") hfallback collisionFree_mixedTargets
  have hindices : validated.targetFaults.map Prod.fst = [1] := by
    rw [targetFaults_of_validation (failures_validate_eq (readTargets_mixedValue "q.json"))]
    rfl
  rw [hvalidated] at hindices
  rw [hvalidated, hcompiled]
  exact ⟨hcode, hindices, hindices⟩

end SeriesQuery.CommandLine
