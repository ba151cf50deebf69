import SeriesQuery.CommandLine.Invocation
import SeriesQuery.Config.Loading
import SeriesQuery.Json.Position
import SeriesQuery.Query.Reading
import SeriesQuery.Sql.Literal

/-!
# Running a command

A run gives the text for the standard output and the failures, in order, for the standard error
output. Settings are loaded before the command does anything.
-/

namespace SeriesQuery.CommandLine

open Compile (CompileFault Options)
open Config (ExpandFault FileFault Host Settings SettingsFault)
open Query (Descriptor ReadFault)

inductive Failure where
  | settings (fault : SettingsFault)
  | file (path : String) (fault : FileFault)
  | targets (path : String) (fault : ReadFault)
  | dataset (fault : ExpandFault)
  /-- A target that does not compile. -/
  | target (index : Nat) (fault : CompileFault)
  /-- All targets that are not valid. -/
  | validation (faults : List (Nat × CompileFault))
  deriving DecidableEq, Repr

def targetLine (index : Nat) (fault : CompileFault) : String :=
  "target " ++ toString index ++ ": " ++ fault.message

def Failure.text : Failure → String
  | .settings fault => "Error loading configuration: " ++ fault.message ++ "\n"
  | .file path fault => "Error reading file '" ++ path ++ "': " ++ fault.message ++ "\n"
  | .targets path fault =>
    "Error parsing '" ++ path ++ "': " ++ Json.Position.printed (ReadFault.message fault) ++ "\n"
  | .dataset fault => "Error resolving default dataset: " ++ fault.message ++ "\n"
  | .target index fault => "Compilation error in " ++ targetLine index fault ++ "\n"
  | .validation faults =>
    "Validation errors:\n" ++
      String.join (faults.map fun (index, fault) => "  " ++ targetLine index fault ++ "\n")

structure Report where
  output : String
  failures : List Failure
  deriving DecidableEq, Repr

namespace Report

def ok (output : String) : Report := ⟨output, []⟩

def failed (failure : Failure) : Report := ⟨"", [failure]⟩

def code (r : Report) : Nat := if r.failures.isEmpty then 0 else 1

def errors (r : Report) : String := String.join (r.failures.map Failure.text)

end Report

/-- The targets of a JSON text: the items of an array, or the one value that it is. -/
def targetsOfText (text : String) : Except ReadFault (List Descriptor) := do
  match ← Json.readText Json.Node.readValue text with
  | .array items => items.mapM Descriptor.ofJson
  | value => return [← Descriptor.ofJson value]

def readTargets (host : Host) (path : String) : Except Failure (List Descriptor) :=
  match (host.files path).readText with
  | .error fault => .error (.file path fault)
  | .ok text =>
    match targetsOfText text with
    | .ok targets => .ok targets
    | .error fault => .error (.targets path fault)

def withDefaultDataset (dataset : Option String) (d : Descriptor) : Descriptor :=
  { d with dataset := d.dataset.or dataset }

def targetText (output : OutputFormat) (file : String) (index : Nat) (d : Descriptor)
    (sql : String) : String :=
  match output with
  | .sql => sql ++ "\n"
  | .verbose =>
    "-- bqcompile\n-- Source: " ++ file ++ " [" ++ toString index ++ "]\n-- Mode: " ++
      (if d.rawQuery then "raw" else "builder") ++ "\n\n" ++ sql ++ "\n\n"

/-- Renders targets from a given index on, through one cache. -/
def renderTargets (options : Options) (text : Nat → Descriptor → String → String)
    (cache : StatementCache) (index : Nat) : List Descriptor → Report
  | [] => .ok ""
  | d :: targets =>
    let (result, cache) := (cache.render d options).value
    let rest := renderTargets options text cache (index + 1) targets
    match result with
    | .ok sql => { rest with output := text index d sql ++ rest.output }
    | .error fault => { rest with failures := .target index fault :: rest.failures }

/-- The dataset for targets that name none: the one given, or else the one of the settings. -/
def chosenDataset (host : Host) (settings : Settings) (dataset : Option String) :
    Except Failure (Option String) :=
  match dataset with
  | some dataset => .ok (some dataset)
  | none =>
    match settings.compiler.resolvedDataset host.environment with
    | .ok dataset => .ok dataset
    | .error fault => .error (.dataset fault)

def runCompile (host : Host) (settings : Settings) (file : String) (dataset : Option String)
    (output : OutputFormat) : Except Failure Report := do
  let targets ← readTargets host file
  let dataset ← chosenDataset host settings dataset
  return renderTargets settings.compiler.options (targetText output file)
    (.new settings.cache.effectiveCapacity) 0 (targets.map (withDefaultDataset dataset))

/-- The targets that do not compile, with their indices; raw targets are not looked at. -/
def invalidTargets (options : Options) (index : Nat) : List Descriptor → List (Nat × CompileFault)
  | [] => []
  | d :: targets =>
    let rest := invalidTargets options (index + 1) targets
    if d.rawQuery then rest
    else
      match Compile.compile d options with
      | .ok _ => rest
      | .error fault => (index, fault) :: rest

def runValidate (host : Host) (settings : Settings) (file : String) : Except Failure Report := do
  let targets ← readTargets host file
  match invalidTargets settings.compiler.options 0 targets with
  | [] =>
    return .ok ("OK: " ++ toString targets.length ++ " target(s) in " ++ file ++ " are valid\n")
  | faults => throw (.validation faults)

def runEscape (text : String) (isQuoted : Bool) : Report :=
  .ok ((if isQuoted then Sql.Literal.quote text else Sql.Literal.escape text) ++ "\n")

def runCommand (host : Host) (settings : Settings) : Command → Except Failure Report
  | .compile file dataset output => runCompile host settings file dataset output
  | .validate file => runValidate host settings file
  | .escape text isQuoted => .ok (runEscape text isQuoted)

def loadSettings (host : Host) (config : Option String) : Except Failure Settings :=
  match (match config with
    | some path => Settings.fromFile host.files path
    | none => Settings.load host) with
  | .ok settings => .ok settings
  | .error fault => .error (.settings fault)

def runInvocation (host : Host) (invocation : Invocation) : Report :=
  let result := do
    let settings ← loadSettings host invocation.config
    runCommand host settings invocation.command
  match result with
  | .ok report => report
  | .error failure => .failed failure

def versionText : String := "bqcompile 0.1.0\n"

def Request.report (host : Host) : Request → Report
  | .version => .ok versionText
  | .run invocation => runInvocation host invocation

/-- Runs the program; there is no report when the arguments are not used as they should be. -/
def run? (host : Host) (args : List String) : Option Report :=
  (Request.ofArguments? args).map (Request.report host)

end SeriesQuery.CommandLine
