import SeriesQuery.CommandLine.Arguments

/-!
# Invocations

What a list of arguments asks the program to do. The configuration file may be named before the
command or after it, and after it wins. The version may be asked for before the command only, and is
answered as soon as it is met.
-/

namespace SeriesQuery.CommandLine

inductive OutputFormat where
  | sql
  | verbose
  deriving DecidableEq, Repr

def OutputFormat.ofName? : String → Option OutputFormat
  | "sql" => some .sql
  | "verbose" => some .verbose
  | _ => none

inductive Command where
  | compile (file : String) (dataset : Option String) (output : OutputFormat)
  | validate (file : String)
  | escape (text : String) (isQuoted : Bool)
  deriving DecidableEq, Repr

def Command.file? : Command → Option String
  | .compile file _ _ => some file
  | .validate file => some file
  | .escape _ _ => none

structure Invocation where
  config : Option String
  command : Command
  deriving DecidableEq, Repr

inductive Request where
  | version
  | run (invocation : Invocation)
  deriving DecidableEq, Repr

def configOption : OptionSpec := ⟨"config", 'c', true⟩

def versionFlag : OptionSpec := ⟨"version", 'V', false⟩

def globalOptions : List OptionSpec := [configOption, versionFlag]

def commandOptions? : String → Option (List OptionSpec)
  | "compile" => some [configOption, ⟨"dataset", 'd', true⟩, ⟨"output", 'o', true⟩]
  | "validate" => some [configOption]
  | "escape" => some [configOption, ⟨"quote", 'q', false⟩]
  | _ => none

/-- A path is never empty. -/
def path? (text : String) : Option String := if text.isEmpty then none else some text

def command? (name : String) (c : Collected) : Option Command :=
  match name, c.positionals with
  | "compile", [file] => do
    let output ← match c.value? "output" with
      | some text => OutputFormat.ofName? text
      | none => some .sql
    return .compile (← path? file) (c.value? "dataset") output
  | "validate", [file] => do return .validate (← path? file)
  | "escape", [text] => some (.escape text (c.has "quote"))
  | _, _ => none

/-- The configuration file, if one is named; the place after the command comes first. -/
def config? (after before : Option String) : Option (Option String) :=
  match after.or before with
  | some path => (path? path).map some
  | none => some none

def readCommand (before : Collected) (name : String) (args : List String) : Option Request := do
  let c ← Collected.readAll (← commandOptions? name) .empty none args
  let config ← config? (c.value? "config") (before.value? "config")
  return .run ⟨config, ← command? name c⟩

/-- Adds settings up to the flag for the version, which ends the reading. -/
def addGlobals (c : Collected) : List Setting → Option (Collected ⊕ Request)
  | [] => some (.inl c)
  | s :: settings =>
    if s.long = versionFlag.long then some (.inr .version)
    else if s.value = some "" then none
    else do addGlobals (← c.add s) settings

def readGlobals (c : Collected) (pending : Option String) : List String → Option Request
  | [] => none
  | arg :: args =>
    match pending with
    | some long =>
      if canBeValue arg && !arg.isEmpty then do
        readGlobals (← c.add ⟨long, some arg⟩) none args
      else none
    | none => do
      match readArgument globalOptions arg with
      | .separator => none
      | .positional name => readCommand c name args
      | .options reading =>
        match ← addGlobals c reading.settings with
        | .inr request => return request
        | .inl c =>
          match reading.ending with
          | .complete => readGlobals c none args
          | .awaitsValue long => readGlobals c (some long) args
          | .misused => none

/-- What the arguments ask for, if they are used as they should be. -/
def Request.ofArguments? (args : List String) : Option Request := readGlobals .empty none args

end SeriesQuery.CommandLine
