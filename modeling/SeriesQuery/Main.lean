import SeriesQuery.CommandLine.Run

/-!
# The program

Collects from the machine what a run can look at, runs, and prints the report. Which variables and
files those are is known beforehand, save for the variables that the settings refer to: settings are
loaded once to learn their names.
-/

namespace SeriesQuery.CommandLine

open Config (Environment FileState Files Host Settings)

/-- The number and the words of an error of the system. -/
def systemError? : IO.Error → Option (UInt32 × String)
  | .alreadyExists _ code details => some (code, details)
  | .otherError code details => some (code, details)
  | .resourceBusy code details => some (code, details)
  | .resourceVanished code details => some (code, details)
  | .unsupportedOperation code details => some (code, details)
  | .hardwareFault code details => some (code, details)
  | .unsatisfiedConstraints code details => some (code, details)
  | .illegalOperation code details => some (code, details)
  | .protocolError code details => some (code, details)
  | .timeExpired code details => some (code, details)
  | .interrupted _ code details => some (code, details)
  | .noFileOrDirectory _ code details => some (code, details)
  | .invalidArgument _ code details => some (code, details)
  | .permissionDenied _ code details => some (code, details)
  | .resourceExhausted _ code details => some (code, details)
  | .inappropriateType _ code details => some (code, details)
  | .noSuchThing _ code details => some (code, details)
  | .unexpectedEof => none
  | .userError _ => none

/-- What stands at a path that cannot be read. The number of an error may come negated. -/
def stateOfError (error : IO.Error) : FileState :=
  match systemError? error with
  | some (code, details) =>
    match code.toInt32.toInt.natAbs with
    | 2 => .missing .notFound
    | 20 => .missing .notDirectory
    | 21 => .directory
    | 36 => .missing .nameTooLong
    | number =>
      .unreadable (.system (details.capitalize ++ " (os error " ++ toString number ++ ")"))
  | none => .unreadable (.system (toString error))

def readState (path : String) : IO FileState := do
  try return .contents (← IO.FS.readBinFile path)
  catch error => return stateOfError error

def readEnvironment (names : List String) : IO Environment := do
  let values ← names.mapM fun name => return (name, ← IO.getEnv name)
  return fun name => (values.lookup name).join

def readFiles (paths : List String) : IO Files := do
  let states ← paths.mapM fun path => return (path, ← readState path)
  return fun path => (states.lookup path).getD (.missing .notFound)

/-- The paths that a run can look at. -/
def Invocation.paths (invocation : Invocation) (env : Environment) : List String :=
  invocation.config.toList ++ (env Settings.pathVariable).toList ++ Settings.searchPaths env ++
    invocation.command.file?.toList

/-- The variables that the default dataset refers to. -/
def datasetVariables (host : Host) (invocation : Invocation) : List String :=
  match loadSettings host invocation.config with
  | .ok settings => (settings.compiler.defaultDataset.toList).flatMap Config.Template.references
  | .error _ => []

def collect (request : Request) : IO Host := do
  let environment ← readEnvironment Settings.locationVariables
  match request with
  | .version => return ⟨environment, ← readFiles []⟩
  | .run invocation =>
    let host : Host := ⟨environment, ← readFiles (invocation.paths environment)⟩
    let names := Settings.locationVariables ++ datasetVariables host invocation
    return { host with environment := ← readEnvironment names }

def usage : String :=
  "Usage: bqcompile [-c FILE] COMMAND\n\n" ++
  "  compile FILE [-d DATASET] [-o sql|verbose]\n" ++
  "  validate FILE\n" ++
  "  escape TEXT [-q]\n"

end SeriesQuery.CommandLine

open SeriesQuery.CommandLine in
def main (args : List String) : IO UInt32 := do
  match Request.ofArguments? args with
  | none =>
    IO.eprint usage
    return 2
  | some request =>
    let report := request.report (← collect request)
    IO.print report.output
    IO.eprint report.errors
    return UInt32.ofNat report.code
