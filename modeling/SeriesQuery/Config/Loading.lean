import SeriesQuery.Config.Files
import SeriesQuery.Config.Settings

/-!
# Where settings come from

Settings are read from a file that is named outright, or else from the first of these: the file
named by a variable, the file in the working directory, the file in the user's configuration
directory. Where there is none, they have their defaults.
-/

namespace SeriesQuery.Config

inductive SettingsFault where
  | fileNotFound (path : String)
  | unreadable (fault : FileFault)
  /-- The text is not TOML, or its values have the wrong types. -/
  | malformed
  deriving DecidableEq, Repr

def SettingsFault.message : SettingsFault → String
  | .fileNotFound path => "Config file not found: " ++ path
  | .unreadable fault => "Failed to read config file: " ++ fault.message
  | .malformed => "Failed to parse config file: "

/-- What a program sees of the machine it runs on. -/
structure Host where
  environment : Environment
  files : Files

namespace Settings

def pathVariable : String := "BQCOMPILE_CONFIG"

def directoryVariable : String := "XDG_CONFIG_HOME"

def homeVariable : String := "HOME"

def localPath : String := "bqcompile.toml"

def fromFile (files : Files) (path : String) : Except SettingsFault Settings :=
  let state := files path
  if !state.isPresent then .error (.fileNotFound path)
  else
    match state.readText with
    | .error fault => .error (.unreadable fault)
    | .ok text =>
      match ofText? text with
      | some settings => .ok settings
      | none => .error .malformed

/-- The user's configuration directory; a relative path in the variable does not count. -/
def userDirectory? (env : Environment) : Option String :=
  match env directoryVariable with
  | some path =>
    if isAbsolute path then some path else home
  | none => home
where
  home : Option String :=
    match env homeVariable with
    | some path => if path.isEmpty then none else some (joinPath path ".config")
    | none => none

def userPath? (env : Environment) : Option String :=
  (userDirectory? env).map fun directory => joinPath (joinPath directory "bqcompile") "config.toml"

/-- Where a file is looked for when none is named; the first that is there counts. -/
def searchPaths (env : Environment) : List String := localPath :: (userPath? env).toList

/-- The variables that decide where settings come from. -/
def locationVariables : List String := [pathVariable, directoryVariable, homeVariable]

def load (host : Host) : Except SettingsFault Settings :=
  match host.environment pathVariable with
  | some path => fromFile host.files path
  | none =>
    match (searchPaths host.environment).find? fun path => (host.files path).isPresent with
    | some path => fromFile host.files path
    | none => .ok .default

end Settings

end SeriesQuery.Config
