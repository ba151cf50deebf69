import SeriesQuery.Cache.Basic
import SeriesQuery.Config.Template
import SeriesQuery.Toml.Document

/-!
# Settings

Settings come from a TOML file with three sections, each of which may be missing, as may each of
its keys. A section may also be an array of its values in order. Unknown keys are ignored once
their values can be read, and what an array has beyond the keys of its section is not looked at.
-/

namespace SeriesQuery.Config

structure CompilerSettings where
  /-- The dataset of queries that name none; it may refer to environment variables. -/
  defaultDataset : Option String
  timePlaceholder : String
  datasetPlaceholder : String
  movingWindowPlaceholder : String
  deriving DecidableEq, Repr

structure CacheSettings where
  enabled : Bool
  capacity : Nat
  deriving DecidableEq, Repr

structure LoggingSettings where
  filter : String
  deriving DecidableEq, Repr

structure Settings where
  compiler : CompilerSettings
  cache : CacheSettings
  logging : LoggingSettings
  deriving DecidableEq, Repr

def CompilerSettings.default : CompilerSettings :=
  let o := Compile.Options.default
  ⟨none, o.timePlaceholder, o.datasetPlaceholder, o.rowsPlaceholder⟩

def CompilerSettings.options (s : CompilerSettings) : Compile.Options :=
  ⟨s.timePlaceholder, s.datasetPlaceholder, s.movingWindowPlaceholder⟩

/-- The default dataset with its variables expanded. -/
def CompilerSettings.resolvedDataset (s : CompilerSettings) (env : Environment) :
    Except ExpandFault (Option String) :=
  match s.defaultDataset with
  | none => .ok none
  | some text => (expand env text).map some

def CacheSettings.default : CacheSettings := ⟨true, StatementCache.defaultCapacity⟩

/-- The capacity to build a cache with; zero when it is disabled. -/
def CacheSettings.effectiveCapacity (s : CacheSettings) : Nat := if s.enabled then s.capacity else 0

def LoggingSettings.default : LoggingSettings := ⟨"bqcompile=info"⟩

def Settings.default : Settings := ⟨.default, .default, .default⟩

/-- Reads one section, key by key. -/
structure SectionReader (σ : Type) where
  keys : List String
  set : String → σ → Toml.Value → Option σ

namespace SectionReader

variable {σ : Type} (reader : SectionReader σ)

def readFields (fields : List (String × Toml.Value)) (s : σ) : Option σ :=
  fields.foldlM
    (fun s (key, value) =>
      if key ∈ reader.keys then reader.set key s value
      else if value.isReadable then some s
      else none) s

def readItems (items : List Toml.Value) (s : σ) : Option σ :=
  (reader.keys.zip items).foldlM (fun s (key, value) => reader.set key s value) s

/-- A date holds no key that a section knows. -/
def read (s : σ) : Toml.Value → Option σ
  | .table _ fields => reader.readFields fields s
  | .array items _ => reader.readItems items s
  | .date => some s
  | _ => none

end SectionReader

def CompilerSettings.reader : SectionReader CompilerSettings where
  keys := ["default_dataset", "time_placeholder", "dataset_placeholder",
    "moving_window_placeholder"]
  set key s value :=
    match key with
    | "default_dataset" => do return { s with defaultDataset := some (← value.string?) }
    | "time_placeholder" => do return { s with timePlaceholder := ← value.string? }
    | "dataset_placeholder" => do return { s with datasetPlaceholder := ← value.string? }
    | "moving_window_placeholder" => do return { s with movingWindowPlaceholder := ← value.string? }
    | _ => some s

def CacheSettings.reader : SectionReader CacheSettings where
  keys := ["enabled", "capacity"]
  set key s value :=
    match key with
    | "enabled" => do return { s with enabled := ← value.bool? }
    | "capacity" => do return { s with capacity := ← value.natural? }
    | _ => some s

def LoggingSettings.reader : SectionReader LoggingSettings where
  keys := ["filter"]
  set key s value :=
    match key with
    | "filter" => do return { s with filter := ← value.string? }
    | _ => some s

def Settings.reader : SectionReader Settings where
  keys := ["compiler", "cache", "logging"]
  set key s value :=
    match key with
    | "compiler" => do return { s with compiler := ← CompilerSettings.reader.read .default value }
    | "cache" => do return { s with cache := ← CacheSettings.reader.read .default value }
    | "logging" => do return { s with logging := ← LoggingSettings.reader.read .default value }
    | _ => some s

/-- The settings of a TOML text, if it is well formed and its known keys have the right types. -/
def Settings.ofText? (text : String) : Option Settings := do
  let table ← Toml.ofText? text
  Settings.reader.readFields table.fields .default

end SeriesQuery.Config
