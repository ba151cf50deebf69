/-!
# Command-line arguments

Arguments are options, flags and positional arguments. An option takes its value from the same
argument or from the next one, which must then not look like an option; short names may be run
together; after two dashes every argument is positional. An option or flag may be given once.
-/

namespace SeriesQuery.CommandLine

structure OptionSpec where
  long : String
  short : Char
  /-- Whether it is an option with a value or a flag without one. -/
  hasValue : Bool
  deriving DecidableEq, Repr

/-- An option with its value, or a flag without. -/
structure Setting where
  long : String
  value : Option String
  deriving DecidableEq, Repr

inductive Ending where
  | complete
  /-- The last option takes its value from the next argument. -/
  | awaitsValue (long : String)
  /-- A name that is not known, or a value for a flag. -/
  | misused
  deriving DecidableEq, Repr

/-- What one argument gives: settings, and how it ends. -/
structure Reading where
  settings : List Setting
  ending : Ending
  deriving DecidableEq, Repr

inductive Argument where
  | options (reading : Reading)
  | separator
  | positional (text : String)
  deriving DecidableEq, Repr

/-- Reads an argument that starts with two dashes, which are left out here. -/
def readLong (specs : List OptionSpec) (body : List Char) : Reading :=
  let name := String.ofList (body.takeWhile (· ≠ '='))
  match specs.find? (·.long = name), body.dropWhile (· ≠ '=') with
  | none, _ => ⟨[], .misused⟩
  | some spec, [] =>
    if spec.hasValue then ⟨[], .awaitsValue name⟩ else ⟨[⟨name, none⟩], .complete⟩
  | some spec, _ :: value =>
    if spec.hasValue then ⟨[⟨name, some (String.ofList value)⟩], .complete⟩ else ⟨[], .misused⟩

/-- A value that follows a short name directly, perhaps after an equals sign. -/
def attachedValue : List Char → String
  | '=' :: value => String.ofList value
  | value => String.ofList value

/-- Reads an argument that starts with one dash, which is left out here. -/
def readShort (specs : List OptionSpec) : List Char → Reading
  | [] => ⟨[], .complete⟩
  | c :: rest =>
    match specs.find? (·.short = c) with
    | none => ⟨[], .misused⟩
    | some spec =>
      if spec.hasValue then
        if rest.isEmpty then ⟨[], .awaitsValue spec.long⟩
        else ⟨[⟨spec.long, some (attachedValue rest)⟩], .complete⟩
      else
        let reading := readShort specs rest
        { reading with settings := ⟨spec.long, none⟩ :: reading.settings }

def readArgument (specs : List OptionSpec) (arg : String) : Argument :=
  match arg.toList with
  | ['-', '-'] => .separator
  | '-' :: '-' :: body => .options (readLong specs body)
  | ['-'] => .positional arg
  | '-' :: body => .options (readShort specs body)
  | _ => .positional arg

/-- Whether an argument can be the value of the option before it. -/
def canBeValue (arg : String) : Bool := arg == "-" || !arg.startsWith "-"

structure Collected where
  settings : List Setting
  positionals : List String
  deriving DecidableEq, Repr

namespace Collected

def empty : Collected := ⟨[], []⟩

def has (c : Collected) (long : String) : Bool := c.settings.any (·.long == long)

def value? (c : Collected) (long : String) : Option String :=
  (c.settings.find? (·.long == long)).bind (·.value)

def add (c : Collected) (s : Setting) : Option Collected :=
  if c.has s.long then none else some { c with settings := c.settings ++ [s] }

def addAll (c : Collected) (settings : List Setting) : Option Collected := settings.foldlM add c

def addPositional (c : Collected) (text : String) : Collected :=
  { c with positionals := c.positionals ++ [text] }

/-- Reads all arguments; `pending` is an option that waits for its value. -/
def readAll (specs : List OptionSpec) (c : Collected) (pending : Option String) :
    List String → Option Collected
  | [] => if pending.isSome then none else some c
  | arg :: args =>
    match pending with
    | some long => do
      if canBeValue arg then readAll specs (← c.add ⟨long, some arg⟩) none args else none
    | none => do
      match readArgument specs arg with
      | .separator => return args.foldl addPositional c
      | .positional text => readAll specs (c.addPositional text) none args
      | .options reading =>
        let c ← c.addAll reading.settings
        match reading.ending with
        | .complete => readAll specs c none args
        | .awaitsValue long => readAll specs c (some long) args
        | .misused => none

end Collected

end SeriesQuery.CommandLine
