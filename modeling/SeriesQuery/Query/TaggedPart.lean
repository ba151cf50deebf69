import SeriesQuery.Json.Text
import SeriesQuery.Query.Part
import SeriesQuery.Query.RowCount

/-!
# Tagged parts

In JSON every part has one form: a kind, a list of parameters, and for engine filters a name. A
parameter is present when it exists and is not null; its text is the string itself or, for any
other value, the compact JSON of the value.
-/

namespace SeriesQuery.Query

structure TaggedPart where
  kind : String
  name : Option String
  params : List Json.Value
  deriving Repr

inductive PartCategory where
  | column
  | condition
  | group
  deriving DecidableEq, Repr

def PartCategory.text : PartCategory → String
  | .column => "column"
  | .condition => "where"
  | .group => "group"

/-- Why a tagged part is none of the parts of its category. -/
inductive PartFault where
  | unknownKind (category : PartCategory) (kind : String)
  | missingParam (kind : String) (index : Nat)
  | invalidParam (kind value : String)
  | unknownWindow (text : String)
  | unknownFilter (text : String)
  deriving DecidableEq, Repr

def PartFault.message : PartFault → String
  | .unknownKind category kind => "Unknown " ++ category.text ++ " part type: " ++ kind
  | .missingParam kind index =>
    "Part '" ++ kind ++ "' is missing parameter " ++ toString index
  | .invalidParam kind value => "Part '" ++ kind ++ "' has invalid parameter: " ++ value
  | .unknownWindow text => "Unknown window kind: " ++ text
  | .unknownFilter text => "Unknown where macro: " ++ text

def paramText? : Json.Value → Option String
  | .null => none
  | .string s => some s
  | value => some value.text

namespace TaggedPart

def param? (p : TaggedPart) (index : Nat) : Option String :=
  p.params[index]?.bind paramText?

def param (p : TaggedPart) (index : Nat) : Except PartFault String :=
  match p.param? index with
  | some text => .ok text
  | none => .error (.missingParam p.kind index)

/-- The number of rows of a moving window; it is looked at before the function is. -/
def rows (p : TaggedPart) : Except PartFault (Option UInt32) :=
  match p.param? 1 with
  | none => .ok none
  | some text =>
    match RowCount.ofText? text with
    | some n => .ok (some n)
    | none => .error (.invalidParam p.kind text)

def windowKind (text : String) : Except PartFault WindowKind :=
  match WindowKind.ofName? text with
  | some kind => .ok kind
  | none => .error (.unknownWindow text)

def engineFilter (text : String) : Except PartFault EngineFilter :=
  match EngineFilter.ofName? text with
  | some filter => .ok filter
  | none => .error (.unknownFilter text)

def toColumnPart (p : TaggedPart) : Except PartFault ColumnPart :=
  match p.kind with
  | "column" => do return .column (← p.param 0)
  | "alias" => do return .label (← p.param 0)
  | "aggregate" => do return .aggregate (← p.param 0)
  | "percentile" => do
    let function ← p.param 0
    let argument ← p.param 1
    return .percentile function argument
  | "window" => do return .window (← windowKind (← p.param 0))
  | "moving_window" => do
    let rows ← p.rows
    let function ← p.param 0
    return .movingWindow function rows
  | kind => .error (.unknownKind .column kind)

/-- The name of an engine filter may also be its first parameter. -/
def toCondition (p : TaggedPart) : Except PartFault Condition :=
  match p.kind with
  | "macro" => do
    let name ← match p.name with
      | some name => pure name
      | none => p.param 0
    return .engine (← engineFilter name)
  | "expression" => do
    let left ← p.param 0
    let op ← p.param 1
    let right ← p.param 2
    return .expression left op right
  | kind => .error (.unknownKind .condition kind)

def toGrouping (p : TaggedPart) : Except PartFault Grouping :=
  match p.kind with
  | "time" => do return .time (← p.param 0) (p.param? 1)
  | "column" => do return .column (← p.param 0)
  | kind => .error (.unknownKind .group kind)

def toJson (p : TaggedPart) : Json.Value :=
  .object (("type", .string p.kind) ::
    ((p.name.map fun name => ("name", Json.Value.string name)).toList ++
      [("params", .array p.params)]))

def ofTexts (kind : String) (texts : List String) : TaggedPart :=
  ⟨kind, none, texts.map .string⟩

end TaggedPart

def ColumnPart.tagged : ColumnPart → TaggedPart
  | .column name => .ofTexts "column" [name]
  | .label name => .ofTexts "alias" [name]
  | .aggregate function => .ofTexts "aggregate" [function]
  | .percentile function argument => .ofTexts "percentile" [function, argument]
  | .window kind => .ofTexts "window" [kind.name]
  | .movingWindow function rows =>
    ⟨"moving_window", none,
      .string function :: (rows.map fun n => Json.Value.number (.integer n.toNat)).toList⟩

def Condition.tagged : Condition → TaggedPart
  | .engine filter => ⟨"macro", some filter.name, []⟩
  | .expression left op right => .ofTexts "expression" [left, op, right]

def Grouping.tagged : Grouping → TaggedPart
  | .time interval fill => .ofTexts "time" (interval :: fill.toList)
  | .column name => .ofTexts "column" [name]

end SeriesQuery.Query
