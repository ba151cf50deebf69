import SeriesQuery.Json.Reading
import SeriesQuery.Query.Written

/-!
# Reading queries

Parts, targets and descriptors are read from text or from a value. A part is read whole before its
kind and its parameters are looked at.
-/

namespace SeriesQuery.Query

open Json (Origin Node RecordReader RecordShape)

abbrev ReadFault := Json.Fault PartFault

def ReadFault.message (fault : ReadFault) : String := Json.Fault.message PartFault.message fault

abbrev Reader (α : Type) := Origin → Node → Except ReadFault α

def liftContent {α : Type} : Except PartFault α → Except ReadFault α
  | .ok a => .ok a
  | .error cause => .error (.content cause)

def TaggedPart.reader : RecordReader PartFault TaggedPart where
  shape := ⟨"RawPart", ["type", "name", "params"], ["type"]⟩
  set origin field part node :=
    match field with
    | "type" => do return { part with kind := ← node.readString }
    | "name" => do return { part with name := ← node.readOption Node.readString }
    | "params" => do return { part with params := ← node.readList origin Node.readValue }
    | _ => .ok part

def TaggedPart.read : Reader TaggedPart := fun origin node =>
  reader.read origin ⟨"", none, []⟩ node

def ColumnPart.read : Reader ColumnPart := fun origin node => do
  liftContent (← TaggedPart.read origin node).toColumnPart

def ColumnSpec.read : Reader ColumnSpec := fun origin node =>
  node.readList origin ColumnPart.read

def Condition.read : Reader Condition := fun origin node => do
  liftContent (← TaggedPart.read origin node).toCondition

def Grouping.read : Reader Grouping := fun origin node => do
  liftContent (← TaggedPart.read origin node).toGrouping

def Target.reader : RecordReader PartFault Target where
  shape := ⟨"QueryTarget", ["dataset", "table", "rawQuery", "rawSql", "timeColumn",
    "timeColumnType", "metricColumn", "select", "where", "group"], []⟩
  set origin field t node :=
    match field with
    | "dataset" => do return { t with dataset := ← node.readOption Node.readString }
    | "table" => do return { t with table := ← node.readOption Node.readString }
    | "rawQuery" => do return { t with rawQuery := ← node.readOption Node.readBool }
    | "rawSql" => do return { t with rawSql := ← node.readOption Node.readString }
    | "timeColumn" => do return { t with timeColumn := ← node.readOption Node.readString }
    | "timeColumnType" => do return { t with timeColumnType := ← node.readOption Node.readString }
    | "metricColumn" => do return { t with metricColumn := ← node.readOption Node.readString }
    | "select" => do
      return { t with select := ← node.readOption (Node.readList origin ColumnSpec.read) }
    | "where" => do
      return { t with conditions := ← node.readOption (Node.readList origin Condition.read) }
    | "group" => do
      return { t with group := ← node.readOption (Node.readList origin Grouping.read) }
    | _ => .ok t

def Target.read : Reader Target := fun origin node => reader.read origin empty node

def Descriptor.read : Reader Descriptor := fun origin node => do
  return (← Target.read origin node).descriptor

def Descriptor.ofText (text : String) : Except ReadFault Descriptor :=
  Json.readText Descriptor.read text

def Descriptor.ofJson (value : Json.Value) : Except ReadFault Descriptor :=
  Json.readFrom Descriptor.read value

end SeriesQuery.Query
