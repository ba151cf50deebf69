import SeriesQuery.Json.Reading
import SeriesQuery.Json.Text

/-!
# Placeholders

What a statement holds in the place of something that the query leaves unset.
-/

namespace SeriesQuery.Compile

structure Options where
  timePlaceholder : String
  datasetPlaceholder : String
  rowsPlaceholder : String
  deriving DecidableEq, Repr

namespace Options

def default : Options := ⟨"-- time --", "undefined", "undefined"⟩

def toJson (o : Options) : Json.Value :=
  .object [
    ("time_placeholder", .string o.timePlaceholder),
    ("dataset_placeholder", .string o.datasetPlaceholder),
    ("rows_placeholder", .string o.rowsPlaceholder)]

open Json in
def reader {ε : Type} : RecordReader ε Options where
  shape := ⟨"CompileOptions", ["time_placeholder", "dataset_placeholder", "rows_placeholder"], []⟩
  set _ field o node :=
    match field with
    | "time_placeholder" => do return { o with timePlaceholder := ← node.readString }
    | "dataset_placeholder" => do return { o with datasetPlaceholder := ← node.readString }
    | "rows_placeholder" => do return { o with rowsPlaceholder := ← node.readString }
    | _ => .ok o

/-- Reads placeholders; a missing one has its default. -/
def read {ε : Type} (origin : Json.Origin) (node : Json.Node) : Except (Json.Fault ε) Options :=
  reader.read origin default node

end Options

end SeriesQuery.Compile
