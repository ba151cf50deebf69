import SeriesQuery.Compile.Options
import SeriesQuery.Query.Descriptor

/-!
# What a value column sees of its query

The time column or its placeholder, the metric column in effect, and the placeholder for a row
count.
-/

namespace SeriesQuery.Compile

structure Scope where
  time : String
  metric : Option String
  rowsPlaceholder : String
  deriving DecidableEq, Repr

def timeName (d : Query.Descriptor) (o : Options) : String := d.timeColumn.getD o.timePlaceholder

def Scope.of (d : Query.Descriptor) (o : Options) : Scope :=
  ⟨timeName d o, d.metric, o.rowsPlaceholder⟩

end SeriesQuery.Compile
