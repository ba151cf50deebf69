import SeriesQuery.Compile.Statement

/-!
# The text to run

A raw query is run as it stands, empty where it has no text; any other query is compiled.
-/

namespace SeriesQuery.Compile

open Query (Descriptor)

def renderTraced (d : Descriptor) (o : Options) : Traced (Except CompileFault String) :=
  if d.rawQuery then do
    Traced.emit .rawQuery
    return .ok (d.rawSql.getD "")
  else compileTraced d o

def render (d : Descriptor) (o : Options) : Except CompileFault String := (renderTraced d o).value

end SeriesQuery.Compile
