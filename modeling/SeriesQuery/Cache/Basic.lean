import SeriesQuery.Cache.Key
import SeriesQuery.Cache.Recent
import SeriesQuery.Compile.Render

/-!
# A cache of statements

Rendered texts are kept under the key of their compilation. Failures are not kept. A cache of
capacity zero keeps nothing and counts nothing.
-/

namespace SeriesQuery

open Query (Descriptor)
open Compile (Options CompileFault)

structure CacheCounters where
  hits : Nat
  misses : Nat
  evictions : Nat
  deriving DecidableEq, Repr

structure StatementCache where
  /-- Absent when caching is disabled. -/
  recent : Option (Cache.Recent String String)
  counters : CacheCounters
  deriving DecidableEq, Repr

namespace StatementCache

def defaultCapacity : Nat := 256

def new (capacity : Nat) : StatementCache :=
  ⟨if capacity = 0 then none else some (.empty capacity), ⟨0, 0, 0⟩⟩

def size (c : StatementCache) : Nat :=
  match c.recent with
  | some recent => recent.size
  | none => 0

def isEmpty (c : StatementCache) : Bool := c.size == 0

/-- The text of a compilation that was missed, kept if there is one. -/
def fill (recent : Cache.Recent String String) (counters : CacheCounters) (key : String)
    (d : Descriptor) (o : Options) : Traced (Except CompileFault String × StatementCache) := do
  let counters := { counters with misses := counters.misses + 1 }
  match ← Compile.renderTraced d o with
  | .error fault => return (.error fault, ⟨some recent, counters⟩)
  | .ok sql =>
    let (recent, displaced) := recent.push key sql
    -- The key was just missed, so that what is displaced is another entry.
    let counters :=
      if displaced.isSome then { counters with evictions := counters.evictions + 1 } else counters
    return (.ok sql, ⟨some recent, counters⟩)

/-- The text to run for a query, taken from the cache where it is there. -/
def render (c : StatementCache) (d : Descriptor) (o : Options) :
    Traced (Except CompileFault String × StatementCache) :=
  match c.recent with
  | none => do return (← Compile.renderTraced d o, c)
  | some recent =>
    let key := Cache.key d o
    match recent.touch? key with
    | some (sql, recent) => do
      Traced.emit (.cacheHit key)
      return (.ok sql, ⟨some recent, { c.counters with hits := c.counters.hits + 1 }⟩)
    | none => fill recent c.counters key d o

end StatementCache

end SeriesQuery
