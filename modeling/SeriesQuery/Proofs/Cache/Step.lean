import SeriesQuery.Cache.Basic

/-!
# One rendering through the cache

`Renders` lists what a rendering may do to a cache, with its result and its events. It is derived
from the definition once, and everything about runs of a cache is derived from it.
-/

namespace SeriesQuery

open Compile (CompileFault Options)
open Query (Descriptor)

namespace Cache.Recent

variable {κ ν : Type} [DecidableEq κ] {r r' : Recent κ ν} {key : κ} {value : ν}

theorem touch?_eq_some (h : r.touch? key = some (value, r')) :
    (key, value) ∈ r.entries ∧
      r' = { r with entries := (key, value) :: without key r.entries } := by
  unfold touch? at h
  obtain ⟨⟨k, v⟩, hfind, heq⟩ := Option.map_eq_some_iff.1 h
  have hkey : k = key := by simpa using List.find?_some hfind
  subst hkey
  obtain ⟨rfl, rfl⟩ := Prod.mk.inj heq
  exact ⟨List.mem_of_find?_eq_some hfind, rfl⟩

theorem touch?_eq_none_iff : r.touch? key = none ↔ key ∉ r.keys := by
  unfold touch? keys
  rw [Option.map_eq_none_iff, List.find?_eq_none]
  simp only [decide_eq_true_eq, List.mem_map, not_exists, not_and]

theorem without_subset (key : κ) (entries : List (κ × ν)) : without key entries ⊆ entries :=
  List.filter_sublist.subset

theorem entries_push_subset (r : Recent κ ν) (key : κ) (value : ν) :
    (r.push key value).1.entries ⊆ (key, value) :: r.entries := by
  intro entry hentry
  have hmem := List.mem_of_mem_take hentry
  rcases List.mem_cons.1 hmem with rfl | hrest
  · exact List.mem_cons_self
  · exact List.mem_cons_of_mem _ (without_subset key r.entries hrest)

end Cache.Recent

namespace StatementCache

/-- A rendering with its result and its events, and the cache after it. -/
inductive Renders (d : Descriptor) (o : Options) :
    StatementCache → Except CompileFault String → List Event → StatementCache → Prop
  | disabled (counters : CacheCounters) :
    Renders d o ⟨none, counters⟩ (Compile.render d o) (Compile.renderTraced d o).events
      ⟨none, counters⟩
  | hit {recent recent' : Cache.Recent String String} {counters : CacheCounters} {sql : String}
      (htouch : recent.touch? (Cache.key d o) = some (sql, recent')) :
    Renders d o ⟨some recent, counters⟩ (.ok sql) [.cacheHit (Cache.key d o)]
      ⟨some recent', { counters with hits := counters.hits + 1 }⟩
  | failed {recent : Cache.Recent String String} {counters : CacheCounters} {fault : CompileFault}
      (hmiss : recent.touch? (Cache.key d o) = none)
      (hrender : Compile.render d o = .error fault) :
    Renders d o ⟨some recent, counters⟩ (.error fault) (Compile.renderTraced d o).events
      ⟨some recent, { counters with misses := counters.misses + 1 }⟩
  | stored {recent recent' : Cache.Recent String String} {counters : CacheCounters} {sql : String}
      {displaced : Option (String × String)} (hmiss : recent.touch? (Cache.key d o) = none)
      (hrender : Compile.render d o = .ok sql)
      (hpush : recent.push (Cache.key d o) sql = (recent', displaced)) :
    Renders d o ⟨some recent, counters⟩ (.ok sql) (Compile.renderTraced d o).events
      ⟨some recent', ⟨counters.hits, counters.misses + 1,
        counters.evictions + displaced.isSome.toNat⟩⟩

variable {recent : Cache.Recent String String} {counters : CacheCounters} {key : String}
  {d : Descriptor} {o : Options}

theorem fill_of_error {fault : CompileFault} (h : Compile.render d o = .error fault) :
    fill recent counters key d o =
      ⟨(.error fault, ⟨some recent, { counters with misses := counters.misses + 1 }⟩),
        (Compile.renderTraced d o).events⟩ := by
  have hvalue : (Compile.renderTraced d o).value = .error fault := h
  unfold fill
  apply Traced.ext
  · simp only [Traced.value_bind, hvalue]
    rfl
  · simp only [Traced.events_bind, hvalue]
    exact List.append_nil _

theorem fill_of_ok {sql : String} (h : Compile.render d o = .ok sql) :
    fill recent counters key d o =
      ⟨(.ok sql, ⟨some (recent.push key sql).1, ⟨counters.hits, counters.misses + 1,
        counters.evictions + (recent.push key sql).2.isSome.toNat⟩⟩),
        (Compile.renderTraced d o).events⟩ := by
  have hvalue : (Compile.renderTraced d o).value = .ok sql := h
  unfold fill
  apply Traced.ext
  · simp only [Traced.value_bind, hvalue]
    cases (recent.push key sql).2 <;> rfl
  · simp only [Traced.events_bind, hvalue]
    exact List.append_nil _

theorem renders (c : StatementCache) (d : Descriptor) (o : Options) :
    Renders d o c (c.render d o).value.1 (c.render d o).events (c.render d o).value.2 := by
  obtain ⟨recent, counters⟩ := c
  cases recent with
  | none =>
    have hevents : (render ⟨none, counters⟩ d o).events = (Compile.renderTraced d o).events :=
      List.append_nil _
    rw [hevents]
    exact .disabled counters
  | some recent =>
    cases htouch : recent.touch? (Cache.key d o) with
    | some found =>
      obtain ⟨sql, recent'⟩ := found
      have hrender : render ⟨some recent, counters⟩ d o =
          ⟨(.ok sql, ⟨some recent', { counters with hits := counters.hits + 1 }⟩),
            [.cacheHit (Cache.key d o)]⟩ := by
        simp only [render, htouch]
        rfl
      rw [hrender]
      exact .hit htouch
    | none =>
      have hfill : render ⟨some recent, counters⟩ d o =
          fill recent counters (Cache.key d o) d o := by
        simp only [render, htouch]
      rw [hfill]
      cases hresult : Compile.render d o with
      | error fault =>
        rw [fill_of_error hresult]
        exact .failed htouch hresult
      | ok sql =>
        rw [fill_of_ok hresult]
        exact .stored htouch hresult rfl

end StatementCache

end SeriesQuery
