import SeriesQuery.Proofs.Cache.Step
import SeriesQuery.Proofs.Compile.Events

/-!
# What a rendering through the cache reports

A text that is found is reported as a hit and nothing else happens. A text that is not found is
rendered as it would be without a cache, with the same events.
-/

namespace SeriesQuery.StatementCache

open Compile (CompileFault Options renderTraced valueText)
open Compile.Statement (closingRecords openingRecords valueRecord)
open Query (ColumnSpec Descriptor)

/-- Whether the cache has a text under a key. -/
def Holds (c : StatementCache) (key : String) : Prop :=
  ∃ recent, c.recent = some recent ∧ key ∈ recent.keys

variable {c c' : StatementCache} {d : Descriptor} {o : Options}
  {result : Except CompileFault String} {events : List Event}

theorem not_holds_new (capacity : Nat) (key : String) : ¬ (new capacity).Holds key := by
  rintro ⟨recent, hrecent, hkey⟩
  unfold new at hrecent
  split at hrecent
  next => cases hrecent
  next =>
    cases hrecent
    exact List.not_mem_nil hkey

theorem Renders.events_of_holds (h : Renders d o c result events c')
    (hc : c.Holds (Cache.key d o)) : events = [.cacheHit (Cache.key d o)] := by
  obtain ⟨held, hrecent, hkey⟩ := hc
  cases h with
  | disabled => cases hrecent
  | hit => rfl
  | failed hmiss | stored hmiss =>
    cases hrecent
    exact absurd hkey (Cache.Recent.touch?_eq_none_iff.1 hmiss)

theorem Renders.of_not_holds (h : Renders d o c result events c')
    (hc : ¬ c.Holds (Cache.key d o)) :
    result = (renderTraced d o).value ∧ events = (renderTraced d o).events := by
  cases h with
  | disabled => exact ⟨rfl, rfl⟩
  | hit htouch =>
    have hentry := (Cache.Recent.touch?_eq_some htouch).1
    exact absurd ⟨_, rfl, List.mem_map_of_mem hentry⟩ hc
  | failed _ hrender | stored _ hrender => exact ⟨hrender.symm, rfl⟩

theorem renderTraced_of_raw (h : d.rawQuery = true) :
    renderTraced d o = ⟨.ok (d.rawSql.getD ""), [.rawQuery]⟩ := by
  rw [renderTraced, if_pos h]
  rfl

theorem renderTraced_of_not_raw (h : d.rawQuery = false) :
    renderTraced d o = Compile.compileTraced d o := by
  rw [renderTraced, if_neg (Bool.eq_false_iff.1 h)]

/-- The events of a rendering tell what it did: whether its text was in the cache, whether the query
was raw, and otherwise how far compiling came. -/
theorem render_reports (c : StatementCache) (d : Descriptor) (o : Options) :
    (c.Holds (Cache.key d o) → (c.render d o).events.map Event.record =
      [.event "compile cache hit" [("key", .text (Cache.key d o))]]) ∧
    (¬ c.Holds (Cache.key d o) → d.rawQuery = true → (c.render d o).events.map Event.record =
      [.event "raw query, skipping compilation" []]) ∧
    (¬ c.Holds (Cache.key d o) → d.rawQuery = false →
      (∀ before spec after, d.select = before ++ spec :: after →
        (∀ x ∈ before, ∃ text, valueText d o x = .ok text) →
        (∀ text, valueText d o spec ≠ .ok text) →
        (c.render d o).events.map Event.record = openingRecords d ++ before.map valueRecord) ∧
      ((∀ x ∈ d.select, ∃ text, valueText d o x = .ok text) →
        ∃ sql, (c.render d o).value.1 = .ok sql ∧ (c.render d o).events.map Event.record =
          openingRecords d ++ d.select.map valueRecord ++ closingRecords d o sql)) := by
  have hstep := c.renders d o
  refine ⟨fun hc => ?_, fun hc hraw => ?_, fun hc hraw => ?_⟩
  · rw [hstep.events_of_holds hc]
    rfl
  · rw [(hstep.of_not_holds hc).2, renderTraced_of_raw hraw]
    rfl
  · obtain ⟨hresult, hevents⟩ := hstep.of_not_holds hc
    rw [hresult, hevents, renderTraced_of_not_raw hraw]
    exact ⟨fun _ _ _ => Compile.records_of_first_invalid, Compile.records_of_all_valid⟩

/-- A raw query without a cache, a query that fails at its second value column, one that is complete
but has no dataset, and the latter again, from the cache. -/
theorem render_reports_of_failure_and_hit :
    let raw : Descriptor := { Descriptor.new "a" with rawQuery := true }
    let failing : Descriptor := { Descriptor.new "a" with select := [[.column "v"], [], []] }
    let complete : Descriptor := { Descriptor.new "a" with
      select := [[.column "v"], [.label "é", .column "w"]], conditions := [.engine .time] }
    let filled := ((new 1).render complete .default).value.2
    (¬ (new 0).Holds (Cache.key raw .default) ∧
      ((new 0).render raw .default).events.map Event.record =
        [.event "raw query, skipping compilation" []]) ∧
    (¬ (new 1).Holds (Cache.key failing .default) ∧
      ((new 1).render failing .default).events.map Event.record =
        openingRecords failing ++ [[.column "v"]].map valueRecord) ∧
    (¬ (new 1).Holds (Cache.key complete .default) ∧
      ∃ sql, ((new 1).render complete .default).value.1 = .ok sql ∧
        ((new 1).render complete .default).events.map Event.record =
          openingRecords complete ++ complete.select.map valueRecord ++
            closingRecords complete .default sql) ∧
    filled.Holds (Cache.key complete .default) ∧
      (filled.render complete .default).events.map Event.record =
        [.event "compile cache hit" [("key", .text (Cache.key complete .default))]] := by
  intro raw failing complete filled
  have hcolumn (d : Descriptor) : ∃ text, valueText d .default [.column "v"] = .ok text := ⟨_, rfl⟩
  have hempty : ∀ text, valueText failing .default [] ≠ .ok text := nofun
  have hall : ∀ x ∈ complete.select, ∃ text, valueText complete .default x = .ok text := by
    intro x hx
    rcases List.mem_pair.1 hx with rfl | rfl
    · exact hcolumn complete
    · exact ⟨_, rfl⟩
  have hheld : filled.Holds (Cache.key complete .default) := ⟨_, rfl, List.mem_cons_self⟩
  have hraw := (render_reports (new 0) raw .default).2.1 (not_holds_new 0 _) rfl
  have hfailing := (render_reports (new 1) failing .default).2.2 (not_holds_new 1 _) rfl
  have hcomplete := (render_reports (new 1) complete .default).2.2 (not_holds_new 1 _) rfl
  exact ⟨⟨not_holds_new 0 _, hraw⟩, ⟨not_holds_new 1 _, hfailing.1 [[.column "v"]] [] [[]] rfl
      (List.forall_mem_singleton.2 (hcolumn failing)) hempty⟩,
    ⟨not_holds_new 1 _, hcomplete.2 hall⟩, hheld, (render_reports filled complete .default).1 hheld⟩

end SeriesQuery.StatementCache
