import SeriesQuery.Proofs.Cache.Recency

/-!
# The counters of a cache

Each request is counted as a hit or as a miss, and each miss either fails, adds an entry or replaces
one. So the counters can be checked against the size of the cache after every request, and none of
them is ever greater than the number of requests.
-/

namespace SeriesQuery

open Compile (CompileFault Options)
open Query (Descriptor)

namespace Cache.Recent

variable {κ ν : Type} [DecidableEq κ] {r r' : Recent κ ν} {key : κ} {value : ν}

theorem size_touch? (hkeys : r.keys.Nodup) (h : r.touch? key = some (value, r')) :
    r'.size = r.size := by
  obtain ⟨hmem, rfl⟩ := touch?_eq_some h
  have hkey : key ∈ r.keys := List.mem_map_of_mem hmem
  have hperm : (key :: r.keys.filter (· ≠ key)).Perm r.keys := by
    rw [filter_ne_eq_erase hkeys]
    exact (List.perm_cons_erase hkey).symm
  rw [← length_keys, ← length_keys, ← hperm.length_eq, keys, List.map_cons, map_fst_without]
  rfl

/-- To put in a key that is not there displaces nothing but the last entry. -/
theorem push_of_missed (h : key ∉ r.keys) :
    r.push key value = ({ r with entries := ((key, value) :: r.entries).take r.capacity },
      ((key, value) :: r.entries)[r.capacity]?) := by
  have hfind : (r.entries.find? fun entry => entry.1 = key) = none :=
    Option.map_eq_none_iff.1 (touch?_eq_none_iff.2 h)
  have hwithout : without key r.entries = r.entries :=
    List.filter_eq_self.2 fun entry hentry =>
      decide_eq_true fun hkey => h (hkey ▸ List.mem_map_of_mem hentry)
  rw [push, hfind, hwithout, Option.none_or]

theorem size_push_of_missed (h : key ∉ r.keys) :
    (r.push key value).1.size = min r.capacity (r.size + 1) := by
  rw [push_of_missed h]
  exact List.length_take

theorem isSome_displaced_iff (h : key ∉ r.keys) :
    (r.push key value).2.isSome ↔ r.capacity ≤ r.size := by
  rw [push_of_missed h, isSome_getElem?]
  exact Nat.lt_succ_iff

end Cache.Recent

namespace StatementCache

def failures (results : List (Except CompileFault String)) : Nat :=
  results.countP fun result => !result.isOk

/-- Whether the size and the counters of a cache fit to the results that it gave so far. -/
structure Tallies (capacity : Nat) (results : List (Except CompileFault String))
    (c : StatementCache) : Prop where
  calls : c.counters.hits + c.counters.misses = results.length
  misses : c.counters.misses = c.size + c.counters.evictions + failures results
  evictions : 0 < c.counters.evictions → c.size = capacity

variable {capacity : Nat} {c c' : StatementCache} {d : Descriptor} {o : Options}
  {past : List (String × String)} {results : List (Except CompileFault String)}
  {result : Except CompileFault String} {events : List Event}

theorem failures_append_ok (results : List (Except CompileFault String)) (sql : String) :
    failures (results ++ [.ok sql]) = failures results := by
  rw [failures, List.countP_append]
  rfl

theorem failures_append_error (results : List (Except CompileFault String))
    (fault : CompileFault) : failures (results ++ [.error fault]) = failures results + 1 := by
  rw [failures, List.countP_append]
  rfl

theorem tallies_some_iff {recent : Cache.Recent String String} {hits misses evictions : Nat} :
    Tallies capacity results ⟨some recent, ⟨hits, misses, evictions⟩⟩ ↔
      hits + misses = results.length ∧ misses = recent.size + evictions + failures results ∧
        (0 < evictions → recent.size = capacity) :=
  ⟨fun h => ⟨h.calls, h.misses, h.evictions⟩, fun h => ⟨h.1, h.2.1, h.2.2⟩⟩

theorem tallies_new (hcapacity : 0 < capacity) : (new capacity).Tallies capacity [] := by
  rw [new, if_neg (Nat.ne_of_gt hcapacity)]
  exact tallies_some_iff.2 ⟨rfl, rfl, fun h => absurd h (Nat.lt_irrefl 0)⟩

theorem Reflects.size_le (h : c.Reflects capacity past) : c.size ≤ capacity := by
  obtain ⟨recent, hrecent, rfl, hreflects⟩ := h
  rw [size, hrecent]
  exact hreflects.size_le

/-! ### One step -/

theorem Renders.tallies (h : Renders d o c result events c') (hc : c.Reflects capacity past)
    (ht : c.Tallies capacity results) : c'.Tallies capacity (results ++ [result]) := by
  obtain ⟨recent, hrecent, rfl, hreflects⟩ := hc
  have hlength : (results ++ [result]).length = results.length + 1 := List.length_append
  cases h with
  | disabled counters => cases hrecent
  | @hit _ after counters sql htouch =>
    cases hrecent
    obtain ⟨hcalls, hmisses, hevictions⟩ := tallies_some_iff.1 ht
    have hsize : after.size = recent.size :=
      Cache.Recent.size_touch? hreflects.keys_nodup htouch
    refine tallies_some_iff.2 ⟨?_, ?_, fun hpos => hsize.trans (hevictions hpos)⟩
    · omega
    · rw [failures_append_ok, hsize]
      exact hmisses
  | failed hmiss hrender =>
    cases hrecent
    obtain ⟨hcalls, hmisses, hevictions⟩ := tallies_some_iff.1 ht
    refine tallies_some_iff.2 ⟨?_, ?_, hevictions⟩
    · omega
    · rw [failures_append_error]
      omega
  | @stored _ after counters sql displaced hmiss hrender hpush =>
    cases hrecent
    obtain ⟨hcalls, hmisses, hevictions⟩ := tallies_some_iff.1 ht
    -- The key is not in the cache, so that only the last entry of a full one can come back.
    have hmissed := Cache.Recent.touch?_eq_none_iff.1 hmiss
    have hsize : after.size = min recent.capacity (recent.size + 1) := by
      rw [← Cache.Recent.size_push_of_missed hmissed, hpush]
    have hfull : displaced.isSome ↔ recent.capacity ≤ recent.size := by
      rw [← Cache.Recent.isSome_displaced_iff hmissed, hpush]
    have hle : recent.size ≤ recent.capacity := hreflects.size_le
    cases displaced with
    | none =>
      have hroom : ¬recent.capacity ≤ recent.size := fun h => nomatch hfull.2 h
      refine tallies_some_iff.2 ⟨by omega, ?_, fun hpos => ?_⟩
      · rw [failures_append_ok, Option.isSome_none, Bool.toNat_false]
        omega
      · exact absurd (Nat.le_of_eq (hevictions hpos).symm) hroom
    | some entry =>
      have hnone : recent.capacity ≤ recent.size := hfull.1 rfl
      have hheld : after.size = recent.capacity := by omega
      refine tallies_some_iff.2 ⟨by omega, ?_, fun _ => hheld⟩
      rw [failures_append_ok, Option.isSome_some, Bool.toNat_true]
      omega

/-! ### Whole runs -/

theorem run_tallies (hc : c.Reflects capacity past) (ht : c.Tallies capacity results)
    (requests : List Request) :
    (c.run requests).2.Tallies capacity (results ++ (c.run requests).1) := by
  -- What was rendered before the run stays general, as each request adds to it.
  induction requests generalizing c past results with
  | nil =>
    change c.Tallies capacity (results ++ [])
    rwa [List.append_nil]
  | cons request requests ih =>
    obtain ⟨d, o⟩ := request
    have hstep := c.renders d o
    have hrest := ih (hstep.reflects hc) (hstep.tallies hc ht)
    rwa [List.append_assoc] at hrest

theorem length_run (c : StatementCache) (requests : List Request) :
    (c.run requests).1.length = requests.length := by
  induction requests generalizing c with
  | nil => rfl
  | cons request requests ih => rw [run_cons, List.length_cons, ih, List.length_cons]

theorem Renders.of_disabled (h : Renders d o c result events c') (hc : c.recent = none) :
    result = Compile.render d o ∧ c' = c := by
  cases h with
  | disabled counters => exact ⟨rfl, rfl⟩
  | hit htouch => cases hc
  | failed hmiss hrender => cases hc
  | stored hmiss hrender hpush => cases hc

theorem run_of_disabled (hc : c.recent = none) (requests : List Request) :
    c.run requests = (requests.map Request.render, c) := by
  induction requests with
  | nil => rfl
  | cons request requests ih =>
    obtain ⟨hresult, hnext⟩ := (c.renders request.1 request.2).of_disabled hc
    rw [run_cons, hnext, ih, hresult]
    rfl

/-- After any run, and so after each request of one, every request was a hit or a miss, and every
miss failed, is still held or had to go. Entries go only from a cache that is full. A cache of
capacity zero holds and counts nothing and still gives the results. -/
theorem run_balances_counters (capacity : Nat) (requests : List Request) :
    let results := ((new capacity).run requests).1
    let c := ((new capacity).run requests).2
    (0 < capacity →
      c.counters.hits + c.counters.misses = requests.length ∧
      c.counters.misses = c.size + c.counters.evictions + failures results ∧
      c.size ≤ capacity ∧ (0 < c.counters.evictions → c.size = capacity)) ∧
    (capacity = 0 →
      c.size = 0 ∧ c.counters = ⟨0, 0, 0⟩ ∧ results = requests.map Request.render) := by
  intro results c
  constructor
  · intro hcapacity
    have hreflects := run_reflects (reflects_new hcapacity) requests
    have htallies := run_tallies (reflects_new hcapacity) (tallies_new hcapacity) requests
    rw [List.nil_append] at htallies
    refine ⟨?_, htallies.misses, hreflects.size_le, htallies.evictions⟩
    rw [htallies.calls, length_run]
  · rintro rfl
    have hrun := run_of_disabled (c := new 0) rfl requests
    have hc : c = new 0 := congrArg Prod.snd hrun
    rw [hc]
    exact ⟨rfl, rfl, congrArg Prod.fst hrun⟩

theorem run_of_two_keys {bad a b : Descriptor} {o : Options} {fault : CompileFault}
    {sql sql' : String} (hbad : Compile.render bad o = .error fault)
    (ha : Compile.render a o = .ok sql) (hb : Compile.render b o = .ok sql')
    (hkey : Cache.key a o ≠ Cache.key b o) :
    ((new 1).run [(bad, o), (a, o), (a, o), (b, o)]).2 =
      ⟨some ⟨1, [(Cache.key b o, sql')]⟩, ⟨1, 3, 1⟩⟩ := by
  unfold Compile.render at hbad ha hb
  simp [-bind_pure_comp, run, render, fill, new, Cache.Recent.touch?, Cache.Recent.push,
    Cache.Recent.without, Cache.Recent.empty, hkey, hbad, ha, hb]

/-- A run with a failure, a hit and an entry that has to go, and the same run without a cache. -/
theorem run_balances_counters_of_two_tables :
    let requests : List Request := [({ Descriptor.new "a" with select := [[]] }, .default),
      (.new "a", .default), (.new "a", .default), (.new "b", .default)]
    0 < 1 ∧ requests.length = 4 ∧
      (∃ results c, (new 1).run requests = (results, c) ∧ c.size = 1 ∧
        c.counters = ⟨1, 3, 1⟩ ∧ failures results = 1) ∧
      ((new 0).run requests).2.counters = ⟨0, 0, 0⟩ := by
  intro requests
  have hkey : Cache.key (.new "a") .default ≠ Cache.key (.new "b") .default := fun h =>
    hash_ne_of_two_tables (Cache.hash_eq_of_key_eq h)
  obtain ⟨fault, hbad⟩ : ∃ fault,
      Compile.render { Descriptor.new "a" with select := [[]] } .default = .error fault := ⟨_, rfl⟩
  obtain ⟨sql, ha⟩ : ∃ sql, Compile.render (.new "a") .default = .ok sql := ⟨_, rfl⟩
  obtain ⟨sql', hb⟩ : ∃ sql, Compile.render (.new "b") .default = .ok sql := ⟨_, rfl⟩
  have hheld := run_of_two_keys hbad ha hb hkey
  have hmisses := ((run_balances_counters 1 requests).1 (by decide)).2.1
  refine ⟨by decide, rfl, ?_, ((run_balances_counters 0 requests).2 rfl).2.1⟩
  cases hrun : (new 1).run requests with
  | mk results c =>
    rw [hrun] at hheld hmisses
    obtain rfl : c = _ := hheld
    refine ⟨results, _, rfl, rfl, rfl, ?_⟩
    change 3 = 1 + 1 + failures results at hmisses
    omega

end StatementCache

end SeriesQuery
