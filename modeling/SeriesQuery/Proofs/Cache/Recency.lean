import Mathlib.Data.List.Dedup
import SeriesQuery.Proofs.Cache.Run

/-!
# The least recently used entry goes first

What a cache holds is read off from the log of the requests that got a text: the keys of the log,
the one used last in front and each only once, as far as the capacity goes. A hit enters the log
like a text that was just put in, and a failure does not enter it at all.
-/

namespace SeriesQuery

open Compile (CompileFault Options)
open Query (Descriptor)

namespace Cache

variable {κ ν : Type} [DecidableEq κ]

/-- The keys of a log, each once, the one that was used last in front. -/
def recency (log : List (κ × ν)) : List κ := (log.map Prod.fst).dedup.reverse

theorem dedup_append_singleton (keys : List κ) (key : κ) :
    (keys ++ [key]).dedup = keys.dedup.filter (· ≠ key) ++ [key] := by
  induction keys with
  | nil => rfl
  | cons k keys ih =>
    rw [List.cons_append, List.dedup_cons, List.dedup_cons, ih]
    by_cases hk : k = key
    · subst hk
      by_cases hmem : k ∈ keys <;> simp [hmem]
    · by_cases hmem : k ∈ keys <;> simp [hmem, hk]

theorem recency_append_singleton (log : List (κ × ν)) (entry : κ × ν) :
    recency (log ++ [entry]) = entry.1 :: (recency log).filter (· ≠ entry.1) := by
  unfold recency
  rw [List.map_append, List.map_singleton, dedup_append_singleton, List.reverse_append,
    List.reverse_singleton, List.singleton_append, List.filter_reverse]

theorem recency_nodup (log : List (κ × ν)) : (recency log).Nodup :=
  List.nodup_reverse.2 (List.nodup_dedup _)

theorem filter_ne_eq_erase {keys : List κ} (hkeys : keys.Nodup) (key : κ) :
    keys.filter (· ≠ key) = keys.erase key := by
  rw [hkeys.erase_eq_filter]
  apply List.filter_congr
  intro k _
  by_cases hk : k = key <;> simp [hk]

/-- Of distinct keys one at most is a given one. -/
theorem length_le_length_filter_ne {keys : List κ} (hkeys : keys.Nodup) (key : κ) :
    keys.length ≤ (keys.filter (· ≠ key)).length + 1 := by
  rw [filter_ne_eq_erase hkeys, List.length_erase]
  split <;> omega

/-- To move a key to the front of the first few it is enough to look at these few. -/
theorem take_cons_filter_take {keys : List κ} (hkeys : keys.Nodup) (n : Nat) (key : κ) :
    (key :: (keys.take n).filter (· ≠ key)).take n = (key :: keys.filter (· ≠ key)).take n := by
  cases n with
  | zero => rfl
  | succ n =>
    have hsplit : keys.filter (· ≠ key) =
        (keys.take (n + 1)).filter (· ≠ key) ++ (keys.drop (n + 1)).filter (· ≠ key) := by
      rw [← List.filter_append, List.take_append_drop]
    rw [List.take_succ_cons, List.take_succ_cons, hsplit]
    by_cases hlen : n + 1 ≤ keys.length
    -- At most one of the first `n + 1` keys is taken out, so `n` of them are left in any case.
    · have hfirst : n ≤ ((keys.take (n + 1)).filter (· ≠ key)).length := by
        have hle := length_le_length_filter_ne (hkeys.sublist (List.take_sublist (n + 1) keys)) key
        rw [List.length_take_of_le hlen] at hle
        omega
      rw [List.take_append_of_le_length hfirst]
    · have hdrop : keys.drop (n + 1) = [] := List.drop_eq_nil_of_le (by omega)
      rw [hdrop, List.filter_nil, List.append_nil]

namespace Recent

variable {r r' : Recent κ ν} {log : List (κ × ν)} {key : κ} {value : ν}

/-- Whether the entries are those of a log, the latest in front, as far as the capacity goes, each
with the value that the log gave it last. -/
structure Reflects (r : Recent κ ν) (log : List (κ × ν)) : Prop where
  keys : r.keys = (recency log).take r.capacity
  values : ∀ entry ∈ r.entries, log.reverse.lookup entry.1 = some entry.2

theorem reflects_empty (capacity : Nat) : (empty capacity : Recent κ ν).Reflects [] where
  keys := by simp [keys, empty, recency]
  values entry hentry := (List.not_mem_nil hentry).elim

omit [DecidableEq κ] in
theorem length_keys (r : Recent κ ν) : r.keys.length = r.size := List.length_map _

theorem Reflects.size_le (h : r.Reflects log) : r.size ≤ r.capacity := by
  rw [← length_keys, h.keys]
  exact List.length_take_le _ _

theorem Reflects.keys_nodup (h : r.Reflects log) : r.keys.Nodup := by
  rw [h.keys]
  exact (recency_nodup log).sublist (List.take_sublist _ _)

theorem map_fst_without (key : κ) (entries : List (κ × ν)) :
    (without key entries).map Prod.fst = (entries.map Prod.fst).filter (· ≠ key) := by
  rw [without, List.filter_map]
  rfl

theorem Reflects.push (h : r.Reflects log) (key : κ) (value : ν) :
    (r.push key value).1.Reflects (log ++ [(key, value)]) where
  keys := by
    change (((key, value) :: without key r.entries).take r.capacity).map Prod.fst = _
    change _ = (recency (log ++ [(key, value)])).take r.capacity
    rw [List.map_take, List.map_cons, map_fst_without, recency_append_singleton,
      ← take_cons_filter_take (recency_nodup log), ← h.keys]
    rfl
  values entry hentry := by
    rw [List.reverse_append, List.reverse_singleton, List.singleton_append, List.lookup_cons]
    rcases List.mem_cons.1 (List.mem_of_mem_take hentry) with rfl | hrest
    · simp
    · obtain ⟨hmem, hne⟩ := List.mem_filter.1 hrest
      have hne' : (entry.1 == key) = false := by simpa using hne
      rw [hne']
      exact h.values entry hmem

/-- To look a key up is to put its value in once more: nothing has to go. -/
theorem eq_push_of_touch? (hsize : r.size ≤ r.capacity)
    (h : r.touch? key = some (value, r')) : r' = (r.push key value).1 := by
  obtain ⟨hmem, rfl⟩ := touch?_eq_some h
  have hlt : (without key r.entries).length < r.entries.length :=
    List.length_filter_lt_length_iff_exists.2 ⟨(key, value), hmem, by simp⟩
  have hlen : ((key, value) :: without key r.entries).length ≤ r.capacity :=
    Nat.le_trans hlt hsize
  simp only [Recent.push, List.take_of_length_le hlen]

theorem Reflects.touch (h : r.Reflects log) (htouch : r.touch? key = some (value, r')) :
    r'.Reflects (log ++ [(key, value)]) := by
  rw [eq_push_of_touch? h.size_le htouch]
  exact h.push key value

end Recent

end Cache

namespace StatementCache

/-- The key and the text of a request that got one. -/
def served (request : Request) (result : Except CompileFault String) : Option (String × String) :=
  result.toOption.map fun sql => (request.key, sql)

/-- The keys and the texts of the requests of a run that got one, in order. -/
def log (c : StatementCache) (requests : List Request) : List (String × String) :=
  (requests.zip (c.run requests).1).filterMap fun (request, result) => served request result

/-- Whether a cache with a given capacity holds what a log says. -/
def Reflects (capacity : Nat) (log : List (String × String)) (c : StatementCache) : Prop :=
  ∃ recent, c.recent = some recent ∧ recent.capacity = capacity ∧ recent.Reflects log

variable {capacity : Nat} {c c' : StatementCache} {d : Descriptor} {o : Options}
  {past : List (String × String)} {result : Except CompileFault String} {events : List Event}

theorem reflects_new (hcapacity : 0 < capacity) : (new capacity).Reflects capacity [] := by
  refine ⟨.empty capacity, ?_, rfl, Cache.Recent.reflects_empty capacity⟩
  rw [new, if_neg (Nat.ne_of_gt hcapacity)]

theorem log_cons (c : StatementCache) (request : Request) (requests : List Request) :
    c.log (request :: requests) =
      (served request (c.render request.1 request.2).value.1).toList ++
        (c.render request.1 request.2).value.2.log requests := by
  unfold log
  rw [run]
  cases hserved : served request (c.render request.1 request.2).value.1 <;>
    simp [hserved]

/-! ### One step -/

theorem Renders.reflects (h : Renders d o c result events c') (hc : c.Reflects capacity past) :
    c'.Reflects capacity (past ++ (served (d, o) result).toList) := by
  obtain ⟨recent, hrecent, hcapacity, hreflects⟩ := hc
  cases h with
  | disabled counters => cases hrecent
  | hit htouch =>
    cases hrecent
    have hcapacity' := congrArg Cache.Recent.capacity (Cache.Recent.touch?_eq_some htouch).2
    exact ⟨_, rfl, hcapacity'.trans hcapacity, hreflects.touch htouch⟩
  | failed hmiss hrender =>
    cases hrecent
    refine ⟨recent, rfl, hcapacity, ?_⟩
    rwa [served, Except.toOption, Option.map_none, Option.toList_none, List.append_nil]
  | @stored _ after counters sql displaced hmiss hrender hpush =>
    cases hrecent
    have hafter : after = (recent.push (Cache.key d o) sql).1 := by rw [hpush]
    subst hafter
    exact ⟨_, rfl, hcapacity, hreflects.push _ sql⟩

/-- A rendering is counted as a hit when the cache holds its key and as a miss otherwise. -/
theorem Renders.counters_eq {recent : Cache.Recent String String}
    (h : Renders d o c result events c') (hrecent : c.recent = some recent) :
    c'.counters.hits = c.counters.hits + (if Cache.key d o ∈ recent.keys then 1 else 0) ∧
    c'.counters.misses = c.counters.misses + (if Cache.key d o ∈ recent.keys then 0 else 1) := by
  cases h with
  | disabled counters => cases hrecent
  | hit htouch =>
    cases hrecent
    have hmem : Cache.key d o ∈ recent.keys :=
      List.mem_map_of_mem (Cache.Recent.touch?_eq_some htouch).1
    rw [if_pos hmem, if_pos hmem]
    exact ⟨rfl, rfl⟩
  | failed hmiss hrender =>
    cases hrecent
    have hnot := Cache.Recent.touch?_eq_none_iff.1 hmiss
    rw [if_neg hnot, if_neg hnot]
    exact ⟨rfl, rfl⟩
  | stored hmiss hrender hpush =>
    cases hrecent
    have hnot := Cache.Recent.touch?_eq_none_iff.1 hmiss
    rw [if_neg hnot, if_neg hnot]
    exact ⟨rfl, rfl⟩

theorem Renders.recent_eq_of_error {fault : CompileFault}
    (h : Renders d o c (.error fault) events c') : c'.recent = c.recent := by
  generalize hresult : (.error fault : Except CompileFault String) = result at h
  cases h with
  | disabled counters => rfl
  | hit htouch => cases hresult
  | failed hmiss hrender => rfl
  | stored hmiss hrender hpush => cases hresult

/-! ### Whole runs -/

theorem run_reflects (hc : c.Reflects capacity past) (requests : List Request) :
    (c.run requests).2.Reflects capacity (past ++ c.log requests) := by
  -- What was served before the run stays general, as each request adds to it.
  induction requests generalizing c past with
  | nil =>
    change c.Reflects capacity (past ++ [])
    rwa [List.append_nil]
  | cons request requests ih =>
    obtain ⟨d, o⟩ := request
    have hstep := ih ((c.renders d o).reflects hc)
    rw [log_cons, ← List.append_assoc]
    exact hstep

/-- After any run a cache holds the texts of the keys that were served last, in this order and up to
its capacity, each with its latest text. Whatever is rendered next is a hit exactly when its key is
among them, and if it fails then the cache holds what it held. -/
theorem run_keeps_latest (capacity : Nat) (hcapacity : 0 < capacity) (requests : List Request) :
    let c := ((new capacity).run requests).2
    let log := (new capacity).log requests
    let held := (Cache.recency log).take capacity
    (∃ recent, c.recent = some recent ∧ recent.keys = held ∧
      ∀ entry ∈ recent.entries, log.reverse.lookup entry.1 = some entry.2) ∧
    ∀ d o, ∃ result c', (c.render d o).value = (result, c') ∧
      c'.counters.hits = c.counters.hits + (if Cache.key d o ∈ held then 1 else 0) ∧
      c'.counters.misses = c.counters.misses + (if Cache.key d o ∈ held then 0 else 1) ∧
      ∀ fault, result = .error fault → c'.recent = c.recent := by
  intro c log held
  obtain ⟨recent, hrecent, hcap, hreflects⟩ := run_reflects (reflects_new hcapacity) requests
  have hkeys : recent.keys = held := by rw [hreflects.keys, hcap]; rfl
  refine ⟨⟨recent, hrecent, hkeys, hreflects.values⟩, fun d o => ?_⟩
  have hstep := c.renders d o
  obtain ⟨hhits, hmisses⟩ := hstep.counters_eq hrecent
  rw [hkeys] at hhits hmisses
  refine ⟨_, _, rfl, hhits, hmisses, fun fault hfault => ?_⟩
  rw [hfault] at hstep
  exact hstep.recent_eq_of_error

/-- A run in which a request fails, a hit brings its entry to the front again, and the last request
drives out the one that was served before the hit. -/
theorem run_keeps_latest_of_hit_and_failure :
    let requests : List Request := [(.new "a", .default), (.new "b", .default),
      ({ Descriptor.new "b" with select := [[]] }, .default), (.new "a", .default),
      (.new "c", .default)]
    0 < 2 ∧ ∃ recent, ((new 2).run requests).2.recent = some recent ∧
      recent.keys = (Cache.recency ((new 2).log requests)).take 2 ∧
      ∀ entry ∈ recent.entries,
        ((new 2).log requests).reverse.lookup entry.1 = some entry.2 := by
  intro requests
  exact ⟨by decide, (run_keeps_latest 2 (by decide) requests).1⟩

end StatementCache

end SeriesQuery
