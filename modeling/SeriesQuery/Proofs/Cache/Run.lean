import SeriesQuery.Proofs.Cache.Key
import SeriesQuery.Proofs.Cache.Step

/-!
# Runs of a cache

A run renders a list of requests through one cache. What the cache holds is always the text of one
of the requests, so that with no collision among the bytes it hashed the run gives what rendering
each request alone would give.
-/

namespace SeriesQuery

open Compile (CompileFault Options)
open Query (Descriptor)

abbrev Request := Descriptor × Options

namespace Request

def key (request : Request) : String := Cache.key request.1 request.2

def hashedBytes (request : Request) : List UInt8 :=
  Cache.hashedBytes (Cache.keyValue request.1 request.2)

def render (request : Request) : Except CompileFault String :=
  Compile.render request.1 request.2

end Request

namespace StatementCache

/-- The results of rendering some requests one after the other, and the cache at the end. -/
def run (c : StatementCache) : List Request → List (Except CompileFault String) × StatementCache
  | [] => ([], c)
  | request :: requests =>
    let (result, next) := (c.render request.1 request.2).value
    let (results, last) := run next requests
    (result :: results, last)

/-- The byte strings that are hashed when some requests are rendered; a cache that is disabled
hashes nothing. -/
def hashedInputs (c : StatementCache) (requests : List Request) : List (List UInt8) :=
  match c.recent with
  | none => []
  | some _ => requests.map Request.hashedBytes

/-- Whether every text in the cache is that of a request with its key. -/
def Faithful (requests : List Request) (c : StatementCache) : Prop :=
  ∀ recent, c.recent = some recent → ∀ entry ∈ recent.entries,
    ∃ request ∈ requests, request.key = entry.1 ∧ request.render = .ok entry.2

variable {c c' : StatementCache} {d : Descriptor} {o : Options} {requests : List Request}
  {result : Except CompileFault String} {events : List Event}

theorem faithful_new (requests : List Request) (capacity : Nat) :
    Faithful requests (new capacity) := by
  intro recent hrecent entry hentry
  unfold new at hrecent
  by_cases hzero : capacity = 0
  · rw [if_pos hzero] at hrecent
    cases hrecent
  · rw [if_neg hzero] at hrecent
    cases hrecent
    exact (List.not_mem_nil hentry).elim

theorem collisionFree_hashedInputs (h : Cache.CollisionFree (requests.map Request.hashedBytes)) :
    Cache.CollisionFree (c.hashedInputs requests) := by
  unfold hashedInputs
  cases c.recent with
  | none => exact fun _ hmem => (List.not_mem_nil hmem).elim
  | some recent => exact h

/-! ### One step -/

theorem Renders.hashedInputs_eq (h : Renders d o c result events c') (requests : List Request) :
    c'.hashedInputs requests = c.hashedInputs requests := by
  cases h <;> rfl

theorem Renders.faithful (h : Renders d o c result events c') (hmem : (d, o) ∈ requests)
    (hfaithful : Faithful requests c) : Faithful requests c' := by
  cases h with
  | disabled counters => exact hfaithful
  | hit htouch =>
    obtain ⟨hfound, rfl⟩ := Cache.Recent.touch?_eq_some htouch
    intro recent hrecent entry hentry
    cases hrecent
    rcases List.mem_cons.1 hentry with rfl | hrest
    · exact hfaithful _ rfl _ hfound
    · exact hfaithful _ rfl _ (Cache.Recent.without_subset _ _ hrest)
  | failed hmiss hrender => exact hfaithful
  | @stored before after counters sql displaced hmiss hrender hpush =>
    intro recent hrecent entry hentry
    cases hrecent
    have hafter : after = (before.push (Cache.key d o) sql).1 := by rw [hpush]
    rw [hafter] at hentry
    rcases List.mem_cons.1 (Cache.Recent.entries_push_subset _ _ _ hentry) with rfl | hrest
    · exact ⟨(d, o), hmem, rfl, hrender⟩
    · exact hfaithful _ rfl _ hrest

/-- A text found in the cache is the text of the request, since only that request can have left it
there. -/
theorem Renders.result_eq (h : Renders d o c result events c') (hmem : (d, o) ∈ requests)
    (hfaithful : Faithful requests c) (hfree : Cache.CollisionFree (c.hashedInputs requests)) :
    result = Compile.render d o := by
  cases h with
  | disabled counters => rfl
  | hit htouch =>
    have hfound := (Cache.Recent.touch?_eq_some htouch).1
    obtain ⟨⟨d', o'⟩, hmem', hkey, hrender⟩ := hfaithful _ rfl _ hfound
    have hbytes := List.mem_map_of_mem (f := Request.hashedBytes) hmem
    have hbytes' := List.mem_map_of_mem (f := Request.hashedBytes) hmem'
    obtain ⟨rfl, rfl⟩ := Cache.eq_of_key_eq hfree hbytes' hbytes hkey
    exact hrender.symm
  | failed hmiss hrender => exact hrender.symm
  | stored hmiss hrender hpush => exact hrender.symm

/-! ### Whole runs -/

theorem run_cons (c : StatementCache) (request : Request) (requests : List Request) :
    c.run (request :: requests) =
      ((c.render request.1 request.2).value.1 ::
          ((c.render request.1 request.2).value.2.run requests).1,
        ((c.render request.1 request.2).value.2.run requests).2) := rfl

theorem run_eq_of_faithful {rest : List Request} (hsub : rest ⊆ requests)
    (hfaithful : Faithful requests c) (hfree : Cache.CollisionFree (c.hashedInputs requests)) :
    (c.run rest).1 = rest.map Request.render := by
  induction rest generalizing c with
  | nil => rfl
  | cons request rest ih =>
    obtain ⟨d, o⟩ := request
    rw [List.cons_subset] at hsub
    have hstep := c.renders d o
    have hresult := hstep.result_eq hsub.1 hfaithful hfree
    have hrest := ih hsub.2 (hstep.faithful hsub.1 hfaithful)
      (by rwa [hstep.hashedInputs_eq requests])
    rw [run_cons, hresult, hrest]
    rfl

/-- A cache is transparent: whatever its capacity, each request of a run gets what it would get
without the cache. -/
theorem run_eq_map_render (capacity : Nat) (requests : List Request)
    (hfree : Cache.CollisionFree ((new capacity).hashedInputs requests)) :
    ((new capacity).run requests).1 = requests.map Request.render :=
  run_eq_of_faithful (List.Subset.refl _) (faithful_new requests capacity) hfree

theorem hash_ne_of_two_tables :
    Digest.Sha256.hash (Request.hashedBytes (.new "a", .default)) ≠
      Digest.Sha256.hash (Request.hashedBytes (.new "b", .default)) := by
  unfold Request.hashedBytes
  rw [Cache.hashedBytes_eq_flatMap, Cache.hashedBytes_eq_flatMap]
  decide +kernel

/-- A run in which the second request drives the first out of the cache. -/
theorem run_eq_map_render_of_eviction :
    Cache.CollisionFree ((new 1).hashedInputs
        [(.new "a", .default), (.new "b", .default), (.new "a", .default)]) ∧
      ((new 1).run [(.new "a", .default), (.new "b", .default), (.new "a", .default)]).1 =
        [(.new "a", .default), (.new "b", .default), (.new "a", .default)].map
          Request.render := by
  have hinputs : ∀ x ∈ (new 1).hashedInputs
      [(.new "a", .default), (.new "b", .default), (.new "a", .default)],
      x = Request.hashedBytes (.new "a", .default) ∨
        x = Request.hashedBytes (.new "b", .default) := by
    intro x hx
    rcases List.mem_cons.1 hx with rfl | hx
    · exact .inl rfl
    · exact (List.mem_pair.1 hx).symm
  have hfree : Cache.CollisionFree ((new 1).hashedInputs
      [(.new "a", .default), (.new "b", .default), (.new "a", .default)]) := by
    intro x hx y hy hxy
    rcases hinputs x hx with rfl | rfl <;> rcases hinputs y hy with rfl | rfl
    · rfl
    · exact absurd hxy hash_ne_of_two_tables
    · exact absurd hxy.symm hash_ne_of_two_tables
    · rfl
  exact ⟨hfree, run_eq_map_render 1 _ hfree⟩

end StatementCache

end SeriesQuery
