import ChartFeed.Chart.Basic
import ChartFeed.Proofs.Query.Normalization

/-!
# A cache never changes an answer

A chart service with a cache and the same service without one are asked the same things.  What they
answer differs at most in whether and when rows were cached.

## What is here

* `Backend.LastWriteWins` — what is asked of a backend: it holds the bytes that were last written
  under a key, and any single read or write may fail instead.  `Flaky.backend` is such a backend,
  with the failures foretold.
* `ChartService.run` — a sequence of calls, each with its instant, one after the other.
* `ChartService.fresh`, `ChartService.answer` — the rows that a query has when it is executed, and
  the answer that does not look at any cache.
* `ChartService.Faithful` — the invariant: whatever can be read under the key of a query of the
  sequence are the fresh rows of that query.  `payload_answer` says that one call gives
  the answer and keeps the invariant, and `run_answers` that so does a sequence.
* `run_contents_eq_without_cache` — the answers with and without a cache have the same contents.

Errors are never written, so there is nothing to say about cached errors; a forced call skips the
read and writes the same rows again.
-/

set_option autoImplicit false

namespace ChartFeed

open MessagePack (Bytes)

variable {σ ω : Type}

/-! ## Backends -/

/-- The backend holds, in a state with this view, what was last written under each key.  A read or
a write may fail at any time, and then changes nothing. -/
structure Backend.LastWriteWins (b : Backend σ) (view : σ → String → Option Bytes) : Prop where
  /-- A read gives what is held, or fails. -/
  read_eq : ∀ key s, (b.read key s).1 = .ok (view s key) ∨ ∃ fault, (b.read key s).1 = .error fault
  /-- Reading changes nothing. -/
  view_read : ∀ key s, view (b.read key s).2 = view s
  /-- A write sets its key, or fails and changes nothing. -/
  view_write : ∀ key bytes ttl s,
    (∀ k, view (b.write key bytes ttl s).2 k = if key = k then some bytes else view s k) ∨
      view (b.write key bytes ttl s).2 = view s

/-- A map whose next reads and writes fail where the list says so, and after that never. -/
structure Flaky where
  entries : Dict Bytes
  failing : List Bool

namespace Flaky

/-- What is foretold for the next read or write has come to pass. -/
def next (m : Flaky) : Flaky := { m with failing := m.failing.tail }

/-- Whether the next read or write fails. -/
def fails (m : Flaky) : Bool := m.failing.headD false

/-- The backend. -/
def backend : Backend Flaky where
  name := "flaky"
  read key m :=
    if m.fails then (.error (.operation "read"), m.next)
    else (.ok (Dict.get? m.entries key), m.next)
  write key bytes _ m :=
    if m.fails then (.error (.operation "write"), m.next)
    else (.ok (), { m.next with entries := Dict.insert m.entries key bytes })

/-- What a flaky map holds. -/
def view (m : Flaky) (key : String) : Option Bytes := Dict.get? m.entries key

theorem lastWriteWins : backend.LastWriteWins view where
  read_eq key m := by
    by_cases h : m.fails
    · exact .inr ⟨.operation "read", by simp [backend, h]⟩
    · exact .inl (by simp [backend, h, view])
  view_read key m := by
    by_cases h : m.fails <;> simp [backend, h] <;> rfl
  view_write key bytes ttl m := by
    by_cases h : m.fails
    · refine .inr ?_
      simp [backend, h]
      rfl
    · refine .inl fun k ↦ ?_
      simp [backend, h, view, Dict.get?_insert]

end Flaky

/-! ## Calls and answers -/

/-- The same query gives the same result, whatever the state of the source. -/
def Source.Deterministic (source : Source ω) : Prop :=
  ∀ q w w', (source.execute q w).1 = (source.execute q w').1

/-- One call of a service. -/
structure ChartCall where
  /-- When the call is made. -/
  now : Instant
  query : Query
  /-- Whether the cache is not to be read. -/
  force : Bool

/-- A payload without its marks of caching: the key, the rows and the query. -/
def Payload.content (p : Payload) : Option String × ChartRows × Option (Dict Json) :=
  (p.cacheKey, p.rows, p.query)

/-- When the stored form of these rows can be read, these are the rows that are read. -/
def Stamped.ReadsBack (a : Stamped ChartRows) : Prop :=
  ∀ hit : Stamped ChartRows,
    Cache.decode (some (Packable.pack a).write) = .ok (some hit) → hit.value = a.value

namespace ChartService

/-- The outcomes of calls that are made one after the other. -/
def run (service : ChartService σ ω) : List ChartCall → σ → ω → List (Except ChartFault Payload)
  | [], _, _ => []
  | c :: rest, s, w =>
    let (outcome, s, w) := service.payload c.now c.query c.force s w
    outcome :: run service rest s w

/-- The service that has the same source and no cache. -/
def withoutCache (service : ChartService σ ω) : ChartService σ ω := { service with cache := none }

/-- The rows of a query that is executed. -/
def fresh (source : Source ω) (q : Query) (w : ω) : Except ChartFault ChartRows :=
  match (source.execute q w).1 with
  | .error fault => .error (.source fault)
  | .ok table =>
    match rowsOf q (q.resultType.getD .full) table with
    | .error r => .error (.rejected r)
    | .ok rows => .ok rows

/-- What a query is answered when nothing is cached. -/
def answer (source : Source ω) (q : Query) (w : ω) :
    Except ChartFault (Option String × ChartRows × Option (Dict Json)) :=
  match q.validate true with
  | .error r => .error (.rejected r)
  | .ok _ =>
    match q.resultType.getD .full with
    | .query => .ok (Payload.ofQuery q).content
    | .timegrains => .error (.unsupported .timegrains)
    | _ => (fresh source q w).map fun rows ↦ (some (keyOf q), rows, none)

theorem fresh_eq {source : Source ω} (h : source.Deterministic) (q : Query) (w w' : ω) :
    fresh source q w = fresh source q w' := by
  rw [fresh, fresh, h q w w']

/-! ## The invariant -/

/-- Whatever can be read under the key of a query among these are its rows. -/
def Faithful (source : Source ω) (view : σ → String → Option Bytes) (calls : List ChartCall) (w : ω)
    (s : σ) : Prop :=
  ∀ c ∈ calls, ∀ bytes, view s (keyOf c.query) = some bytes → ∀ hit : Stamped ChartRows,
    Cache.decode (some bytes) = .ok (some hit) → fresh source c.query w = .ok hit.value

/-- Calls whose keys tell their queries apart, and whose rows survive being stored. -/
structure Storable (source : Source ω) (calls : List ChartCall) (w : ω) : Prop where
  /-- Queries with one cache key are one query. -/
  query_eq : ∀ c ∈ calls, ∀ d ∈ calls, c.query.cacheKey [] = d.query.cacheKey [] →
    c.query = d.query
  /-- The rows of a call, stamped with its instant, are not read back as others. -/
  readsBack : ∀ c ∈ calls, ∀ rows, fresh source c.query w = .ok rows →
    Stamped.ReadsBack ⟨c.now, rows⟩

theorem keyOf_inj {q r : Query} (h : keyOf q = keyOf r) : q.cacheKey [] = r.cacheKey [] := by
  simpa [keyOf, CacheKey.chart] using h

variable {service : ChartService σ ω} {view : σ → String → Option Bytes} {calls : List ChartCall}
  {s : σ} {w₀ : ω}

/-- What is found under the key of a call is what executing it gives. -/
theorem lookup_spec (hb : ∀ cache ∈ service.cache, cache.backend.LastWriteWins view)
    (hs : Faithful service.source view calls w₀ s) {c : ChartCall} (hc : c ∈ calls) :
    (∀ hit, (service.lookup (keyOf c.query) s).1 = some hit →
      fresh service.source c.query w₀ = .ok hit.value) ∧
      Faithful service.source view calls w₀ (service.lookup (keyOf c.query) s).2 := by
  unfold lookup
  cases hcache : service.cache with
  | none => exact ⟨by simp, hs⟩
  | some cache =>
    have hlaw := hb cache hcache
    have hview := hlaw.view_read (keyOf c.query) s
    simp only [Cache.lookup, Cache.read?, Cache.readBytes]
    refine ⟨fun hit hhit ↦ ?_, ?_⟩
    · rcases hlaw.read_eq (keyOf c.query) s with hread | ⟨fault, hread⟩
      · rw [hread] at hhit
        cases hheld : view s (keyOf c.query) with
        | none => simp [hheld, Except.bind, Cache.decode] at hhit
        | some bytes =>
          simp only [hheld, Except.bind] at hhit
          cases hdecode : Cache.decode (α := Stamped ChartRows) (some bytes) with
          | error fault => simp [hdecode] at hhit
          | ok found =>
            rw [hdecode] at hhit
            cases hhit
            exact hs c hc bytes hheld hit hdecode
      · simp [hread, Except.bind] at hhit
    · intro d hd bytes hheld
      refine hs d hd bytes ?_
      rw [← hview, ← hheld]
      cases (cache.backend.read (keyOf c.query) s).1.bind (Cache.decode (α := Stamped ChartRows))
        <;> rfl

/-- Storing the fresh rows of a call keeps the cache faithful, whether or not the write goes
through. -/
theorem faithful_store (hb : ∀ cache ∈ service.cache, cache.backend.LastWriteWins view)
    (hcalls : Storable service.source calls w₀) (hs : Faithful service.source view calls w₀ s)
    {c : ChartCall} (hc : c ∈ calls) {rows : ChartRows}
    (hrows : fresh service.source c.query w₀ = .ok rows) :
    Faithful service.source view calls w₀ (service.store c.now (keyOf c.query) rows s).2 := by
  unfold store
  cases hcache : service.cache with
  | none => exact hs
  | some cache =>
    intro d hd bytes hheld
    simp only [Cache.store, Cache.write, Cache.writeBytes] at hheld
    rcases (hb cache hcache).view_write (keyOf c.query)
      (Packable.pack (⟨c.now, rows⟩ : Stamped ChartRows)).write
      (some ((none : Option Nat).getD cache.timeout)) s with hset | hkept
    · rw [hset] at hheld
      split at hheld
      · next hkey =>
        cases hheld
        have hq : c.query = d.query := hcalls.query_eq c hc d hd (keyOf_inj hkey)
        intro hit hdecode
        rw [← hq, hrows, hcalls.readsBack c hc rows hrows hit hdecode]
      · exact hs d hd bytes hheld
    · rw [hkept] at hheld
      exact hs d hd bytes hheld

/-! ## Calls -/

/-- Executing a call gives its answer and keeps the cache faithful. -/
theorem execute_answer (hb : ∀ cache ∈ service.cache, cache.backend.LastWriteWins view)
    (hsource : service.source.Deterministic) (hcalls : Storable service.source calls w₀)
    (hs : Faithful service.source view calls w₀ s) {c : ChartCall} (hc : c ∈ calls) (w : ω) :
    (service.execute c.now c.query (c.query.resultType.getD .full) s w).1.map Payload.content =
        (fresh service.source c.query w₀).map (fun rows ↦ (some (keyOf c.query), rows, none)) ∧
      Faithful service.source view calls w₀
        (service.execute c.now c.query (c.query.resultType.getD .full) s w).2.1 := by
  have hfresh := fresh_eq hsource c.query w w₀
  unfold execute
  rw [fresh] at hfresh
  rcases hexec : service.source.execute c.query w with ⟨fault | table, w'⟩
  · simp only [hexec] at hfresh ⊢
    exact ⟨hfresh ▸ rfl, hs⟩
  · simp only [hexec] at hfresh ⊢
    cases hrows : rowsOf c.query (c.query.resultType.getD .full) table with
    | error r =>
      simp only [hrows] at hfresh ⊢
      exact ⟨hfresh ▸ rfl, hs⟩
    | ok rows =>
      simp only [hrows] at hfresh ⊢
      exact ⟨hfresh ▸ rfl, faithful_store hb hcalls hs hc hfresh.symm⟩

/-- So does taking what is found under its key, unless it is forced or nothing is found. -/
theorem served_answer (hb : ∀ cache ∈ service.cache, cache.backend.LastWriteWins view)
    (hsource : service.source.Deterministic) (hcalls : Storable service.source calls w₀)
    (hs : Faithful service.source view calls w₀ s) {c : ChartCall} (hc : c ∈ calls) (w : ω) :
    let served :=
      if c.force then service.execute c.now c.query (c.query.resultType.getD .full) s w
      else
        match service.lookup (keyOf c.query) s with
        | (some hit, s) => (.ok (hitPayload (keyOf c.query) hit), s, w)
        | (none, s) => service.execute c.now c.query (c.query.resultType.getD .full) s w
    served.1.map Payload.content =
        (fresh service.source c.query w₀).map (fun rows ↦ (some (keyOf c.query), rows, none)) ∧
      Faithful service.source view calls w₀ served.2.1 := by
  obtain ⟨hhit, hafter⟩ := lookup_spec hb hs hc
  intro served
  by_cases hforce : c.force
  · simp only [served, if_pos hforce]
    exact execute_answer hb hsource hcalls hs hc w
  · simp only [served, if_neg hforce]
    rcases hlookup : service.lookup (keyOf c.query) s with ⟨_ | hit, s'⟩
    · rw [hlookup] at hafter
      exact execute_answer hb hsource hcalls hafter hc w
    · rw [hlookup] at hhit hafter
      rw [hhit hit rfl]
      exact ⟨rfl, hafter⟩

/-- **One call gives the answer of its query**, whatever is cached, and keeps the cache faithful. -/
theorem payload_answer (hb : ∀ cache ∈ service.cache, cache.backend.LastWriteWins view)
    (hsource : service.source.Deterministic) (hcalls : Storable service.source calls w₀)
    (hs : Faithful service.source view calls w₀ s) {c : ChartCall} (hc : c ∈ calls) (w : ω) :
    (service.payload c.now c.query c.force s w).1.map Payload.content =
        answer service.source c.query w₀ ∧
      Faithful service.source view calls w₀ (service.payload c.now c.query c.force s w).2.1 := by
  have hserved := served_answer hb hsource hcalls hs hc w
  unfold payload answer
  cases c.query.validate true with
  | error r => exact ⟨rfl, hs⟩
  | ok _ =>
    -- the kind of result decides whether anything is executed at all
    cases htype : c.query.resultType.getD .full with
    | query => exact ⟨rfl, hs⟩
    | timegrains => exact ⟨rfl, hs⟩
    | full | results | samples => rwa [htype] at hserved

/-- **A sequence of calls gives the answers of its queries.** -/
theorem run_answers (hb : ∀ cache ∈ service.cache, cache.backend.LastWriteWins view)
    (hsource : service.source.Deterministic) (hcalls : Storable service.source calls w₀)
    {rest : List ChartCall} (hrest : rest ⊆ calls)
    (hs : Faithful service.source view calls w₀ s) (w : ω) :
    (service.run rest s w).map (Except.map Payload.content) =
      rest.map fun c ↦ answer service.source c.query w₀ := by
  induction rest generalizing s w with
  | nil => rfl
  | cons c rest ih =>
    have hc : c ∈ calls := hrest (List.mem_cons_self ..)
    have hrest' : rest ⊆ calls := fun d hd ↦ hrest (List.mem_cons_of_mem _ hd)
    obtain ⟨hanswer, hafter⟩ := payload_answer hb hsource hcalls hs hc w
    rw [run, List.map_cons, List.map_cons, hanswer, ih hrest' hafter]

/-- **Caching changes no answer.**  Calls of a service with a cache have the same faults, rows, keys
and queries as the same calls of the service without one, when the source is deterministic, the
backend is a map that may fail, and the calls are storable. -/
theorem run_contents_eq_without_cache (service : ChartService σ ω)
    (view : σ → String → Option Bytes) (calls : List ChartCall) (s s' : σ) (w w' : ω)
    (hb : ∀ cache ∈ service.cache, cache.backend.LastWriteWins view)
    (hsource : service.source.Deterministic) (hcalls : Storable service.source calls w)
    (hempty : ∀ c ∈ calls, view s (keyOf c.query) = none) :
    (service.run calls s w).map (Except.map Payload.content) =
      (service.withoutCache.run calls s' w').map (Except.map Payload.content) := by
  have hs : Faithful service.source view calls w s := by
    intro c hc bytes hheld
    rw [hempty c hc] at hheld
    cases hheld
  have hwith := run_answers hb hsource hcalls (List.Subset.refl calls) hs w
  -- the service without a cache is one whose cache is faithful under the view that sees nothing
  have hblind : Faithful service.source (fun _ _ ↦ none) calls w s' :=
    fun c hc bytes hheld ↦ by cases hheld
  have hnone : ∀ cache ∈ service.withoutCache.cache,
      cache.backend.LastWriteWins fun (_ : σ) (_ : String) ↦ none :=
    fun cache hcache ↦ by cases hcache
  have hwithout := run_answers hnone hsource hcalls (List.Subset.refl calls) hblind w'
  rw [hwith, hwithout]
  rfl

/-! ## An example -/

/-- A table with two rows behind a flaky cache. -/
def sales : ChartService Flaky Nat where
  source := .inMemory ⟨[⟨.plain "sales", [.int 7, .absent]⟩]⟩
  cache := some ⟨Flaky.backend, 60⟩

/-- A query that is read, forced and read twice again. -/
def salesCalls : List ChartCall := [
  ⟨⟨0, 0⟩, .blank, false⟩, ⟨⟨1, 0⟩, .blank, true⟩, ⟨⟨2, 0⟩, .blank, false⟩,
  ⟨⟨3, 0⟩, .blank, false⟩]

/-- Nothing is held; the first write and the second read will fail. -/
def salesCache : Flaky := ⟨[], [false, true, false, true]⟩

deriving instance DecidableEq for Stamped

theorem blank_of_mem_salesCalls {c : ChartCall} (h : c ∈ salesCalls) : c.query = .blank := by
  simp only [salesCalls, List.mem_cons, List.not_mem_nil, or_false] at h
  rcases h with rfl | rfl | rfl | rfl <;> rfl

theorem storable_salesCalls : Storable sales.source salesCalls 0 where
  query_eq c hc d hd _ := (blank_of_mem_salesCalls hc).trans (blank_of_mem_salesCalls hd).symm
  readsBack c hc rows hfresh := by
    have hrows : fresh sales.source .blank 0 =
        .ok ⟨2, [[("sales", .int 7)], [("sales", .null)]]⟩ := by decide
    rw [blank_of_mem_salesCalls hc] at hfresh
    cases hrows.symm.trans hfresh
    have hreads : ∀ c ∈ salesCalls,
        let stored : Stamped ChartRows := ⟨c.now, ⟨2, [[("sales", .int 7)], [("sales", .null)]]⟩⟩
        Cache.decode (some (Packable.pack stored).write) = .ok (some stored) := by
      decide +kernel
    intro hit hhit
    cases (hreads c hc).symm.trans hhit
    rfl

theorem salesCalls_contents_eq_without_cache :
    (sales.run salesCalls salesCache 0).map (Except.map Payload.content) =
      (sales.withoutCache.run salesCalls salesCache 0).map (Except.map Payload.content) := by
  refine run_contents_eq_without_cache sales Flaky.view salesCalls salesCache salesCache 0 0
    ?_ ?_ storable_salesCalls ?_
  · rintro cache ⟨⟩
    exact Flaky.lastWriteWins
  · intro q w w'
    rfl
  · intro c hc
    rfl

end ChartService

end ChartFeed
