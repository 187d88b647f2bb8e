import ChartFeed.Cache.Memo
import ChartFeed.Proofs.Chart.Transparency

/-!
# What memoised calls return

Calls are made one after the other, each with a key, options and a computation of its own, and
every read and write of the backend may fail.  What a call does is written down while it runs: what
the backend was asked, and what each run of the computation gave.

## What is here

* `Backend.Truthful` — a map that may fail, and says so when it did not write.
* `MemoCall` and `MemoEvent` — a call, and the record of what it did; `Cache.trace` is the record of
  a sequence of calls, and `Cache.outcomes_trace` says that keeping it changes nothing.
* `Cache.Course` — the four ways a call can go: around the cache, served from it, computed without
  a value, computed and written.  `Cache.course_event` says that there is no other.
* `latest?` — the value that was written last under a key, from the record alone.
* `Cache.Remembers` — the invariant: what is held under each key is the latest value of the record.
* `MemoEvent.Lawful` — what a call does after others: it returns the latest value if it may, and
  else what its computation gives.
* `Cache.outcomes_lawful` — every call of a sequence is lawful.
-/

set_option autoImplicit false

namespace ChartFeed

open MessagePack (Bytes)

variable {σ ι ω ε α : Type}

/-! ## Backends and their records -/

/-- A map that may fail, and does not say that it wrote when it did not. -/
structure Backend.Truthful (b : Backend σ) (view : σ → String → Option Bytes) : Prop extends
    Backend.LastWriteWins b view where
  /-- A write that goes through sets its key. -/
  view_of_ok : ∀ key bytes ttl s, (b.write key bytes ttl s).1.isOk = true →
    ∀ k, view (b.write key bytes ttl s).2 k = if key = k then some bytes else view s k
  /-- A write that fails changes nothing. -/
  view_of_error : ∀ key bytes ttl s, (b.write key bytes ttl s).1.isOk = false →
    view (b.write key bytes ttl s).2 = view s

theorem Flaky.truthful : Flaky.backend.Truthful Flaky.view where
  toLastWriteWins := Flaky.lastWriteWins
  view_of_ok key bytes ttl m h := by
    intro k
    by_cases hfails : m.fails
    · simp [Flaky.backend, hfails, Except.isOk, Except.toBool] at h
    · simp [Flaky.backend, hfails, Flaky.view, Dict.get?_insert]
  view_of_error key bytes ttl m h := by
    by_cases hfails : m.fails
    · simp [Flaky.backend, hfails]
      rfl
    · simp [Flaky.backend, hfails, Except.isOk, Except.toBool] at h

/-- What a backend was asked, and whether it did it. -/
inductive Access where
  | read (key : String) (done : Bool)
  | write (key : String) (done : Bool)
deriving DecidableEq

/-- Whether the backend did what it was asked. -/
def Access.done : Access → Bool
  | .read _ done => done
  | .write _ done => done

/-- The backend that also writes down what it is asked. -/
def Backend.recorded (b : Backend σ) : Backend (σ × List Access) where
  name := b.name
  read key s :=
    let (outcome, s') := b.read key s.1
    (outcome, s', s.2 ++ [.read key outcome.isOk])
  write key bytes ttl s :=
    let (outcome, s') := b.write key bytes ttl s.1
    (outcome, s', s.2 ++ [.write key outcome.isOk])

/-- The cache over the backend that writes down what it is asked. -/
def Cache.recorded (c : Cache σ) : Cache (σ × List Access) := ⟨c.backend.recorded, c.timeout⟩

/-! ## Calls and their records -/

/-- One call of `Cache.memoize`. -/
structure MemoCall (ι ω ε α : Type) where
  /-- Whether the call is given the cache. -/
  cached : Bool
  now : Instant
  argument : ι
  /-- Makes the key of the argument. -/
  keyOf : ι → String
  options : MemoOptions
  compute : ω → Except ε α × ω

namespace MemoCall

/-- The key of a call. -/
def key (call : MemoCall ι ω ε α) : String := call.keyOf call.argument

/-- The call takes part in caching. -/
def Uses (call : MemoCall ι ω ε α) : Prop := call.cached ∧ call.options.enabled

/-- The call would take a value from the cache. -/
def Asks (call : MemoCall ι ω ε α) : Prop := call.Uses ∧ ¬ call.options.force

instance (call : MemoCall ι ω ε α) : Decidable call.Uses :=
  inferInstanceAs (Decidable (_ ∧ _))

instance (call : MemoCall ι ω ε α) : Decidable call.Asks :=
  inferInstanceAs (Decidable (_ ∧ _))

/-- The computation that also writes down what each of its runs gives. -/
def recordedCompute (call : MemoCall ι ω ε α) (w : ω × List (Except ε α)) :
    Except ε α × ω × List (Except ε α) :=
  let (outcome, w') := call.compute w.1
  (outcome, w', w.2 ++ [outcome])

/-- What the computation may give can be read back from its stored form. -/
def ReadsBack [Packable α] (call : MemoCall ι ω ε α) : Prop :=
  ∀ w a, (call.compute w).1 = .ok a → ∃ hit : Stamped α,
    Cache.decode (some (Packable.pack (⟨call.now, a⟩ : Stamped α)).write) = .ok (some hit) ∧
      hit.value = a

end MemoCall

/-- What was seen of a call. -/
structure MemoEvent (σ ι ω ε α : Type) where
  call : MemoCall ι ω ε α
  outcome : Except ε α
  /-- The state of the backend before and after. -/
  before : σ
  after : σ
  /-- What the backend was asked, in order. -/
  accesses : List Access
  /-- What each run of the computation gave, in order. -/
  runs : List (Except ε α)

namespace MemoEvent

/-- The read of a call succeeded. -/
def ReadDone (e : MemoEvent σ ι ω ε α) : Prop := .read e.call.key true ∈ e.accesses

/-- The value that the computation gave, when it ran. -/
def computed? (e : MemoEvent σ ι ω ε α) : Option α :=
  match e.runs with
  | [.ok a] => some a
  | _ => none

/-- The value that an enabled call computed and wrote under a key. -/
def stored? (key : String) (e : MemoEvent σ ι ω ε α) : Option α :=
  if e.call.options.enabled ∧ e.call.key = key ∧ .write key true ∈ e.accesses then e.computed?
  else none

end MemoEvent

/-- The value that was written last under a key. -/
def latest? (key : String) (events : List (MemoEvent σ ι ω ε α)) : Option α :=
  (events.filterMap (MemoEvent.stored? key)).getLast?

theorem latest?_concat (key : String) (events : List (MemoEvent σ ι ω ε α))
    (e : MemoEvent σ ι ω ε α) :
    latest? key (events ++ [e]) = (e.stored? key).or (latest? key events) := by
  cases h : e.stored? key <;> simp [latest?, h]

namespace Cache

variable [Packable α]

/-- Makes one call. -/
def perform (c : Cache σ) (call : MemoCall ι ω ε α) (s : σ) (w : ω) : Except ε α × σ × ω :=
  memoize (if call.cached then some c else none) call.now call.key call.options call.compute s w

/-- The outcomes of calls that are made one after the other. -/
def outcomes (c : Cache σ) : List (MemoCall ι ω ε α) → σ → ω → List (Except ε α)
  | [], _, _ => []
  | call :: rest, s, w =>
    let (outcome, s, w) := c.perform call s w
    outcome :: outcomes c rest s w

/-- Makes one call and writes down what it does. -/
def event (c : Cache σ) (call : MemoCall ι ω ε α) (s : σ) (w : ω) : MemoEvent σ ι ω ε α :=
  let (outcome, (after, accesses), (_, runs)) :=
    c.recorded.perform { call with compute := call.recordedCompute } (s, []) (w, [])
  ⟨call, outcome, s, after, accesses, runs⟩

/-- What is seen of calls that are made one after the other. -/
def trace (c : Cache σ) : List (MemoCall ι ω ε α) → σ → ω → List (MemoEvent σ ι ω ε α)
  | [], _, _ => []
  | call :: rest, s, w =>
    let (_, s', w') := c.perform call s w
    c.event call s w :: trace c rest s' w'

/-! ## The ways a call can go -/

theorem perform_of_not_uses (c : Cache σ) (call : MemoCall ι ω ε α) (huses : ¬ call.Uses) (s : σ)
    (w : ω) : c.perform call s w = ((call.compute w).1, s, (call.compute w).2) := by
  obtain ⟨cached, now, argument, keyOf, ⟨enabled, force, ttl⟩, compute⟩ := call
  cases cached <;> cases enabled <;> simp_all [perform, memoize, MemoCall.Uses]

theorem perform_of_forced (c : Cache σ) (call : MemoCall ι ω ε α) (huses : call.Uses)
    (hforce : call.options.force) (s : σ) (w : ω) :
    c.perform call s w =
      c.computeAndStore call.now call.key call.options.ttl call.compute s w := by
  simp [perform, memoize, huses.1, huses.2, hforce]

theorem perform_of_hit (c : Cache σ) (call : MemoCall ι ω ε α) (hasks : call.Asks) {s : σ}
    {hit : Stamped α} (hhit : (c.lookup call.key s).1 = some hit) (w : ω) :
    c.perform call s w =
      (.ok hit.value, (c.lookup call.key s : Option (Stamped α) × σ).2, w) := by
  rcases hlookup : (c.lookup call.key s : Option (Stamped α) × σ) with ⟨found, s'⟩
  rw [hlookup] at hhit
  subst hhit
  simp [perform, memoize, hasks.1.1, hasks.1.2, hasks.2, hlookup]

theorem perform_of_miss (c : Cache σ) (call : MemoCall ι ω ε α) (hasks : call.Asks) {s : σ}
    (hmiss : (c.lookup call.key s : Option (Stamped α) × σ).1 = none) (w : ω) :
    c.perform call s w = c.computeAndStore call.now call.key call.options.ttl call.compute
      (c.lookup call.key s : Option (Stamped α) × σ).2 w := by
  rcases hlookup : (c.lookup call.key s : Option (Stamped α) × σ) with ⟨found, s'⟩
  rw [hlookup] at hmiss
  subst hmiss
  simp [perform, memoize, hasks.1.1, hasks.1.2, hasks.2, hlookup]

/-- A call found nothing in the cache, or did not look. -/
inductive Missed (c : Cache σ) (call : MemoCall ι ω ε α) (s : σ) : List Access → σ → Prop
  | forced (hforce : call.options.force) : Missed c call s [] s
  | looked (hasks : call.Asks)
      (hmiss : (c.lookup call.key s : Option (Stamped α) × σ).1 = none) :
      Missed c call s [.read call.key (c.backend.read call.key s).1.isOk]
        (c.lookup call.key s : Option (Stamped α) × σ).2

/-- What a call does, and where its computation is left. -/
inductive Course (c : Cache σ) (call : MemoCall ι ω ε α) (s : σ) (w : ω) :
    MemoEvent σ ι ω ε α → ω → Prop
  /-- It goes around the cache. -/
  | around (huses : ¬ call.Uses) :
      Course c call s w ⟨call, (call.compute w).1, s, s, [], [(call.compute w).1]⟩
        (call.compute w).2
  /-- It is served from the cache. -/
  | served (hasks : call.Asks) (hit : Stamped α) (hhit : (c.lookup call.key s).1 = some hit) :
      Course c call s w ⟨call, .ok hit.value, s,
        (c.lookup call.key s : Option (Stamped α) × σ).2,
        [.read call.key (c.backend.read call.key s).1.isOk], []⟩ w
  /-- It computes, and gets no value. -/
  | failed (huses : call.Uses) {reads : List Access} {s' : σ}
      (hmissed : Missed c call s reads s') (fault : ε)
      (hfault : (call.compute w).1 = .error fault) :
      Course c call s w ⟨call, .error fault, s, s', reads, [.error fault]⟩ (call.compute w).2
  /-- It computes a value, and tries to write it. -/
  | computed (huses : call.Uses) {reads : List Access} {s' : σ}
      (hmissed : Missed c call s reads s') (a : α) (ha : (call.compute w).1 = .ok a) :
      Course c call s w ⟨call, .ok a, s, (c.store call.now call.key a call.options.ttl s').2,
        reads ++ [.write call.key (c.store call.now call.key a call.options.ttl s').1], [.ok a]⟩
        (call.compute w).2

theorem lookup_recorded (c : Cache σ) (key : String) (s : σ) (accesses : List Access) :
    (c.recorded.lookup key (s, accesses) : Option (Stamped α) × σ × List Access) =
      ((c.lookup key s : Option (Stamped α) × σ).1, (c.lookup key s : Option (Stamped α) × σ).2,
        accesses ++ [.read key (c.backend.read key s).1.isOk]) := by
  simp only [lookup, read?, readBytes, recorded, Backend.recorded]
  cases (c.backend.read key s).1.bind (decode (α := Stamped α)) <;> rfl

/-- Computing and writing, with all that is written down. -/
theorem computeAndStore_recorded (c : Cache σ) (call : MemoCall ι ω ε α) (s : σ)
    (accesses : List Access) (w : ω) :
    c.recorded.computeAndStore call.now call.key call.options.ttl call.recordedCompute
        (s, accesses) (w, []) =
      match (call.compute w).1 with
      | .error fault => (.error fault, (s, accesses), (call.compute w).2, [.error fault])
      | .ok a => (.ok a, ((c.store call.now call.key a call.options.ttl s).2,
          accesses ++ [.write call.key (c.store call.now call.key a call.options.ttl s).1]),
          (call.compute w).2, [.ok a]) := by
  rw [computeAndStore, MemoCall.recordedCompute]
  rcases call.compute w with ⟨fault | a, w'⟩ <;> rfl

theorem computeAndStore_eq (c : Cache σ) (call : MemoCall ι ω ε α) (s : σ) (w : ω) :
    c.computeAndStore call.now call.key call.options.ttl call.compute s w =
      match (call.compute w).1 with
      | .error fault => (.error fault, s, (call.compute w).2)
      | .ok a =>
        (.ok a, (c.store call.now call.key a call.options.ttl s).2, (call.compute w).2) := by
  rw [computeAndStore]
  rcases call.compute w with ⟨fault | a, w'⟩ <;> rfl

/-- The call whose computation writes down what its runs give. -/
def recordedCall (call : MemoCall ι ω ε α) : MemoCall ι (ω × List (Except ε α)) ε α :=
  { call with compute := call.recordedCompute }

theorem event_eq (c : Cache σ) (call : MemoCall ι ω ε α) (s : σ) (w : ω) :
    c.event call s w =
      let (outcome, (after, accesses), (_, runs)) :=
        c.recorded.perform (recordedCall call) (s, []) (w, [])
      ⟨call, outcome, s, after, accesses, runs⟩ :=
  rfl

/-- After a miss a call computes and writes, and does the same when nothing is written down. -/
theorem course_of_missed (c : Cache σ) {call : MemoCall ι ω ε α} (huses : call.Uses) {s s' : σ}
    {reads : List Access} (hmissed : Missed c call s reads s') (w : ω)
    (hplain : c.perform call s w =
      c.computeAndStore call.now call.key call.options.ttl call.compute s' w)
    (hrecorded : c.recorded.perform (recordedCall call) (s, []) (w, []) =
      c.recorded.computeAndStore call.now call.key call.options.ttl call.recordedCompute
        (s', reads) (w, [])) :
    Course c call s w (c.event call s w) (c.perform call s w).2.2 ∧
      c.perform call s w =
        ((c.event call s w).outcome, (c.event call s w).after, (c.perform call s w).2.2) := by
  have hevent := event_eq c call s w
  rw [hrecorded, computeAndStore_recorded] at hevent
  rw [hplain, computeAndStore_eq, hevent]
  cases houtcome : (call.compute w).1 with
  | error fault => exact ⟨.failed huses hmissed fault houtcome, rfl⟩
  | ok a => exact ⟨.computed huses hmissed a houtcome, rfl⟩

/-- **A call goes one of these ways**, and does the same when nothing is written down. -/
theorem course_event (c : Cache σ) (call : MemoCall ι ω ε α) (s : σ) (w : ω) :
    Course c call s w (c.event call s w) (c.perform call s w).2.2 ∧
      c.perform call s w =
        ((c.event call s w).outcome, (c.event call s w).after, (c.perform call s w).2.2) := by
  by_cases huses : call.Uses
  · by_cases hforce : call.options.force
    · exact course_of_missed c huses (.forced hforce) w (perform_of_forced c call huses hforce s w)
        (perform_of_forced c.recorded (recordedCall call) huses hforce _ _)
    · have hasks : call.Asks := ⟨huses, hforce⟩
      have hrecorded := lookup_recorded (α := α) c call.key s []
      cases hlookup : (c.lookup call.key s : Option (Stamped α) × σ).1 with
      | none =>
        refine course_of_missed c huses (.looked hasks hlookup) w
          (perform_of_miss c call hasks hlookup w) ?_
        have hnone : (c.recorded.lookup call.key (s, []) :
            Option (Stamped α) × σ × List Access).1 = none := by
          rw [hrecorded, hlookup]
        rw [perform_of_miss c.recorded (recordedCall call) hasks hnone]
        show c.recorded.computeAndStore _ _ _ _
          (c.recorded.lookup call.key (s, []) : Option (Stamped α) × σ × List Access).2 _ = _
        rw [hrecorded]
        rfl
      | some hit =>
        have hevent := event_eq c call s w
        have hfound : (c.recorded.lookup call.key (s, []) :
            Option (Stamped α) × σ × List Access).1 = some hit := by
          rw [hrecorded, hlookup]
        rw [perform_of_hit c.recorded (recordedCall call) hasks hfound] at hevent
        replace hevent : c.event call s w = ⟨call, .ok hit.value, s,
            (c.recorded.lookup call.key (s, []) : Option (Stamped α) × σ × List Access).2.1,
            (c.recorded.lookup call.key (s, []) : Option (Stamped α) × σ × List Access).2.2, []⟩ :=
          hevent
        rw [hrecorded] at hevent
        rw [hevent, perform_of_hit c call hasks hlookup w]
        exact ⟨.served hasks hit hlookup, rfl⟩
  · have hevent := event_eq c call s w
    rw [perform_of_not_uses c.recorded (recordedCall call) huses] at hevent
    replace hevent : c.event call s w =
      ⟨call, (call.compute w).1, s, s, [], [(call.compute w).1]⟩ := hevent
    rw [hevent, perform_of_not_uses c call huses s w]
    exact ⟨.around huses, rfl⟩

/-- **Keeping the record changes nothing.** -/
theorem outcomes_trace (c : Cache σ) (calls : List (MemoCall ι ω ε α)) (s : σ) (w : ω) :
    (c.trace calls s w).map MemoEvent.outcome = c.outcomes calls s w := by
  induction calls generalizing s w with
  | nil => rfl
  | cons call rest ih =>
    rw [trace, List.map_cons, outcomes, ih, (course_event c call s w).2]

/-! ## What is held -/

/-- What is held under a key is the stored form of this value, or nothing. -/
def Holds (view : σ → String → Option Bytes) (s : σ) (key : String) : Option α → Prop
  | none => view s key = none
  | some a => ∃ bytes hit, view s key = some bytes ∧
      decode (some bytes) = .ok (some hit) ∧ (hit : Stamped α).value = a

/-- Under the key of every call is held the latest value of the record. -/
def Remembers (view : σ → String → Option Bytes) (calls : List (MemoCall ι ω ε α))
    (events : List (MemoEvent σ ι ω ε α)) (s : σ) : Prop :=
  ∀ call ∈ calls, Holds view s call.key (latest? call.key events)

variable {c : Cache σ} {view : σ → String → Option Bytes}

theorem Holds.congr {s s' : σ} {key : String} {held : Option α} (h : Holds view s key held)
    (hview : view s' key = view s key) : Holds view s' key held := by
  cases held with
  | none => exact hview.trans h
  | some a =>
    obtain ⟨bytes, hit, hbytes, hrest⟩ := h
    exact ⟨bytes, hit, hview.trans hbytes, hrest⟩

theorem view_lookup (hb : c.backend.LastWriteWins view) (key : String) (s : σ) :
    view (c.lookup key s : Option (Stamped α) × σ).2 = view s := by
  rw [← hb.view_read key s]
  simp only [lookup, read?, readBytes]
  cases (c.backend.read key s).1.bind (decode (α := Stamped α)) <;> rfl

/-- What is found is what is held, if it can be read. -/
theorem lookup_value (hb : c.backend.LastWriteWins view) {key : String} {s : σ}
    {held : Option α} (hheld : Holds view s key held) :
    (c.lookup key s : Option (Stamped α) × σ).1.map Stamped.value =
      if (c.backend.read key s).1.isOk then held else none := by
  simp only [lookup, read?, readBytes]
  rcases hb.read_eq key s with hread | ⟨fault, hread⟩
  · rw [hread]
    cases held with
    | none =>
      rw [show view s key = none from hheld]
      rfl
    | some a =>
      obtain ⟨bytes, hit, hbytes, hdecode, rfl⟩ := hheld
      simp [hbytes, Except.bind, hdecode, Except.isOk, Except.toBool]
  · simp [hread, Except.bind, Except.isOk, Except.toBool]

end Cache

/-! ## The law of a call -/

/-- What a call does, after these. -/
structure MemoEvent.Lawful (view : σ → String → Option Bytes)
    (earlier : List (MemoEvent σ ι ω ε α)) (e : MemoEvent σ ι ω ε α) : Prop where
  /-- A value that can be taken from the cache is taken, and nothing is computed. -/
  served : e.call.Asks → e.ReadDone → ∀ a ∈ latest? e.call.key earlier,
    e.outcome = .ok a ∧ e.runs = []
  /-- Else the computation runs once, and its outcome is returned. -/
  computed : ¬ (e.call.Asks ∧ e.ReadDone ∧ (latest? e.call.key earlier).isSome) →
    e.runs = [e.outcome]
  /-- The backend is read by the calls that ask, and written by those that compute a value. -/
  asked : ∃ read written, e.accesses =
    (if e.call.Asks then [.read e.call.key read] else []) ++
      if e.call.Uses ∧ e.computed?.isSome then [.write e.call.key written] else []
  /-- A call without a value leaves everything as it is held. -/
  failed : ∀ fault, e.outcome = .error fault →
    view e.after = view e.before ∧ ∀ key done, .write key done ∉ e.accesses
  /-- A call that is disabled or has no cache does not touch the backend at all. -/
  around : ¬ e.call.Uses → e.after = e.before ∧ e.accesses = []
  /-- When the backend fails, what is returned is what is computed. -/
  broken : ∀ access ∈ e.accesses, access.done = false → e.runs = [e.outcome]

/-- A call whose computation ran is lawful when it missed, and reads and writes as it has to. -/
theorem MemoEvent.lawful_of_runs {view : σ → String → Option Bytes}
    {earlier : List (MemoEvent σ ι ω ε α)} {e : MemoEvent σ ι ω ε α} (hruns : e.runs = [e.outcome])
    (hmissed : e.call.Asks → e.ReadDone → latest? e.call.key earlier = none)
    (hasked : ∃ read written, e.accesses =
      (if e.call.Asks then [.read e.call.key read] else []) ++
        if e.call.Uses ∧ e.computed?.isSome then [.write e.call.key written] else [])
    (hfailed : ∀ fault, e.outcome = .error fault → view e.after = view e.before)
    (haround : ¬ e.call.Uses → e.after = e.before) : e.Lawful view earlier where
  served hasks hread a ha := by
    rw [hmissed hasks hread] at ha
    cases ha
  computed _ := hruns
  asked := hasked
  failed fault hfault := by
    refine ⟨hfailed fault hfault, fun key done hwrite ↦ ?_⟩
    obtain ⟨read, written, haccesses⟩ := hasked
    have hnone : e.computed? = none := by rw [computed?, hruns, hfault]
    rw [haccesses, hnone] at hwrite
    by_cases hasks : e.call.Asks <;> simp [hasks] at hwrite
  around huses := by
    refine ⟨haround huses, ?_⟩
    obtain ⟨read, written, haccesses⟩ := hasked
    rw [haccesses, if_neg (fun hasks ↦ huses hasks.1), if_neg (fun h ↦ huses h.1)]
    rfl
  broken _ _ _ := hruns

namespace Cache

variable [Packable α] {c : Cache σ} {view : σ → String → Option Bytes}
  {calls : List (MemoCall ι ω ε α)} {call : MemoCall ι ω ε α} {s s' : σ}
  {earlier : List (MemoEvent σ ι ω ε α)} {e : MemoEvent σ ι ω ε α} {reads : List Access}

/-- A call that did not write leaves what is remembered. -/
theorem Remembers.concat (hs : Remembers view calls earlier s)
    (hstored : ∀ key, e.stored? key = none) (hview : view s' = view s) :
    Remembers view calls (earlier ++ [e]) s' := by
  intro call hcall
  rw [latest?_concat, hstored, Option.none_or]
  exact (hs call hcall).congr (congrFun hview _)

/-- A miss changes nothing that is held, and happens at a key without a value or a read that
failed. -/
theorem Missed.spec (hb : c.backend.LastWriteWins view) {held : Option α}
    (hheld : Holds view s call.key held) (hmissed : Missed (α := α) c call s reads s') :
    view s' = view s ∧ (∃ read, reads = if call.Asks then [.read call.key read] else []) ∧
      (call.Asks → .read call.key true ∈ reads → held = none) := by
  cases hmissed with
  | forced hforce =>
    have hnot : ¬ call.Asks := fun hasks ↦ hasks.2 hforce
    exact ⟨rfl, ⟨true, by rw [if_neg hnot]⟩, fun hasks ↦ absurd hasks hnot⟩
  | looked hasks hmiss =>
    refine ⟨view_lookup hb _ _, ⟨_, by rw [if_pos hasks]⟩, fun _ hread ↦ ?_⟩
    have hvalue := lookup_value hb hheld
    rw [hmiss, if_pos (by simpa using hread)] at hvalue
    exact hvalue.symm

/-- A call that computed a value and tried to write it leaves what is remembered, with the value if
it was written. -/
theorem Remembers.store (hb : c.backend.Truthful view) (hs : Remembers view calls earlier s')
    (huses : call.Uses) (hreads : ∀ key done, .write key done ∉ reads) {a : α}
    (hreadsBack : ∃ hit : Stamped α,
      decode (some (Packable.pack (⟨call.now, a⟩ : Stamped α)).write) = .ok (some hit) ∧
        hit.value = a) :
    Remembers view calls (earlier ++ [⟨call, .ok a, s,
        (c.store call.now call.key a call.options.ttl s').2,
        reads ++ [.write call.key (c.store call.now call.key a call.options.ttl s').1], [.ok a]⟩])
      (c.store call.now call.key a call.options.ttl s').2 := by
  intro d hd
  have hheld := hs d hd
  rw [latest?_concat]
  cases hdone : (c.store call.now call.key a call.options.ttl s').1 with
  | false =>
    rw [show MemoEvent.stored? d.key _ = none by simp [MemoEvent.stored?, hreads],
      Option.none_or]
    exact hheld.congr (congrFun (hb.view_of_error _ _ _ _ hdone) _)
  | true =>
    have hset := hb.view_of_ok _ _ _ _ hdone d.key
    by_cases hkey : call.key = d.key
    · rw [show MemoEvent.stored? d.key _ = some a by
        simp [MemoEvent.stored?, MemoEvent.computed?, hkey, huses.2], Option.some_or]
      rw [if_pos hkey] at hset
      obtain ⟨hit, hdecode, hvalue⟩ := hreadsBack
      exact ⟨_, hit, hset, hdecode, hvalue⟩
    · rw [show MemoEvent.stored? d.key _ = none by simp [MemoEvent.stored?, hkey],
        Option.none_or]
      rw [if_neg hkey] at hset
      exact hheld.congr hset

/-- **One call is lawful**, and what is held afterwards is the latest value of the longer record. -/
theorem Course.lawful (hb : c.backend.Truthful view) (hreadsBack : call.ReadsBack)
    (hs : Remembers view calls earlier s) (hcall : call ∈ calls) {w w' : ω}
    (hcourse : Course c call s w e w') :
    e.Lawful view earlier ∧ Remembers view calls (earlier ++ [e]) e.after := by
  have hheld := hs call hcall
  cases hcourse with
  | around huses =>
    have hasks : ¬ call.Asks := fun hasks ↦ huses hasks.1
    refine ⟨MemoEvent.lawful_of_runs rfl (fun h ↦ absurd h hasks) ⟨true, true, ?_⟩ (fun _ _ ↦ rfl)
      (fun _ ↦ rfl), hs.concat (fun key ↦ ?_) rfl⟩
    · rw [if_neg hasks, if_neg (fun h ↦ huses h.1)]
      rfl
    · simp [MemoEvent.stored?]
  | served hasks hit hhit =>
    have hview : view (c.lookup call.key s : Option (Stamped α) × σ).2 = view s :=
      view_lookup hb.toLastWriteWins _ _
    have hvalue := lookup_value hb.toLastWriteWins hheld
    rw [hhit, Option.map_some] at hvalue
    -- what was found is held, and the read went through
    have hread : (c.backend.read call.key s).1.isOk = true := by
      by_contra hread
      rw [if_neg hread] at hvalue
      cases hvalue
    rw [if_pos hread] at hvalue
    refine ⟨?_, hs.concat (fun key ↦ by simp [MemoEvent.stored?]) hview⟩
    exact {
      served := fun _ _ a ha ↦ by
        rw [Option.mem_def.1 ha] at hvalue
        cases hvalue
        exact ⟨rfl, rfl⟩
      computed := fun hnot ↦ absurd ⟨hasks, by simp [MemoEvent.ReadDone, hread], by
        rw [← hvalue]
        rfl⟩ hnot
      asked := ⟨_, true, by
        rw [if_pos hasks, if_neg (fun h ↦ by cases h.2)]
        rfl⟩
      failed := fun fault hfault ↦ by cases hfault
      around := fun huses ↦ absurd hasks.1 huses
      broken := fun access haccess hdone ↦ by
        rw [List.mem_singleton.1 haccess, Access.done, hread] at hdone
        cases hdone }
  | failed huses hmissed fault hfault =>
    obtain ⟨hview, ⟨read, hreads⟩, hnone⟩ := hmissed.spec hb.toLastWriteWins hheld
    refine ⟨MemoEvent.lawful_of_runs rfl hnone ⟨read, true, ?_⟩ (fun _ _ ↦ hview)
      (fun h ↦ absurd huses h), hs.concat (fun key ↦ ?_) hview⟩
    · simp [hreads, MemoEvent.computed?]
    · simp [MemoEvent.stored?, MemoEvent.computed?]
  | @computed huses reads s' hmissed a ha =>
    obtain ⟨hview, ⟨read, hreads⟩, hnone⟩ := hmissed.spec hb.toLastWriteWins hheld
    refine ⟨MemoEvent.lawful_of_runs rfl (fun hasks hread ↦ hnone hasks ?_)
      ⟨read, (c.store call.now call.key a call.options.ttl s').1, ?_⟩
      (fun fault hfault ↦ by cases hfault) (fun h ↦ absurd huses h), ?_⟩
    · simpa [MemoEvent.ReadDone] using hread
    · simp [hreads, MemoEvent.computed?, huses]
    · exact Remembers.store hb (fun d hd ↦ (hs d hd).congr (congrFun hview _)) huses
        (fun key done hwrite ↦ by split at hreads <;> simp [hreads] at hwrite)
        (hreadsBack w a ha)

/-- **A sequence of calls is lawful**, one after the other. -/
theorem lawful_trace (hb : c.backend.Truthful view) (hreadsBack : ∀ call ∈ calls, call.ReadsBack)
    {rest : List (MemoCall ι ω ε α)} (hrest : rest ⊆ calls) (hs : Remembers view calls earlier s)
    (w : ω) {before after : List (MemoEvent σ ι ω ε α)}
    (htrace : c.trace rest s w = before ++ e :: after) : e.Lawful view (earlier ++ before) := by
  induction rest generalizing earlier s w before with
  | nil => simp [trace] at htrace
  | cons call rest ih =>
    have hcall : call ∈ calls := hrest (List.mem_cons_self ..)
    obtain ⟨hcourse, hplain⟩ := course_event c call s w
    obtain ⟨hlawful, hs'⟩ := hcourse.lawful hb (hreadsBack call hcall) hs hcall
    rw [trace, hplain] at htrace
    cases before with
    | nil =>
      rw [List.nil_append, List.cons_eq_cons] at htrace
      rw [List.append_nil, ← htrace.1]
      exact hlawful
    | cons first before =>
      rw [List.cons_append, List.cons_eq_cons] at htrace
      rw [List.append_cons, ← htrace.1]
      exact ih (fun d hd ↦ hrest (List.mem_cons_of_mem _ hd)) hs' _ htrace.2

/-- **The law of memoisation.**  Calls are made one after the other over a cache that holds nothing
under their keys and whose reads and writes may fail.  They return what the record of them says, and
each does what it has to do after those before it. -/
theorem outcomes_lawful (c : Cache σ) (view : σ → String → Option Bytes)
    (calls : List (MemoCall ι ω ε α)) (s : σ) (w : ω) (hb : c.backend.Truthful view)
    (hreadsBack : ∀ call ∈ calls, call.ReadsBack)
    (hempty : ∀ call ∈ calls, view s call.key = none) :
    c.outcomes calls s w = (c.trace calls s w).map MemoEvent.outcome ∧
      ∀ earlier e later, c.trace calls s w = earlier ++ e :: later → e.Lawful view earlier := by
  refine ⟨(outcomes_trace c calls s w).symm, fun earlier e later htrace ↦ ?_⟩
  have hs : Remembers view calls ([] : List (MemoEvent σ ι ω ε α)) s := hempty
  exact lawful_trace hb hreadsBack (List.Subset.refl calls) hs w htrace

/-! ## An example -/

/-- A call about a day whose computation counts its runs and has this outcome. -/
def dailyCall (day : Int) (options : MemoOptions) (outcome : Except String Int) (cached : Bool) :
    MemoCall Int Nat String Int where
  cached := cached
  now := ⟨86400 * day, 0⟩
  argument := day
  keyOf d := "daily:" ++ Int.repr d
  options := options
  compute runs := (outcome, runs + 1)

/-- Calls about two days: with a write that fails and one that does not, with a failure, a read that
fails, two calls that are served, one that is forced, one that is disabled and one without the
cache. -/
def dailyCalls : List (MemoCall Int Nat String Int) := [
  dailyCall 1 .initial (.ok 5) true, dailyCall 1 .initial (.error "no data") true,
  dailyCall 1 .initial (.ok 6) true, dailyCall 2 .initial (.ok (-7)) true,
  dailyCall 1 .initial (.ok 8) true, dailyCall 1 .initial (.ok 9) true,
  dailyCall 1 ⟨true, true, none⟩ (.ok 10) true, dailyCall 1 .initial (.ok 11) true,
  dailyCall 1 ⟨false, false, none⟩ (.ok 12) true, dailyCall 2 .initial (.ok 13) false]

/-- Nothing is held; the first write and the read of the fifth call will fail. -/
def dailyCache : Flaky :=
  ⟨[], [false, true, false, false, false, false, false, true]⟩

theorem readsBack_dailyCall (day : Int) (options : MemoOptions) (outcome : Except String Int)
    (cached : Bool)
    (h : ∀ a, outcome = .ok a →
      let stored : Stamped Int := ⟨⟨86400 * day, 0⟩, a⟩
      decode (some (Packable.pack stored).write) = .ok (some stored)) :
    (dailyCall day options outcome cached).ReadsBack :=
  fun _ a ha ↦ ⟨_, h a ha, rfl⟩

example : (⟨Flaky.backend, 60⟩ : Cache Flaky).outcomes dailyCalls dailyCache 0 =
    [.ok 5, .error "no data", .ok 6, .ok (-7), .ok 8, .ok 8, .ok 10, .ok 10, .ok 12, .ok 13] := by
  decide +kernel

theorem dailyCalls_lawful :
    (⟨Flaky.backend, 60⟩ : Cache Flaky).outcomes dailyCalls dailyCache 0 =
        ((⟨Flaky.backend, 60⟩ : Cache Flaky).trace dailyCalls dailyCache 0).map
          MemoEvent.outcome ∧
      ∀ earlier e later, (⟨Flaky.backend, 60⟩ : Cache Flaky).trace dailyCalls dailyCache 0 =
        earlier ++ e :: later → e.Lawful Flaky.view earlier := by
  refine outcomes_lawful ⟨Flaky.backend, 60⟩ Flaky.view dailyCalls dailyCache 0 Flaky.truthful
    ?_ ?_
  · intro call hcall
    simp only [dailyCalls, List.mem_cons, List.not_mem_nil, or_false] at hcall
    rcases hcall with rfl | rfl | rfl | rfl | rfl | rfl | rfl | rfl | rfl | rfl
    all_goals
      refine readsBack_dailyCall _ _ _ _ fun a ha ↦ ?_
      cases ha
    all_goals decide +kernel
  · intro call _
    rfl

end Cache

end ChartFeed
