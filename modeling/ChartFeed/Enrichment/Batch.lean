import ChartFeed.Enrichment.Client

/-!
# Enriching a batch of records

An `Enricher` asks a service about one record after the other and counts what it finds.  It gives up
when the first request fails, or when two fail one after the other; what was found until then is
still reported.  A flag that may be raised at any time stops it before the next request.

* `Client` is a service with a state of its own; it sees the progress, and it says when the flag is
  raised;
* `Batch` is a run under way, and `Batch.receive` what an answer does to it;
* `Enricher.run` runs a batch, and `Report` is its outcome.
-/

set_option autoImplicit false

namespace ChartFeed

/-- Counters of a run. -/
structure Progress where
  success : Nat := 0
  doubt : Nat := 0
  failed : Nat := 0
  /-- How many records were answered. -/
  processed : Nat := 0
  total : Nat := 0
  inProgress : Bool := false
deriving DecidableEq, Inhabited

namespace Progress

/-- Which part of the records was answered. -/
def fraction (p : Progress) : Float :=
  if p.total = 0 then 0.0 else Float.ofNat p.processed / Float.ofNat p.total

/-- Counts an answer. -/
def count (p : Progress) : Relevance → Progress
  | .success => { p with success := p.success + 1, processed := p.processed + 1 }
  | .doubt => { p with doubt := p.doubt + 1, processed := p.processed + 1 }
  | .failed => { p with failed := p.failed + 1, processed := p.processed + 1 }

end Progress

/-- What happens during a request. -/
structure Reply (ω : Type) where
  answer : Answer
  /-- Whether the flag is raised meanwhile. -/
  interrupts : Bool
  /-- The state of the client afterwards. -/
  state : ω

/-- An enrichment service. -/
structure Client (ω : Type) where
  /-- Asked once before a batch. -/
  ready : ω → Except ServiceFault Unit
  /-- Whether the flag is raised while a batch begins, before its first request. -/
  raisedEarly : ω → Bool := fun _ ↦ false
  /-- Looks up one text. -/
  request : String → Progress → ω → Reply ω

/-- Why a batch was given up. -/
inductive AbortReason where
  | failedAtStart
  | consecutiveFailures (count : Nat)
deriving DecidableEq

/-- A run under way. -/
structure Batch where
  progress : Progress
  /-- The records with the values that were found for them. -/
  enriched : List (List String) := []
  faults : List ServiceFault := []
  /-- How many requests failed since the last answer. -/
  streak : Nat := 0
  /-- Whether the flag is up. -/
  flag : Bool := false
  interrupted : Bool := false
deriving DecidableEq

namespace Batch

/-- A batch of these records, of which none was requested. -/
def start (records : List (List String)) (raised : Bool) : Batch where
  progress := { total := records.length, inProgress := true }
  flag := raised

/-- So many failures in a row end a batch. -/
def maxStreak : Nat := 2

/-- Why the batch is given up now. -/
def abort? (b : Batch) : Option AbortReason :=
  if b.progress.processed = 0 ∧ b.streak = 1 then some .failedAtStart
  else if maxStreak ≤ b.streak then some (.consecutiveFailures b.streak)
  else none

/-- Takes in an answer for a record. -/
def take (b : Batch) (record : List String) : Answer → Batch
  | .ok found =>
    { b with
      progress := b.progress.count (.ofAnswer found)
      enriched := b.enriched ++ (found.map fun f ↦ record ++ f.values).toList
      streak := 0 }
  | .error fault => { b with faults := b.faults ++ [fault], streak := b.streak + 1 }

/-- Takes in a reply for a record. -/
def receive {ω : Type} (b : Batch) (record : List String) (reply : Reply ω) : Batch :=
  { b.take record reply.answer with flag := b.flag || reply.interrupts }

/-- The text that a service is asked about. -/
def inputOf (record : List String) : String := " ".intercalate record

/-- Requests one record after the other. -/
def requestAll {ω : Type} (client : Client ω) : List (List String) → Batch → ω → Batch × ω
  | [], b, w => (b, w)
  | record :: rest, b, w =>
    if b.flag then ({ b with flag := false, interrupted := true }, w)
    else
      let reply := client.request (inputOf record) b.progress w
      let b := b.receive record reply
      if b.abort?.isSome then (b, reply.state) else requestAll client rest b reply.state

end Batch

/-- The outcome of a batch. -/
structure Report where
  enriched : List (List String)
  success : Nat
  doubt : Nat
  failed : Nat
  faults : List ServiceFault
  aborted : Option AbortReason
  interrupted : Bool
deriving DecidableEq

/-- The report of a batch that has come to its end. -/
def Report.ofBatch (b : Batch) : Report :=
  ⟨b.enriched, b.progress.success, b.progress.doubt, b.progress.failed, b.faults, b.abort?,
    b.interrupted⟩

/-- What remains between batches. -/
structure Enricher where
  /-- The flag that stops a batch. -/
  flag : Bool := false
  /-- The progress of the last batch. -/
  progress : Progress := {}
deriving DecidableEq, Inhabited

namespace Enricher

/-- Runs a batch.  A service that is not ready leaves everything as it is.  A batch begins by taking
the flag down, and from then on it may be raised again. -/
def run {ω : Type} (client : Client ω) (records : List (List String)) (e : Enricher) (w : ω) :
    Except ServiceFault Report × Enricher × ω :=
  match client.ready w with
  | .error fault => (.error fault, e, w)
  | .ok _ =>
    let (b, w) := Batch.requestAll client records (Batch.start records (client.raisedEarly w)) w
    (.ok (Report.ofBatch b), ⟨b.flag, { b.progress with inProgress := false }⟩, w)

end Enricher

end ChartFeed
