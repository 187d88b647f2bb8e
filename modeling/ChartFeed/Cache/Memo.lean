import ChartFeed.Cache.Basic

/-!
# Memoised results

`Cache.memoize` gives the value that a cache holds under a key, or computes it and stores it.  The
computation has a state of its own, which tells whether it ran.

Failures of the computation are never stored, and failures of the cache are never seen.
-/

set_option autoImplicit false

namespace ChartFeed

/-- How a result is memoised. -/
structure MemoOptions where
  /-- Without it the cache is neither read nor written. -/
  enabled : Bool
  /-- Computes anew, and stores the result. -/
  force : Bool
  /-- The time to live; without one the cache has its own. -/
  ttl : Option Nat
deriving DecidableEq

/-- Reads and writes, and keeps results for ten minutes. -/
def MemoOptions.initial : MemoOptions := ⟨true, false, some 600⟩

namespace Cache

variable {σ ω ε α : Type} [Packable α]

/-- Computes a value, and stores it unless the computation fails. -/
def computeAndStore (c : Cache σ) (now : Instant) (key : String) (ttl : Option Nat)
    (compute : ω → Except ε α × ω) (s : σ) (w : ω) : Except ε α × σ × ω :=
  match compute w with
  | (.error e, w) => (.error e, s, w)
  | (.ok a, w) => (.ok a, (c.store now key a ttl s).2, w)

/-- The value under a key, or the one that is computed. -/
def memoize (cache : Option (Cache σ)) (now : Instant) (key : String) (options : MemoOptions)
    (compute : ω → Except ε α × ω) (s : σ) (w : ω) : Except ε α × σ × ω :=
  match cache, options.enabled with
  | some c, true =>
    if options.force then c.computeAndStore now key options.ttl compute s w
    else
      match c.lookup key s with
      | (some hit, s) => (.ok hit.value, s, w)
      | (none, s) => c.computeAndStore now key options.ttl compute s w
  | _, _ =>
    let (outcome, w) := compute w
    (outcome, s, w)

end Cache

end ChartFeed
