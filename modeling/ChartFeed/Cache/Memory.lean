import ChartFeed.Cache.Basic

/-!
# Caches in memory

The memory backend keeps the last bytes that were written under each key.  What was written for no
time at all is gone at once; the passage of time is not part of the model, and neither is what has
to go when there is no more room.
-/

set_option autoImplicit false

namespace ChartFeed

open MessagePack (Bytes)

/-- Which entries go first when there is no more room. -/
inductive Eviction where
  /-- Those that are used least often. -/
  | leastFrequent
  /-- Those that were used least recently. -/
  | leastRecent
deriving DecidableEq

/-- What a cache in memory is made with. -/
structure CacheSettings where
  /-- For how many entries there is room. -/
  maxEntries : Nat
  eviction : Eviction
  timeout : Nat
deriving DecidableEq

/-- Without a configuration: a hundred thousand entries, for a day. -/
def CacheSettings.initial : CacheSettings := ⟨100000, .leastFrequent, 86400⟩

/-- The entries of a memory backend, each with its time to live. -/
abbrev Memory := Dict (Bytes × Option Nat)

namespace Memory

/-- The bytes under a key. -/
def read? (m : Memory) (key : String) : Option Bytes :=
  match Dict.get? m key with
  | some (_, some 0) => none
  | some (bytes, _) => some bytes
  | none => none

/-- The backend; it never fails. -/
def backend : Backend Memory where
  name := "memory"
  read key m := (.ok (read? m key), m)
  write key bytes ttl m := (.ok (), Dict.insert m key (bytes, ttl))

end Memory

/-- A cache in memory. -/
def Cache.inMemory (settings : CacheSettings) : Except CacheFault (Cache Memory) :=
  if settings.maxEntries = 0 then .error .noRoom else .ok ⟨Memory.backend, settings.timeout⟩

end ChartFeed
