import ChartFeed.MessagePack.Packable
import ChartFeed.Text.Quoted

/-!
# Caches

A `Backend` keeps bytes under keys; its state is whatever it needs.  A `Cache` reads and writes
typed values through a backend.

* `Cache.read?` and `Cache.write` report what goes wrong;
* `Cache.store` and `Cache.lookup` do not: a failed write is dropped and a failed read finds
  nothing.  They stamp values with the instant of their writing.

Times to live are in seconds.
-/

set_option autoImplicit false

namespace ChartFeed

open MessagePack (Bytes)

/-- Why a cache cannot do what it was asked. -/
inductive CacheFault where
  /-- A cache has to have room for one entry at least. -/
  | noRoom
  /-- The stored bytes do not have the form of a value of the type. -/
  | otherForm
  /-- The backend does not answer. -/
  | operation (text : String)
deriving DecidableEq

/-- The wording of a cache fault. -/
def CacheFault.message : CacheFault → String
  | .noRoom => "Cache configuration error: max_entries must be positive"
  | .otherForm => "Serialization error: the stored bytes have another form"
  | .operation text => "Cache operation failed: " ++ text

/-- Keeps bytes under keys. -/
structure Backend (σ : Type) where
  name : String
  /-- The bytes under a key. -/
  read : String → σ → Except CacheFault (Option Bytes) × σ
  /-- Puts bytes under a key for a time, or for good. -/
  write : String → Bytes → Option Nat → σ → Except CacheFault Unit × σ

/-- A backend with the time to live of entries that have none of their own. -/
structure Cache (σ : Type) where
  backend : Backend σ
  timeout : Nat

namespace Cache

variable {σ α : Type}

/-- One line about a cache. -/
def description (c : Cache σ) : String :=
  let timeout := if c.timeout = 0 then "0ns" else Nat.repr c.timeout ++ "s"
  "CacheService \x7b backend: " ++ Text.quoted c.backend.name ++ ", default_timeout: " ++ timeout
    ++ " \x7d"

/-- The bytes under a key. -/
def readBytes (c : Cache σ) (key : String) : σ → Except CacheFault (Option Bytes) × σ :=
  c.backend.read key

/-- Puts bytes under a key. -/
def writeBytes (c : Cache σ) (key : String) (bytes : Bytes) (ttl : Option Nat) :
    σ → Except CacheFault Unit × σ :=
  c.backend.write key bytes ttl

/-- The value that bytes hold. -/
def decode [Packable α] : Option Bytes → Except CacheFault (Option α)
  | none => .ok none
  | some bytes =>
    match (Packed.ofBytes bytes).bind Packable.unpack? with
    | some a => .ok (some a)
    | none => .error .otherForm

/-- The value under a key. -/
def read? [Packable α] (c : Cache σ) (key : String) (s : σ) : Except CacheFault (Option α) × σ :=
  let (bytes, s) := c.readBytes key s
  (bytes.bind decode, s)

/-- Puts a value under a key. -/
def write [Packable α] (c : Cache σ) (key : String) (a : α) (ttl : Option Nat) :
    σ → Except CacheFault Unit × σ :=
  c.writeBytes key (Packable.pack a).write ttl

/-- Puts a stamped value under a key, for the timeout of the cache unless a time is given; says
whether it was written. -/
def store [Packable α] (c : Cache σ) (now : Instant) (key : String) (a : α) (ttl : Option Nat)
    (s : σ) : Bool × σ :=
  let (outcome, s) := c.write key (⟨now, a⟩ : Stamped α) (some (ttl.getD c.timeout)) s
  (outcome.isOk, s)

/-- The stamped value under a key, if it can be read. -/
def lookup [Packable α] (c : Cache σ) (key : String) (s : σ) : Option (Stamped α) × σ :=
  let (outcome, s) := c.read? key s
  match outcome with
  | .ok hit => (hit, s)
  | .error _ => (none, s)

end Cache

end ChartFeed
