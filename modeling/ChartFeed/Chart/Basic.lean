import ChartFeed.Cache.Basic
import ChartFeed.Cache.Key
import ChartFeed.Chart.Source
import ChartFeed.Query.CacheKey

/-!
# Chart data

`ChartService.payload` answers a query: from the cache if the query's key is there, else by
executing the query, applying its steps and storing what comes out.

* `ChartRows` is what is stored;
* `Payload` is the answer, and `Payload.toJson` its text;
* a query may ask for itself, and then nothing is executed.
-/

set_option autoImplicit false

namespace ChartFeed

/-- Why there is no payload. -/
inductive ChartFault where
  | rejected (r : Rejection)
  | source (fault : SourceFault)
  | unsupported (resultType : ResultType)
deriving DecidableEq

/-- The wording of a chart fault. -/
def ChartFault.message : ChartFault → String
  | .rejected r => r.message
  | .source fault => fault.message
  | .unsupported resultType => "Result type " ++ resultType.name ++ " is not supported"

/-- The rows of a result as they are stored. -/
structure ChartRows where
  rowCount : Nat
  records : List (Dict Json)
deriving DecidableEq

namespace ChartRows

/-- The rows of a table, or its number of rows as the only row. -/
def ofTable (t : Table) (onlyCount : Bool) : ChartRows :=
  if onlyCount then ⟨1, [[("rowcount", .nat t.rowCount)]]⟩ else ⟨t.rowCount, t.toRecords⟩

/-- The names of the fields in their order. -/
def fieldNames : List String := ["rowcount", "data"]

/-- The record of a form. -/
def record? (v : Packed) : Option (Dict Json) := v.toJson?.bind Json.asFields?

instance : Packable ChartRows where
  pack rows := .list [.int rows.rowCount, .list (rows.records.map fun r ↦ Packed.ofJson (.obj r))]
  unpack? v := do
    match ← v.fields? fieldNames with
    | [.int count, data] =>
      if 0 ≤ count then return ⟨count.toNat, ← (← data.items?).mapM record?⟩ else none
    | _ => none

end ChartRows

/-- The answer to a query. -/
structure Payload where
  cacheKey : Option String
  isCached : Bool
  /-- When the rows were written to the cache. -/
  cachedAt : Option Instant
  rows : ChartRows
  /-- The query itself, if it asked for that. -/
  query : Option (Dict Json)
deriving DecidableEq

namespace Payload

/-- The payload of a query that asks for itself. -/
def ofQuery (q : Query) : Payload := ⟨none, false, none, ⟨0, []⟩, some q.canonicalMapping⟩

/-- The payload as an object. -/
def toJson (p : Payload) : Json := .obj ([
  ("cache_key", Json.ofOption .str p.cacheKey),
  ("is_cached", .bool p.isCached),
  ("cached_dttm", Json.ofOption (fun t ↦ .str (t.isoText "Z")) p.cachedAt),
  ("rowcount", .nat p.rows.rowCount),
  ("data", .arr (p.rows.records.map .obj))] ++
  match p.query with
  | some mapping => [("query", .obj mapping)]
  | none => [])

end Payload

/-- A source, with a cache or without. -/
structure ChartService (σ ω : Type) where
  source : Source ω
  cache : Option (Cache σ)

namespace ChartService

variable {σ ω : Type}

/-- The key of a query's rows. -/
def keyOf (q : Query) : String := CacheKey.chart (q.cacheKey [])

/-- The rows under a key. -/
def lookup (service : ChartService σ ω) (key : String) (s : σ) : Option (Stamped ChartRows) × σ :=
  match service.cache with
  | some cache => cache.lookup key s
  | none => (none, s)

/-- Puts rows under a key; the instant of the writing if they were written. -/
def store (service : ChartService σ ω) (now : Instant) (key : String) (rows : ChartRows) (s : σ) :
    Option Instant × σ :=
  match service.cache with
  | some cache =>
    let (written, s) := cache.store now key rows none s
    (if written then some now else none, s)
  | none => (none, s)

/-- The rows of a result; samples are left as they are. -/
def rowsOf (q : Query) (resultType : ResultType) (t : Table) : Except Rejection ChartRows :=
  (if resultType = .samples then .ok t else q.postProcess t).map
    fun t ↦ ChartRows.ofTable t q.isRowcount

/-- Executes a query and stores its rows. -/
def execute (service : ChartService σ ω) (now : Instant) (q : Query) (resultType : ResultType)
    (s : σ) (w : ω) : Except ChartFault Payload × σ × ω :=
  match service.source.execute q w with
  | (.error fault, w) => (.error (.source fault), s, w)
  | (.ok table, w) =>
    match rowsOf q resultType table with
    | .error r => (.error (.rejected r), s, w)
    | .ok rows =>
      let (cachedAt, s) := service.store now (keyOf q) rows s
      (.ok ⟨some (keyOf q), false, cachedAt, rows, none⟩, s, w)

/-- The payload of rows that were found under a key. -/
def hitPayload (key : String) (hit : Stamped ChartRows) : Payload :=
  ⟨some key, true, some hit.writtenAt, hit.value, none⟩

/-- The payload of a query; with `force` the cache is not read. -/
def payload (service : ChartService σ ω) (now : Instant) (q : Query) (force : Bool) (s : σ)
    (w : ω) : Except ChartFault Payload × σ × ω :=
  match q.validate true with
  | .error r => (.error (.rejected r), s, w)
  | .ok _ =>
    match q.resultType.getD .full with
    | .query => (.ok (Payload.ofQuery q), s, w)
    | .timegrains => (.error (.unsupported .timegrains), s, w)
    | resultType =>
      if force then service.execute now q resultType s w
      else
        match service.lookup (keyOf q) s with
        | (some hit, s) => (.ok (hitPayload (keyOf q) hit), s, w)
        | (none, s) => service.execute now q resultType s w

end ChartService

end ChartFeed
