import ChartFeed.Cache.Memory
import ChartFeed.Json.Reader
import ChartFeed.Query.Normal

/-!
# Layers of configuration

A configuration is put together from layers: what the command line says, what files say, and what
holds without either.  A `Layer` is what one file says; it may leave out anything.

* `Layer.merge` puts one layer over another, field by field in the parts that both have; a list of
  datasources replaces the one below as a whole;
* `Configuration.resolve` decides each field on its own: the command line first, then the merged
  layers, then the default;
* `Layer.ofJson` and `Layer.ofText` read a layer.
-/

set_option autoImplicit false

namespace ChartFeed

/-- What a file says about one part of a configuration. -/
structure QueryLayer where
  rowLimit : Option Nat := none
  relativeStart : Option String := none
  relativeEnd : Option String := none
  endpoints : Option Bool := none
deriving DecidableEq, Inhabited

/-- What a file says about the cache. -/
structure CacheLayer where
  maxEntries : Option Nat := none
  eviction : Option Eviction := none
  timeout : Option Nat := none
deriving DecidableEq, Inhabited

/-- What a file says; it may leave out whole parts. -/
structure Layer where
  query : Option QueryLayer := none
  cache : Option CacheLayer := none
  datasources : Option Directory := none
deriving DecidableEq, Inhabited

/-! ## Merging -/

/-- The fields of the layer above count where it has them. -/
def QueryLayer.merge (below above : QueryLayer) : QueryLayer where
  rowLimit := above.rowLimit <|> below.rowLimit
  relativeStart := above.relativeStart <|> below.relativeStart
  relativeEnd := above.relativeEnd <|> below.relativeEnd
  endpoints := above.endpoints <|> below.endpoints

/-- The fields of the layer above count where it has them. -/
def CacheLayer.merge (below above : CacheLayer) : CacheLayer where
  maxEntries := above.maxEntries <|> below.maxEntries
  eviction := above.eviction <|> below.eviction
  timeout := above.timeout <|> below.timeout

namespace Layer

/-- A layer that says nothing. -/
def empty : Layer := {}

/-- One part of a layer: what is above is merged into what is below, or into a part that says
nothing. -/
def mergePart {α : Type} (nothing : α) (merge : α → α → α) (below above : Option α) : Option α :=
  match above with
  | none => below
  | some part => some (merge (below.getD nothing) part)

/-- The fields of the layer above count where it has them. -/
def merge (below above : Layer) : Layer where
  query := mergePart {} QueryLayer.merge below.query above.query
  cache := mergePart {} CacheLayer.merge below.cache above.cache
  datasources := above.datasources <|> below.datasources

end Layer

/-- What the command line says. -/
structure Overrides where
  /-- The file that takes the place of the one in the current directory. -/
  file : Option String := none
  rowLimit : Option Nat := none
  endpoints : Option Bool := none
  maxEntries : Option Nat := none
  eviction : Option Eviction := none
  timeout : Option Nat := none
deriving DecidableEq, Inhabited

/-- A configuration with everything decided. -/
structure Configuration where
  settings : Settings
  cache : CacheSettings
  datasources : Directory
deriving DecidableEq

/-- Decides every field: the command line comes before the layer, and the layer before the
default. -/
def Configuration.resolve (overrides : Overrides) (layer : Layer) : Configuration :=
  let query := layer.query.getD {}
  let cache := layer.cache.getD {}
  { settings := {
      rowLimit := (overrides.rowLimit <|> query.rowLimit).getD Settings.initial.rowLimit
      relativeStart := query.relativeStart.getD Settings.initial.relativeStart
      relativeEnd := query.relativeEnd.getD Settings.initial.relativeEnd
      endpoints := (overrides.endpoints <|> query.endpoints).getD Settings.initial.endpoints }
    cache := {
      maxEntries := (overrides.maxEntries <|> cache.maxEntries).getD
        CacheSettings.initial.maxEntries
      eviction := (overrides.eviction <|> cache.eviction).getD CacheSettings.initial.eviction
      timeout := (overrides.timeout <|> cache.timeout).getD CacheSettings.initial.timeout }
    datasources := layer.datasources.getD [] }

/-! ## Reading -/

namespace Eviction

/-- The rules by name. -/
def names : List (String × Eviction) := [("tinylfu", .leastFrequent), ("lru", .leastRecent)]

/-- The name of a rule. -/
def name : Eviction → String
  | .leastFrequent => "tinylfu"
  | .leastRecent => "lru"

end Eviction

namespace QueryLayer

/-- The fields of a query layer. -/
def record : Record where
  name := "QueryLayer"
  fields := [
    Field.of "row_limit" .optional (Shape.optional Shape.unsigned),
    Field.of "relative_start" .optional (Shape.optional Shape.text),
    Field.of "relative_end" .optional (Shape.optional Shape.text),
    Field.of "sip15_enabled" .optional (Shape.optional Shape.boolean)]
  closed := false

/-- Reads a query layer. -/
def read : Reader QueryLayer := fun v ↦ do
  let d ← record.entries v
  return {
    rowLimit := ← d.optional "row_limit" Shape.unsigned
    relativeStart := ← d.optional "relative_start" Shape.text
    relativeEnd := ← d.optional "relative_end" Shape.text
    endpoints := ← d.optional "sip15_enabled" Shape.boolean }

end QueryLayer

namespace CacheLayer

/-- The fields of a cache layer. -/
def record : Record where
  name := "CacheLayer"
  fields := [
    Field.of "max_entries" .optional (Shape.optional Shape.unsigned),
    Field.of "eviction_policy" .optional (Shape.optional (Shape.variant Eviction.names)),
    Field.of "timeout_secs" .optional (Shape.optional Shape.unsigned)]
  closed := false

/-- Reads a cache layer. -/
def read : Reader CacheLayer := fun v ↦ do
  let d ← record.entries v
  return {
    maxEntries := ← d.optional "max_entries" Shape.unsigned
    eviction := ← d.optional "eviction_policy" (Shape.variant Eviction.names)
    timeout := ← d.optional "timeout_secs" Shape.unsigned }

end CacheLayer

namespace Layer

/-- The fields of a layer; others are left alone. -/
def record : Record where
  name := "Layer"
  fields := [
    Field.of "query" .optional (Shape.optional QueryLayer.read),
    Field.of "cache" .optional (Shape.optional CacheLayer.read),
    Field.of "datasources" .optional (Shape.optional (Shape.items Datasource.read))]
  closed := false

/-- Reads a layer, which has to be an object. -/
def ofJson : Reader Layer
  | .obj fields => do
    let d ← record.entries (.obj fields)
    return {
      query := ← d.optional "query" QueryLayer.read
      cache := ← d.optional "cache" CacheLayer.read
      datasources := ← d.optional "datasources" (Shape.items Datasource.read) }
  | v => Shape.wrongKind v "a map"

/-- Reads a layer from text. -/
def ofText? (text : String) : Option Layer :=
  match Json.read text with
  | .ok v => (ofJson v).toOption
  | .error _ => none

end Layer

end ChartFeed
