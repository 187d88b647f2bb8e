import ChartFeed.Json.Canonical
import ChartFeed.Query.Basic

/-!
# The cache key of a query

`Query.keyPayload` is what the key is a digest of: the canonical mapping with the time range as it
was written in place of the instants it was resolved to, so that a relative range keeps its key as
time passes.  A query without a time range keeps its bounds.

Steps go in as they were written, annotation layers with the fields that matter.
-/

set_option autoImplicit false

namespace ChartFeed.Query

/-- The fields of an annotation layer that a payload depends on. -/
def layerFields : List String := [
  "annotationType", "descriptionColumns", "intervalEndColumn", "name", "overrides", "sourceType",
  "timeColumn", "titleColumn", "value"]

/-- A layer with the fields that matter. -/
def projectLayer (layer : Dict Json) : Dict Json :=
  layerFields.filterMap fun key ↦ (Dict.get? layer key).map fun v ↦ (key, v)

/-- The entries for the time window: the range as written, or else the bounds. -/
def windowEntries (q : Query) : Dict Json :=
  match q.timeRange with
  | some range => [("time_range", .str range)]
  | none =>
    if q.window.start.isSome || q.window.stop.isSome then
      [("from_dttm", boundJson q.window.start), ("to_dttm", boundJson q.window.stop)]
    else []

/-- The entries for the steps. -/
def stepEntries (q : Query) : Dict Json :=
  if q.postProcessing.isEmpty then []
  else [("post_processing", .arr (q.postProcessing.map Step.source))]

/-- The entries for the annotation layers. -/
def layerEntries (q : Query) : Dict Json :=
  if q.annotationLayers.isEmpty then []
  else [("annotation_layers", .arr (q.annotationLayers.map fun l ↦ .obj (projectLayer l)))]

/-- An entry for a value that may be absent. -/
def optionalEntry (key : String) (v : Option Json) : Dict Json :=
  match v with
  | some v => [(key, v)]
  | none => []

/-- What the key is a digest of; `extra` are entries of the caller. -/
def keyPayload (q : Query) (extra : Dict Json) : Dict Json :=
  let base := Dict.erase (Dict.erase q.canonicalMapping "from_dttm") "to_dttm"
  let entries := q.windowEntries
    ++ optionalEntry "time_shift" (q.timeShiftText.map .str)
    ++ q.stepEntries ++ q.layerEntries ++ extra
    ++ optionalEntry "datasource" (q.datasource.map fun d ↦ .str d.uid)
    ++ optionalEntry "result_type" (q.resultType.map fun t ↦ .str t.name)
  Dict.insertAll base entries

/-- The digest of the payload. -/
def cacheKey (q : Query) (extra : Dict Json) : String := (Json.obj (q.keyPayload extra)).digest

end ChartFeed.Query
