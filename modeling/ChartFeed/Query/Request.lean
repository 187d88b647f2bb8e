import ChartFeed.Rejection
import ChartFeed.Text.Blank
import ChartFeed.Text.Digit

/-!
# Requests

A `Request` is a query as a client submits it: every field may be left out, and fields that are not
known are kept apart, since some of them are names of former versions.

* `Request.read` reads one from JSON and `Request.toJson` writes it;
* the number of a datasource may be written as a text.
-/

set_option autoImplicit false

namespace ChartFeed

/-- Which part of the result is wanted. -/
inductive ResultType where
  | full
  | query
  | results
  | samples
  | timegrains
deriving DecidableEq

namespace ResultType

/-- The result types by name. -/
def names : List (String × ResultType) := [
  ("full", .full), ("query", .query), ("results", .results), ("samples", .samples),
  ("timegrains", .timegrains)]

/-- The name of a result type. -/
def name : ResultType → String
  | .full => "full"
  | .query => "query"
  | .results => "results"
  | .samples => "samples"
  | .timegrains => "timegrains"

end ResultType

/-- A reference to a datasource. -/
structure DatasourceRef where
  id : Int
  kind : String
deriving DecidableEq

namespace DatasourceRef

/-- The number of a datasource, which may be written as a text. -/
def readId : Reader Int
  | .num (.int n) => if fitsInt64 n then .ok n else .error (.noAlternative "Id")
  | .str s =>
    match Text.integerOf? (Text.trim s.toList) with
    | some n => if fitsInt64 n then .ok n else .error (.datasourceNumber s)
    | none => .error (.datasourceNumber s)
  | _ => .error (.noAlternative "Id")

/-- The fields of a reference. -/
def record : Record where
  name := "DatasourceRef"
  fields := [Field.of "id" .required readId, Field.of "type" .required Shape.text]
  closed := false

/-- Reads a reference. -/
def read : Reader DatasourceRef := fun v ↦ do
  let d ← record.entries v
  let id ← d.required "id" readId
  let kind ← d.required "type" Shape.text
  return ⟨id, kind⟩

/-- Writes a reference. -/
def toJson (r : DatasourceRef) : Json := .obj [("id", .int r.id), ("type", .str r.kind)]

end DatasourceRef

/-- A query as a client submits it. -/
structure Request where
  datasource : Option DatasourceRef
  resultType : Option ResultType
  annotationLayers : Option (List (Dict Json))
  appliedTimeExtras : Option (Dict Json)
  granularity : Option String
  metrics : Option (List Json)
  groupby : Option (List String)
  filters : Option (List Json)
  timeRange : Option String
  timeShift : Option String
  isTimeseries : Option Bool
  timeseriesLimit : Option Nat
  timeseriesLimitMetric : Option Json
  rowLimit : Option Nat
  rowOffset : Option Nat
  orderDesc : Option Bool
  extras : Option (Dict Json)
  columns : Option (List String)
  orderby : Option (List (Json × Bool))
  postProcessing : Option (List Json)
  isRowcount : Option Bool
  /-- The fields that are not known, in order. -/
  legacy : Dict Json
deriving DecidableEq

namespace Request

/-! ## Reading -/

/-- A list of texts. -/
def texts : Reader (List String) := Shape.items Shape.text

/-- Sort expressions, each with its direction. -/
def sortTerms : Reader (List (Json × Bool)) := Shape.items (Shape.pair Shape.any Shape.boolean)

/-- A field that may be left out or null. -/
def optionalField {α : Type} (name : String) (reader : Reader α) : Field :=
  Field.of name .defaulted (Shape.optional reader)

/-- The known fields. -/
def record : Record where
  name := "RawQuery"
  fields := [
    optionalField "datasource" DatasourceRef.read,
    optionalField "result_type" (Shape.variant ResultType.names),
    optionalField "annotation_layers" (Shape.items Shape.fields),
    optionalField "applied_time_extras" Shape.fields,
    optionalField "granularity" Shape.text,
    optionalField "metrics" (Shape.items Shape.any),
    optionalField "groupby" texts,
    optionalField "filters" (Shape.items Shape.any),
    optionalField "time_range" Shape.text,
    optionalField "time_shift" Shape.text,
    optionalField "is_timeseries" Shape.boolean,
    optionalField "timeseries_limit" Shape.unsigned,
    optionalField "timeseries_limit_metric" Shape.any,
    optionalField "row_limit" Shape.unsigned,
    optionalField "row_offset" Shape.unsigned,
    optionalField "order_desc" Shape.boolean,
    optionalField "extras" Shape.fields,
    optionalField "columns" texts,
    optionalField "orderby" sortTerms,
    optionalField "post_processing" (Shape.items Shape.any),
    optionalField "is_rowcount" Shape.boolean]
  closed := false

/-- The fields of a request by their readers. -/
def ofFields (d : Dict Json) : Except Mismatch Request := do
  record.checkEntries [] d
  return {
    datasource := ← d.optional "datasource" DatasourceRef.read
    resultType := ← d.optional "result_type" (Shape.variant ResultType.names)
    annotationLayers := ← d.optional "annotation_layers" (Shape.items Shape.fields)
    appliedTimeExtras := ← d.optional "applied_time_extras" Shape.fields
    granularity := ← d.optional "granularity" Shape.text
    metrics := ← d.optional "metrics" (Shape.items Shape.any)
    groupby := ← d.optional "groupby" texts
    filters := ← d.optional "filters" (Shape.items Shape.any)
    timeRange := ← d.optional "time_range" Shape.text
    timeShift := ← d.optional "time_shift" Shape.text
    isTimeseries := ← d.optional "is_timeseries" Shape.boolean
    timeseriesLimit := ← d.optional "timeseries_limit" Shape.unsigned
    timeseriesLimitMetric := ← d.optional "timeseries_limit_metric" Shape.any
    rowLimit := ← d.optional "row_limit" Shape.unsigned
    rowOffset := ← d.optional "row_offset" Shape.unsigned
    orderDesc := ← d.optional "order_desc" Shape.boolean
    extras := ← d.optional "extras" Shape.fields
    columns := ← d.optional "columns" texts
    orderby := ← d.optional "orderby" sortTerms
    postProcessing := ← d.optional "post_processing" (Shape.items Shape.any)
    isRowcount := ← d.optional "is_rowcount" Shape.boolean
    legacy := d.filter fun entry ↦ (record.field? entry.1).isNone }

/-- Reads a request, which has to be an object. -/
def read : Json → Except Rejection Request
  | .obj fields =>
    match ofFields fields with
    | .ok r => .ok r
    | .error m => .error (.malformedQuery (.shape m))
  | _ => .error (.malformedQuery .notAnObject)

/-! ## Writing -/

/-- A list of texts. -/
def textsJson (xs : List String) : Json := .arr (xs.map .str)

/-- Sort expressions, each with its direction. -/
def sortTermsJson (xs : List (Json × Bool)) : Json :=
  .arr (xs.map fun (v, direction) ↦ .arr [v, .bool direction])

/-- The known fields in their order, null when unset, and then the others. -/
def toFields (r : Request) : Dict Json :=
  let orNull {α : Type} (f : α → Json) (a : Option α) : Json := Json.ofOption f a
  [("datasource", orNull DatasourceRef.toJson r.datasource),
    ("result_type", orNull (fun t ↦ .str t.name) r.resultType),
    ("annotation_layers", orNull (fun ls ↦ .arr (ls.map .obj)) r.annotationLayers),
    ("applied_time_extras", orNull .obj r.appliedTimeExtras),
    ("granularity", orNull .str r.granularity),
    ("metrics", orNull .arr r.metrics),
    ("groupby", orNull textsJson r.groupby),
    ("filters", orNull .arr r.filters),
    ("time_range", orNull .str r.timeRange),
    ("time_shift", orNull .str r.timeShift),
    ("is_timeseries", orNull .bool r.isTimeseries),
    ("timeseries_limit", orNull .nat r.timeseriesLimit),
    ("timeseries_limit_metric", orNull id r.timeseriesLimitMetric),
    ("row_limit", orNull .nat r.rowLimit),
    ("row_offset", orNull .nat r.rowOffset),
    ("order_desc", orNull .bool r.orderDesc),
    ("extras", orNull .obj r.extras),
    ("columns", orNull textsJson r.columns),
    ("orderby", orNull sortTermsJson r.orderby),
    ("post_processing", orNull .arr r.postProcessing),
    ("is_rowcount", orNull .bool r.isRowcount)] ++ r.legacy

/-- Writes a request. -/
def toJson (r : Request) : Json := .obj r.toFields

end Request

end ChartFeed
