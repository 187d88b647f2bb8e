import ChartFeed.Query.Basic

/-!
# From requests to queries

`Query.ofRequest` fills in defaults, looks up the datasource, resolves time expressions against one
instant, reads steps and metrics and moves retired fields.  The first failure in that order counts.

`Settings` holds the defaults.
-/

set_option autoImplicit false

namespace ChartFeed

/-- The defaults of queries. -/
structure Settings where
  /-- The row limit of a query that has none. -/
  rowLimit : Nat
  /-- The time expression that relative ranges begin at. -/
  relativeStart : String
  /-- The time expression that relative ranges end at. -/
  relativeEnd : String
  /-- Whether every query says if the ends of its time range belong to it. -/
  endpoints : Bool
deriving DecidableEq

/-- Without a configuration: fifty thousand rows, and ranges around today. -/
def Settings.initial : Settings := ⟨50000, "today", "today", false⟩

namespace Query

/-- The kind of annotation that the client computes itself. -/
def formulaAnnotation : String := "FORMULA"

/-- Whether a layer is computed by the client. -/
def isFormula (layer : Dict Json) : Bool :=
  (Dict.get? layer "annotationType").bind Json.asString? == some formulaAnnotation

/-- The datasource that a request refers to, if it refers to one. -/
def resolveDatasource (directory : Directory) :
    Option DatasourceRef → Except Rejection (Option Datasource)
  | none => .ok none
  | some r =>
    match directory.find? r.kind r.id with
    | some d => .ok (some d)
    | none => .error (.datasourceNotFound r.kind r.id)

/-- What relative expressions refer to: the extras come before the settings. -/
def anchors (settings : Settings) (extras : Dict Json) (now : Instant) : Anchors :=
  let text (key default : String) := ((Dict.get? extras key).bind Json.asString?).getD default
  ⟨text "relative_start" settings.relativeStart, text "relative_end" settings.relativeEnd, now⟩

/-- The time shift as written, unless it is blank. -/
def shiftText (shift : Option String) : Option String :=
  shift.filter fun s ↦ !(Text.trim s.toList).isEmpty

/-- The span of a time shift. -/
def readShift : Option String → Except Rejection (Option Span)
  | none => .ok none
  | some s => (Span.read s.toList).map some

/-- The ends of the time range, when the settings ask for them and the extras have none. -/
def withEndpoints (settings : Settings) (extras : Dict Json) : Dict Json :=
  if settings.endpoints then
    let endpoints := match Dict.get? extras "time_range_endpoints" with
      | none | some .null => .arr [.str "inclusive", .str "exclusive"]
      | some v => v
    Dict.insert extras "time_range_endpoints" endpoints
  else extras

/-- The query that a request means. -/
def ofRequest (settings : Settings) (directory : Directory) (now : Instant) (r : Request) :
    Except Rejection Query := do
  let datasource ← resolveDatasource directory r.datasource
  let extras := r.extras.getD []
  let window ← TimeRange.read r.timeRange r.timeShift (anchors settings extras now)
  let columns := r.columns.getD []
  let groupby := r.groupby.getD []
  let timeShift ← readShift (shiftText r.timeShift)
  let postProcessing ← Step.readAll (r.postProcessing.getD [])
  let metrics ← Metric.readEach (r.metrics.getD [])
  let migrated ← Migration.run r.legacy r.granularity (withEndpoints settings extras)
  return {
    datasource := datasource
    resultType := r.resultType
    annotationLayers := (r.annotationLayers.getD []).filter fun layer ↦ !isFormula layer
    appliedTimeExtras := r.appliedTimeExtras.getD []
    granularity := migrated.granularity
    window := window
    timeRange := r.timeRange
    timeShiftText := shiftText r.timeShift
    timeShift := timeShift
    isTimeseries := r.isTimeseries.getD ((columns ++ groupby).contains timeAxis)
    groupby := groupby
    columns := columns
    metrics := metrics
    filter := r.filters.getD []
    rowLimit := r.rowLimit.getD settings.rowLimit
    rowOffset := r.rowOffset.getD 0
    timeseriesLimit := r.timeseriesLimit.getD 0
    timeseriesLimitMetric := r.timeseriesLimitMetric
    orderDesc := r.orderDesc.getD true
    extras := migrated.extras
    orderby := r.orderby.getD []
    postProcessing := postProcessing
    isRowcount := r.isRowcount.getD false
    warnings := migrated.warnings }

/-- The query that a JSON value means. -/
def ofJson (settings : Settings) (directory : Directory) (now : Instant) (v : Json) :
    Except Rejection Query := do
  let r ← Request.read v
  ofRequest settings directory now r

end Query

end ChartFeed
