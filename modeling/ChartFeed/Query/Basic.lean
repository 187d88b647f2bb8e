import ChartFeed.Query.Datasource
import ChartFeed.Query.Metric
import ChartFeed.Query.Request
import ChartFeed.Query.Retired
import ChartFeed.Time.Range
import ChartFeed.Transform.Step

/-!
# Queries

A `Query` is a request with its defaults filled in, its time expressions resolved and its parts
checked.

* `Query.duplicateLabels` lists the labels that metrics and columns share, and `Query.validate`
  reports them;
* `Query.canonicalMapping` is what data sources get and cache keys start from;
* `Query.postProcess` applies the query's steps to a table.
-/

set_option autoImplicit false

namespace ChartFeed

/-- A query with everything decided. -/
structure Query where
  datasource : Option Datasource
  resultType : Option ResultType
  annotationLayers : List (Dict Json)
  appliedTimeExtras : Dict Json
  granularity : Option String
  window : Window
  /-- The time range as it was written. -/
  timeRange : Option String
  /-- The time shift as it was written, unless it is blank. -/
  timeShiftText : Option String
  timeShift : Option Span
  isTimeseries : Bool
  groupby : List String
  columns : List String
  metrics : List Metric
  filter : List Json
  rowLimit : Nat
  rowOffset : Nat
  timeseriesLimit : Nat
  timeseriesLimitMetric : Option Json
  orderDesc : Bool
  extras : Dict Json
  orderby : List (Json × Bool)
  postProcessing : List Step
  isRowcount : Bool
  warnings : List Warning
deriving DecidableEq

/-- The members that occur more than once, each once, in the order of their first occurrence. -/
def duplicates (labels : List String) : List String :=
  labels.foldl (fun acc label ↦
    if 1 < labels.count label ∧ label ∉ acc then acc ++ [label] else acc) []

namespace Query

/-- The labels of the metrics. -/
def metricNames (q : Query) : List String := q.metrics.map Metric.label

/-- The labels that metrics and columns share. -/
def duplicateLabels (q : Query) : List String := duplicates (q.metricNames ++ q.columns)

/-- Reports labels that are not unique, as a failure or as a result. -/
def validate (q : Query) (raise : Bool) : Except Rejection (Option Rejection) :=
  match q.duplicateLabels with
  | [] => .ok none
  | labels =>
    if raise then .error (.duplicateLabels labels) else .ok (some (.duplicateLabels labels))

/-- A bound of the window in milliseconds, or null. -/
def boundJson (t : Option Instant) : Json := Json.ofOption (fun t ↦ .int t.toMillis) t

/-- The fields that data sources get. -/
def canonicalMapping (q : Query) : Dict Json := [
  ("granularity", Json.ofOption .str q.granularity),
  ("groupby", Request.textsJson q.groupby),
  ("from_dttm", boundJson q.window.start),
  ("to_dttm", boundJson q.window.stop),
  ("is_rowcount", .bool q.isRowcount),
  ("is_timeseries", .bool q.isTimeseries),
  ("metrics", .arr (q.metrics.map Metric.toJson)),
  ("row_limit", .nat q.rowLimit),
  ("row_offset", .nat q.rowOffset),
  ("filter", .arr q.filter),
  ("timeseries_limit", .nat q.timeseriesLimit),
  ("timeseries_limit_metric", Json.ofOption id q.timeseriesLimitMetric),
  ("order_desc", .bool q.orderDesc),
  ("extras", .obj q.extras),
  ("columns", Request.textsJson q.columns),
  ("orderby", Request.sortTermsJson q.orderby)]

/-- Applies the query's steps to a table. -/
def postProcess (q : Query) (t : Table) : Except Rejection Table := applySteps q.postProcessing t

end Query

end ChartFeed
