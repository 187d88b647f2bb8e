import ChartFeed.Json.Shape

/-!
# Why a query is turned down

* `Rejection` lists every reason for which a query, a post-processing step or a table is turned
  down, and `Rejection.message` words it;
* `OptionFault`, `AggregateFault`, `FieldFault` and `QueryFault` are the causes inside a reason.

Each constructor is a cause; the text is made in one place, here.
-/

set_option autoImplicit false

namespace ChartFeed

/-- What is wrong with the options of a post-processing step. -/
inductive OptionFault where
  | shape (m : Mismatch)
  | noWindow
  | zeroWindow
  | tooManyPeriods (minimum window : Nat)
  /-- Options of the rolling type are given to a type that has none. -/
  | strayTypeOptions
  /-- The quantile is absent or not between zero and one. -/
  | badQuantile
  | namesWithoutColumns
  /-- There are more or fewer new names than columns. -/
  | namesUnlikeColumns
deriving DecidableEq

/-- The wording of an option fault. -/
def OptionFault.message : OptionFault → String
  | .shape m => m.message
  | .noWindow => "Undefined window for rolling operation"
  | .zeroWindow => "Window must be > 0"
  | .tooManyPeriods minimum window =>
    "min_periods " ++ Nat.repr minimum ++ " must be <= window " ++ Nat.repr window
  | .strayTypeOptions => "rolling_type_options are only supported for quantile"
  | .badQuantile => "quantile requires rolling_type_options.quantile between 0 and 1"
  | .namesWithoutColumns => "rename_columns requires columns"
  | .namesUnlikeColumns => "`rename_columns` must have the same length as `columns`"

/-- What is wrong with an aggregate. -/
inductive AggregateFault where
  | unknownOperator (name : String)
  | noOperator
  | noPercentile
  /-- The percentile is not between zero and a hundred. -/
  | percentileRange
  | strayOptions (names : List String)
deriving DecidableEq

/-- The wording of an aggregate fault. -/
def AggregateFault.message : AggregateFault → String
  | .unknownOperator name => "Invalid numpy function: " ++ name
  | .noOperator => "Operator undefined for aggregator"
  | .noPercentile => "percentile requires options.q"
  | .percentileRange => "percentile options.q must be between 0 and 100"
  | .strayOptions names => "unsupported options: " ++ ", ".intercalate names

/-- What is wrong with the list of post-processing steps, their options apart. -/
inductive StepFault where
  | notAnObject
  | noIndex
  | noAggregate
deriving DecidableEq

/-- The wording of a step fault. -/
def StepFault.message : StepFault → String
  | .notAnObject => "post processing step must be an object"
  | .noIndex => "Pivot operation requires at least one index"
  | .noAggregate => "Pivot operation must include at least one aggregate"

/-- What is wrong with the value of a field of a query. -/
inductive FieldFault where
  | notText
  /-- A metric that is neither a name nor an object. -/
  | notMetric (v : Json)
  /-- A metric written as an object without a label. -/
  | metricWithoutLabel
  /-- The label of a metric defined in the query cannot be told. -/
  | labelUnknown
deriving DecidableEq

/-- The wording of a field fault. -/
def FieldFault.message : FieldFault → String
  | .notText => "expected a string"
  | .notMetric v => "expected a metric name or definition, got " ++ v.text
  | .metricWithoutLabel => "legacy metric objects must carry a string `label`"
  | .labelUnknown => "unable to derive a label for ad-hoc metric"

/-- What is wrong with a query or a table as a whole. -/
inductive QueryFault where
  | notAnObject
  | shape (m : Mismatch)
  /-- A column does not have as many rows as the first. -/
  | ragged (column : String) (rows expected : Nat)
deriving DecidableEq

/-- The wording of a query fault. -/
def QueryFault.message : QueryFault → String
  | .notAnObject => "query must be a JSON object"
  | .shape m => m.message
  | .ragged column rows expected =>
    "column " ++ column ++ " has " ++ Nat.repr rows ++ " rows, expected " ++ Nat.repr expected

/-- Why a query is turned down. -/
inductive Rejection where
  | duplicateLabels (labels : List String)
  | missingOperation
  | unknownOperation (operation : String)
  | invalidOptions (operation : String) (fault : OptionFault)
  | missingColumns (names : List String)
  | invalidAggregator (name : String) (fault : AggregateFault)
  | invalidPostProcessing (fault : StepFault)
  /-- A time expression cannot be read, or leads out of the range of instants. -/
  | timeParse (expression : String)
  /-- A named day before the first of the calendar or after its last.  No check expects one, so
  this ends the run. -/
  | outOfCalendar
  | invertedTimeRange
  | invalidField (field : String) (fault : FieldFault)
  | malformedQuery (fault : QueryFault)
  | datasourceNotFound (kind : String) (id : Int)
deriving DecidableEq

/-- The wording of a rejection. -/
def Rejection.message : Rejection → String
  | .duplicateLabels labels =>
    "Duplicate column/metric labels: " ++ ", ".intercalate (labels.map fun l ↦ "\"" ++ l ++ "\"")
      ++ ". Please make sure all columns and metrics have a unique label."
  | .missingOperation => "`operation` property of post processing object undefined"
  | .unknownOperation operation => "Unsupported post processing operation: " ++ operation
  | .invalidOptions operation fault =>
    "Invalid options for post processing operation " ++ operation ++ ": " ++ fault.message
  | .missingColumns names =>
    "Referenced columns not available in DataFrame: " ++ ", ".intercalate names
  | .invalidAggregator name fault => "Invalid aggregator for " ++ name ++ ": " ++ fault.message
  | .invalidPostProcessing fault => "Invalid post processing options: " ++ fault.message
  | .timeParse expression => "Unable to parse time expression: " ++ expression
  | .outOfCalendar => "the calendar does not reach this day"
  | .invertedTimeRange => "From date cannot be larger than to date"
  | .invalidField field fault => "Invalid value for `" ++ field ++ "`: " ++ fault.message
  | .malformedQuery fault => "Malformed query object: " ++ fault.message
  | .datasourceNotFound kind id =>
    "Datasource " ++ kind ++ "/" ++ (Number.int id).text ++ " could not be found"

end ChartFeed
