import ChartFeed.Rejection

/-!
# Metrics

A metric is a name that the datasource knows, or is defined in the query.

* `Metric.read` also takes the former way of writing a name, an object with a label;
* `Metric.label` names the column of the result: for a definition its own label, else its SQL
  expression, else its aggregate of a column, else the column.
-/

set_option autoImplicit false

namespace ChartFeed

/-- A metric of a query. -/
inductive Metric where
  | named (name : String)
  | adhoc (label : String) (definition : Dict Json)
deriving DecidableEq

namespace Metric

/-- The text under a key, unless it is empty. -/
def textAt (definition : Dict Json) (key : String) : Option String :=
  ((Dict.get? definition key).bind Json.asString?).filter fun s ↦ s != ""

/-- The column of a simple expression, and its aggregate. -/
def simpleLabel (definition : Dict Json) : Option String :=
  let column := do (← (← Dict.get? definition "column").get? "column_name").asString?
  match textAt definition "aggregate", column with
  | some aggregate, some column => some (aggregate ++ "(" ++ column ++ ")")
  | none, some column => some column
  | _, none => none

/-- The label of a definition. -/
def adhocLabel (definition : Dict Json) : Option String :=
  match textAt definition "label" with
  | some label => some label
  | none =>
    match textAt definition "expressionType" with
    | some "SQL" => textAt definition "sqlExpression"
    | some "SIMPLE" => simpleLabel definition
    | _ => none

/-- Reads a metric: a name, a definition with an expression type, or an object with a label. -/
def read : Json → Except Rejection Metric
  | .str name => .ok (.named name)
  | .obj fields =>
    if Dict.contains fields "expressionType" then
      match adhocLabel fields with
      | some label => .ok (.adhoc label fields)
      | none => .error (.invalidField "metrics" .labelUnknown)
    else
      match (Dict.get? fields "label").bind Json.asString? with
      | some label => .ok (.named label)
      | none => .error (.invalidField "metrics" .metricWithoutLabel)
  | v => .error (.invalidField "metrics" (.notMetric v))

/-- Reads metrics one after the other; the first fault counts. -/
def readEach : List Json → Except Rejection (List Metric)
  | [] => .ok []
  | v :: rest => do
    let m ← read v
    let ms ← readEach rest
    return m :: ms

/-- The name of the metric's column in the result. -/
def label : Metric → String
  | .named name => name
  | .adhoc label _ => label

/-- Whether the metric is defined in the query. -/
def isAdhoc : Metric → Bool
  | .named _ => false
  | .adhoc _ _ => true

/-- Writes a metric as its name or its definition. -/
def toJson : Metric → Json
  | .named name => .str name
  | .adhoc _ definition => .obj definition

end Metric

end ChartFeed
