import ChartFeed.Table.Basic
import ChartFeed.Text.Blank
import ChartFeed.Transform.Statistics

/-!
# Aggregates

* `Measure` is what is computed of the cells of a group, and `Measure.of` computes it: absent and
  non-numeric cells are left out, except that counting counts every present cell;
* `AggregateSpec` is an aggregate as a request writes it, and `AggregateSpec.resolve` finds the
  measure and the column that it means.
-/

set_option autoImplicit false

namespace ChartFeed

/-- What is computed of the cells of a group. -/
inductive Measure where
  | sum
  | mean
  | median
  | least
  | greatest
  | product
  /-- The root of the mean square distance from the mean. -/
  | deviation
  | variance
  | count
  /-- The value this many hundredths of the way up. -/
  | percentile (q : Float)
deriving DecidableEq

namespace Measure

/-- A measure of the numbers in a group. -/
def ofNumbers (m : Measure) (xs : List Float) : Option Float :=
  match m with
  | .sum => some (Statistics.sum xs)
  | .mean => Statistics.mean xs
  | .median => Statistics.median xs
  | .least => Statistics.least xs
  | .greatest => Statistics.greatest xs
  | .product => some (Statistics.product xs)
  | .deviation => Statistics.deviation xs 0
  | .variance => Statistics.variance xs 0
  | .percentile q => Statistics.quantile xs (q / 100.0)
  | .count => none

/-- A measure of the cells in a group.  A group without numbers has only a count. -/
def of (m : Measure) (cells : List Cell) : Cell :=
  match m with
  | .count => .int (cells.filter fun c ↦ !c.isAbsent).length
  | m =>
    match cells.filterMap Cell.toFloat? with
    | [] => .absent
    | numbers => .ofFloat? (m.ofNumbers numbers)

/-- Measures but counts are of the numbers in a group, if there are any. -/
theorem of_eq {m : Measure} (hm : m ≠ .count) (cells : List Cell) :
    m.of cells = if cells.filterMap Cell.toFloat? = [] then .absent
      else .ofFloat? (m.ofNumbers (cells.filterMap Cell.toFloat?)) := by
  have hof : m.of cells = match cells.filterMap Cell.toFloat? with
      | [] => .absent
      | numbers => .ofFloat? (m.ofNumbers numbers) := by
    cases m with
    | count => exact absurd rfl hm
    | _ => rfl
  rw [hof]
  split
  · next hnil => rw [if_pos hnil]
  · next hne => rw [if_neg hne]

end Measure

/-- An aggregate with its name, its source and its measure. -/
structure Aggregate where
  /-- The name of the output. -/
  name : String
  /-- The column that is aggregated. -/
  column : String
  measure : Measure
deriving DecidableEq

/-- An aggregate as a request writes it. -/
structure AggregateSpec where
  /-- The column; without one it is named like the aggregate. -/
  column : Option String
  operator : Option String
  options : Dict Json
deriving DecidableEq

namespace AggregateSpec

/-- The fields of an aggregate. -/
def record : Record where
  name := "AggregateSpec"
  fields := [
    Field.of "column" .optional (Shape.optional Shape.text),
    Field.of "operator" .optional (Shape.optional Shape.text),
    Field.of "options" .defaulted Shape.fields]
  closed := true

/-- Reads an aggregate. -/
def read : Reader AggregateSpec := fun v ↦ do
  let d ← record.entries v
  let column ← d.optional "column" Shape.text
  let operator ← d.optional "operator" Shape.text
  let options ← d.defaulted "options" Shape.fields []
  return ⟨column, operator, options⟩

/-- The operators by name.  A percentile still lacks its number. -/
def operator? (name : String) : Option (Option Measure) :=
  match name with
  | "sum" => some (some .sum)
  | "mean" | "average" => some (some .mean)
  | "median" => some (some .median)
  | "min" | "amin" => some (some .least)
  | "max" | "amax" => some (some .greatest)
  | "prod" | "product" => some (some .product)
  | "std" => some (some .deviation)
  | "var" => some (some .variance)
  | "count" => some (some .count)
  | "percentile" => some none
  | _ => none

/-- A name of an operator in any case, with blanks around it and perhaps `nan` before it. -/
def plainName (written : String) : String :=
  match Text.lower (Text.trim written.toList) with
  | 'n' :: 'a' :: 'n' :: rest => String.ofList rest
  | name => String.ofList name

/-- The number of a percentile, from zero to a hundred. -/
def percentile (options : Dict Json) : Except AggregateFault Measure :=
  match (Dict.get? options "q").bind Json.asFloat? with
  | none => .error .noPercentile
  | some q => if 0.0 ≤ q ∧ q ≤ 100.0 then .ok (.percentile q) else .error .percentileRange

/-- The measure that an operator and its options mean; without an operator it is the default. -/
def measure (spec : AggregateSpec) (default : Option Measure) : Except AggregateFault Measure := do
  let chosen ← match spec.operator, default with
    | some written, _ =>
      match operator? (plainName written) with
      | some m => pure m
      | none => throw (.unknownOperator written)
    | none, some m => pure (some m)
    | none, none => throw .noOperator
  let (m, known) ← match chosen with
    | some m => pure (m, [])
    | none => do pure (← percentile spec.options, ["q"])
  match (Dict.keys spec.options).filter fun k ↦ !known.contains k with
  | [] => return m
  | stray => throw (.strayOptions stray)

/-- The aggregate that a specification under a name means. -/
def resolve (name : String) (spec : AggregateSpec) (default : Option Measure) :
    Except Rejection Aggregate :=
  match spec.measure default with
  | .ok m => .ok ⟨name, spec.column.getD name, m⟩
  | .error fault => .error (.invalidAggregator name fault)

/-- Resolves aggregates one after the other; the first fault counts. -/
def resolveAll (default : Option Measure) :
    List (String × AggregateSpec) → Except Rejection (List Aggregate)
  | [] => .ok []
  | (name, spec) :: rest => do
    let a ← resolve name spec default
    let as ← resolveAll default rest
    return a :: as

end AggregateSpec

end ChartFeed
