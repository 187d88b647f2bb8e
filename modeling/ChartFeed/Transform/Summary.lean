import ChartFeed.Table.Grouping
import ChartFeed.Transform.Measure

/-!
# Summaries by group

`Summary` has one row for each combination of cells in the grouping columns, in ascending order,
with the aggregates of that group's rows.  Without grouping columns all rows are one group, even if
there are none.
-/

set_option autoImplicit false

namespace ChartFeed

/-- Aggregates by groups. -/
structure Summary where
  groupby : List String
  aggregates : List Aggregate
deriving DecidableEq

namespace Summary

/-- Aggregates under their names, as a request writes them. -/
def readAggregates : Reader (OrderedMap AggregateSpec) := Shape.mapping AggregateSpec.read

/-- The fields of the options. -/
def record : Record where
  name := "AggregateOptions"
  fields := [
    Field.of "groupby" .defaulted (Shape.items Shape.text),
    Field.of "aggregates" .required readAggregates]
  closed := true

/-- The options of a request. -/
structure Options where
  groupby : List String
  aggregates : OrderedMap AggregateSpec
deriving DecidableEq

/-- Reads the options. -/
def Options.read : Reader Options := fun v ↦ do
  let d ← record.entries v
  let groupby ← d.defaulted "groupby" (Shape.items Shape.text) []
  let aggregates ← d.required "aggregates" readAggregates
  return ⟨groupby, aggregates⟩

/-- The summary that the options ask for; every aggregate needs an operator. -/
def ofOptions (o : Options) : Except Rejection Summary :=
  (AggregateSpec.resolveAll none o.aggregates.entries).map fun aggregates ↦ ⟨o.groupby, aggregates⟩

/-- The groups of rows. -/
def groups (t : Table) (columns : List Column) : Grouping :=
  if columns.isEmpty then [([], List.range t.rowCount)] else Grouping.ofColumns columns

/-- The column of the keys' cells at a position. -/
def keyColumn (keys : List Key) (name : String) (position : Nat) : Column :=
  ⟨.plain name, keys.map fun key ↦ key.getD position .absent⟩

/-- The columns of the keys' cells. -/
def keyColumns (keys : List Key) (names : List String) : List Column :=
  names.zipIdx.map fun (name, position) ↦ keyColumn keys name position

/-- The aggregate of a group of rows. -/
def aggregateRows (m : Measure) (source : Column) (rows : List Nat) : Cell :=
  m.of (rows.map source.cellAt)

/-- Applies the summary to a table. -/
def apply (s : Summary) (t : Table) : Except Rejection Table := do
  t.requireAll (s.groupby ++ s.aggregates.map Aggregate.column)
  let keyed ← t.requireEach s.groupby
  let sources ← t.requireEach (s.aggregates.map Aggregate.column)
  let groups := groups t keyed
  let aggregated := (s.aggregates.zip sources).map fun (a, source) ↦
    (⟨.plain a.name, groups.map fun (_, rows) ↦ aggregateRows a.measure source rows⟩ : Column)
  Table.ofColumns (keyColumns groups.keys s.groupby ++ aggregated)

end Summary

end ChartFeed
