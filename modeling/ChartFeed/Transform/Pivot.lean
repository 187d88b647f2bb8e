import ChartFeed.Transform.Summary

/-!
# Pivots

`Pivot` turns the values of some columns into columns.  There is one row for each combination of
cells in the index columns, and one column for each aggregate and each combination of cells in the
pivot columns; both kinds of combination are in ascending order.

* An absent cell in a pivot column is replaced by a text, or else its row takes no part;
* a column without a present value may be dropped, before absent cells are filled;
* a column's name has the aggregate's name before the pivot's cells, or behind them.
-/

set_option autoImplicit false

namespace ChartFeed

/-- A pivot of columns to rows. -/
structure Pivot where
  index : List String
  columns : List String
  aggregates : List Aggregate
  /-- What stands in cells without a value. -/
  cellFill : Option Cell
  /-- What stands for absent cells of the pivot columns. -/
  keyFill : Option String
  /-- Whether columns without a present value are dropped. -/
  dropEmpty : Bool
  /-- Whether the pivot's cells come before the aggregate, in names and in order. -/
  keyFirst : Bool
deriving DecidableEq

namespace Pivot

/-! ## Options -/

/-- The options of a request. -/
structure Options where
  index : List String
  columns : List String
  aggregates : OrderedMap AggregateSpec
  cellFill : Option Json
  keyFill : Option String
  dropEmpty : Bool
  keyFirst : Bool
deriving DecidableEq

/-- The fields of the options. -/
def record : Record where
  name := "PivotOptions"
  fields := [
    Field.of "index" .required (Shape.items Shape.text),
    Field.of "columns" .defaulted (Shape.items Shape.text),
    Field.of "aggregates" .required Summary.readAggregates,
    Field.of "metric_fill_value" .defaulted (Shape.optional Shape.any),
    Field.of "column_fill_value" .defaulted (Shape.optional Shape.text),
    Field.of "drop_missing_columns" .defaulted Shape.boolean,
    Field.of "combine_value_with_metric" .defaulted Shape.boolean]
  closed := true

/-- Reads the options. -/
def Options.read : Reader Options := fun v ↦ do
  let d ← record.entries v
  let index ← d.required "index" (Shape.items Shape.text)
  let columns ← d.defaulted "columns" (Shape.items Shape.text) []
  let aggregates ← d.required "aggregates" Summary.readAggregates
  let cellFill ← d.optional "metric_fill_value" Shape.any
  let keyFill ← d.optional "column_fill_value" Shape.text
  let dropEmpty ← d.defaulted "drop_missing_columns" Shape.boolean true
  let keyFirst ← d.defaulted "combine_value_with_metric" Shape.boolean false
  return ⟨index, columns, aggregates, cellFill, keyFill, dropEmpty, keyFirst⟩

/-- The pivot that the options ask for: an index, an aggregate, and the sum unless another operator
is named. -/
def ofOptions (o : Options) : Except Rejection Pivot :=
  if o.index.isEmpty then .error (.invalidPostProcessing .noIndex)
  else if o.aggregates.isEmpty then .error (.invalidPostProcessing .noAggregate)
  else (AggregateSpec.resolveAll (some .sum) o.aggregates.entries).map fun aggregates ↦
    ⟨o.index, o.columns, aggregates, o.cellFill.map Cell.ofJson, o.keyFill, o.dropEmpty, o.keyFirst⟩

/-! ## Keys -/

/-- A cell of a pivot column; an absent one is filled, if there is something to fill it with. -/
def keyCell (fill : Option Cell) (cell : Cell) : Option Cell :=
  if cell.isAbsent then fill else some cell

/-- The pivot's cells in a row, unless one is absent and not filled. -/
def keyAt (fill : Option Cell) : List Column → Nat → Option Key
  | [], _ => some []
  | c :: rest, row =>
    match keyCell fill (c.cellAt row) with
    | none => none
    | some cell => (keyAt fill rest row).map (cell :: ·)

/-- The rows of the output, each with the pivot's combinations within it.  The groups of the index
are put under their keys once more, and a group whose key is found to compare as equal to one before
it has no row of its own. -/
def cellGroups (keyOf : Nat → Option Key) (groups : Grouping) : List (Key × Grouping) :=
  groups.foldl (fun cells (key, rows) ↦ Key.update [] (Grouping.addRows keyOf rows) key cells) []

/-- All combinations of the pivot's cells that occur in the groups, in ascending order. -/
def distinctKeys (keyOf : Nat → Option Key) (groups : Grouping) : List Key :=
  ((groups.flatMap Prod.snd).filterMap keyOf).foldl (fun acc key ↦ Key.addDistinct key acc) []

/-! ## Columns of the output -/

/-- The name of a column of the output. -/
def outputName (p : Pivot) (aggregate : String) (key : Key) : ColumnName :=
  if p.columns.isEmpty then .plain aggregate
  else if p.keyFirst then ⟨key.map Cell.display ++ [aggregate]⟩
  else ⟨aggregate :: key.map Cell.display⟩

/-- The cells of a column of the output, one for each row, before they are filled. -/
def rawCells (m : Measure) (source : Column) (key : Key) (groups : List (Key × Grouping)) :
    List Cell :=
  groups.map fun (_, inner) ↦
    match inner.rowsOf? key with
    | some rows => Summary.aggregateRows m source rows
    | none => .absent

/-- Fills the absent cells. -/
def fillCells (fill : Option Cell) (cells : List Cell) : List Cell :=
  match fill with
  | none => cells
  | some value => cells.map fun c ↦ if c.isAbsent then value else c

/-- A column of the output, unless it is empty and dropped. -/
def outputColumn (p : Pivot) (groups : List (Key × Grouping)) (a : Aggregate × Column) (key : Key) :
    Option Column :=
  let cells := rawCells a.1.measure a.2 key groups
  if p.dropEmpty && cells.all Cell.isAbsent then none
  else some ⟨p.outputName a.1.name key, fillCells p.cellFill cells⟩

/-- Every aggregate with every key, in the order of the output. -/
def combinations (p : Pivot) (aggregates : List (Aggregate × Column)) (keys : List Key) :
    List ((Aggregate × Column) × Key) :=
  if p.keyFirst then keys.flatMap fun key ↦ aggregates.map fun a ↦ (a, key)
  else aggregates.flatMap fun a ↦ keys.map fun key ↦ (a, key)

/-- Applies the pivot to a table. -/
def apply (p : Pivot) (t : Table) : Except Rejection Table := do
  t.requireAll (p.index ++ p.columns ++ p.aggregates.map Aggregate.column)
  let indexed ← t.requireEach p.index
  let pivoted ← t.requireEach p.columns
  let sources ← t.requireEach (p.aggregates.map Aggregate.column)
  let keyOf := keyAt (p.keyFill.map Cell.text) pivoted
  let rows := Grouping.ofColumns indexed
  let groups := cellGroups keyOf rows
  let combined := p.combinations (p.aggregates.zip sources) (distinctKeys keyOf rows)
  Table.ofColumns (Summary.keyColumns (groups.map Prod.fst) p.index
    ++ combined.filterMap fun (a, key) ↦ p.outputColumn groups a key)

end Pivot

end ChartFeed
