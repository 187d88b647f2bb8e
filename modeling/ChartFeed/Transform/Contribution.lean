import ChartFeed.Rejection
import ChartFeed.Table.Basic
import ChartFeed.Transform.Statistics

/-!
# Contributions to a total

`Contribution` divides every value by the total of its column or of its row.  Where the total is
zero there is no share.

* Without named columns all columns that hold numbers take part, the time axis and hierarchical
  columns apart;
* named columns may be given new names, as many as there are columns.
-/

set_option autoImplicit false

namespace ChartFeed

/-- Which total a value is a share of. -/
inductive Orientation where
  | column
  | row
deriving DecidableEq

/-- Shares of totals. -/
structure Contribution where
  orientation : Orientation
  /-- The columns that take part with the names for the results, or none for all that can. -/
  targets : Option (List (String × String))
deriving DecidableEq

/-- The name of the time axis of a time series. -/
def timeAxis : String := "__timestamp"

namespace Contribution

/-! ## Options -/

/-- The names of the orientations. -/
def orientations : List (String × Orientation) := [("column", .column), ("row", .row)]

/-- The options of a request. -/
structure Options where
  orientation : Orientation
  columns : Option (List String)
  names : Option (List String)
deriving DecidableEq

/-- The fields of the options. -/
def record : Record where
  name := "ContributionOptions"
  fields := [
    Field.of "orientation" .defaulted (Shape.variant orientations),
    Field.of "columns" .defaulted (Shape.optional (Shape.items Shape.text)),
    Field.of "rename_columns" .defaulted (Shape.optional (Shape.items Shape.text))]
  closed := true

/-- Reads the options. -/
def Options.read : Reader Options := fun v ↦ do
  let d ← record.entries v
  let orientation ← d.defaulted "orientation" (Shape.variant orientations) .column
  let columns ← d.optional "columns" (Shape.items Shape.text)
  let names ← d.optional "rename_columns" (Shape.items Shape.text)
  return ⟨orientation, columns, names⟩

/-- The contribution that the options ask for. -/
def ofOptions (o : Options) : Except OptionFault Contribution :=
  match o.columns, o.names with
  | none, none => .ok ⟨o.orientation, none⟩
  | none, some _ => .error .namesWithoutColumns
  | some columns, none => .ok ⟨o.orientation, some (columns.zip columns)⟩
  | some columns, some names =>
    if columns.length = names.length then .ok ⟨o.orientation, some (columns.zip names)⟩
    else .error .namesUnlikeColumns

/-! ## Shares -/

/-- A value as a share of a total. -/
def share (total : Float) (value : Option Float) : Cell :=
  if total == 0.0 then .absent else .ofFloat? (value.map (· / total))

/-- The shares of the values in their column's total. -/
def columnShares (values : List (Option Float)) : List Cell :=
  values.map (share (Statistics.sum (values.filterMap id)))

/-- The total of a row over several columns. -/
def rowTotal (series : List (List (Option Float))) (row : Nat) : Float :=
  Statistics.sum (series.filterMap fun values ↦ (values[row]?).join)

/-- The shares of the values in their rows' totals. -/
def rowShares (totals : List Float) (values : List (Option Float)) : List Cell :=
  (values.zip totals).map fun (value, total) ↦ share total value

/-- The shares of all columns that take part. -/
def shares (orientation : Orientation) (rows : Nat) (series : List (List (Option Float))) :
    List (List Cell) :=
  match orientation with
  | .column => series.map columnShares
  | .row => series.map (rowShares ((List.range rows).map (rowTotal series)))

/-- Whether a column takes part when none are named. -/
def takesPart (c : Column) : Bool :=
  c.name.parts.length == 1 && !c.name.isPlain timeAxis && c.isNumeric

/-- The columns that take part in a table, with the names for the results. -/
def targetsIn (c : Contribution) (t : Table) : Except Rejection (List (String × String)) :=
  match c.targets with
  | some targets => (t.requireAll (targets.map Prod.fst)).map fun _ ↦ targets
  | none => .ok ((t.columns.filter takesPart).map fun c ↦ (c.name.display, c.name.display))

/-- Applies the contribution to a table. -/
def apply (c : Contribution) (t : Table) : Except Rejection Table := do
  let targets ← c.targetsIn t
  let sources ← t.requireEach (targets.map Prod.fst)
  let computed := shares c.orientation t.rowCount (sources.map Column.numbers)
  return t.upsertAll ((targets.map Prod.snd).zip computed)

end Contribution

end ChartFeed
