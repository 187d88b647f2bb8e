import ChartFeed.Json.Shape
import ChartFeed.Transform.Assignment

/-!
# Differences between rows

`Difference` subtracts from each value the one some rows before, or after when the distance is
negative.  Where there is no such row, or a value is absent, so is the difference.  The place of the
row is computed with integers of 64 bits.
-/

set_option autoImplicit false

namespace ChartFeed

/-- The difference of columns to themselves some rows away. -/
structure Difference where
  /-- Sources and destinations. -/
  columns : OrderedMap String
  /-- How many rows back; negative looks ahead. -/
  periods : Int
deriving DecidableEq

namespace Difference

/-- The fields of the options. -/
def record : Record where
  name := "DiffOptions"
  fields := [
    Field.of "columns" .required (Shape.mapping Shape.text),
    Field.of "periods" .defaulted Shape.signed]
  closed := true

/-- Reads the options.  Without a distance it is one row back. -/
def read : Reader Difference := fun v ↦ do
  let d ← record.entries v
  let columns ← d.required "columns" (Shape.mapping Shape.text)
  let periods ← d.defaulted "periods" Shape.signed 1
  return ⟨columns, periods⟩

/-- The place of the row that a row is compared with, unless it is beyond the integers of 64 bits.
No row is there. -/
def partner (row : Nat) (periods : Int) : Option Int :=
  let place := row - periods
  if fitsInt64 place then some place else none

/-- The value of a row, if there is such a row and the value is present. -/
def valueAt (values : List (Option Float)) (row : Int) : Option Float :=
  if row < 0 then none else (values[row.toNat]?).join

/-- The difference in one row. -/
def differenceAt (values : List (Option Float)) (periods : Int) (row : Nat) : Cell :=
  match valueAt values row, (partner row periods).bind (valueAt values) with
  | some a, some b => .ofFloat? (some (a - b))
  | _, _ => .absent

/-- The differences in all rows. -/
def differences (periods : Int) (values : List (Option Float)) : List Cell :=
  (List.range values.length).map (differenceAt values periods)

/-- Applies the difference to a table. -/
def apply (d : Difference) (t : Table) : Except Rejection Table :=
  t.assign d.columns.entries (differences d.periods)

end Difference

end ChartFeed
