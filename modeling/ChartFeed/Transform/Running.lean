import ChartFeed.Json.Shape
import ChartFeed.Transform.Assignment
import ChartFeed.Transform.Statistics

/-!
# Running totals

`Running` keeps a running sum, product, least or greatest value of a column.  Absent cells stay
absent and do not touch what has been accumulated.
-/

set_option autoImplicit false

namespace ChartFeed

/-- How values are accumulated. -/
inductive Accumulation where
  | sum
  | product
  | least
  | greatest
deriving DecidableEq

/-- One more value. -/
def Accumulation.combine : Accumulation → Float → Float → Float
  | .sum, a, x => a + x
  | .product, a, x => a * x
  | .least, a, x => Statistics.smaller a x
  | .greatest, a, x => Statistics.greater a x

/-- A running accumulation of columns. -/
structure Running where
  /-- Sources and destinations. -/
  columns : OrderedMap String
  accumulation : Accumulation
deriving DecidableEq

namespace Running

/-- The names of the accumulations. -/
def accumulations : List (String × Accumulation) :=
  [("sum", .sum), ("prod", .product), ("min", .least), ("max", .greatest)]

/-- The fields of the options. -/
def record : Record where
  name := "CumOptions"
  fields := [
    Field.of "columns" .required (Shape.mapping Shape.text),
    Field.of "operator" .required (Shape.variant accumulations)]
  closed := true

/-- Reads the options. -/
def read : Reader Running := fun v ↦ do
  let d ← record.entries v
  let columns ← d.required "columns" (Shape.mapping Shape.text)
  let accumulation ← d.required "operator" (Shape.variant accumulations)
  return ⟨columns, accumulation⟩

/-- The accumulated values, from what has been accumulated before. -/
def accumulate (how : Accumulation) (before : Option Float) : List (Option Float) → List Cell
  | [] => []
  | none :: rest => .absent :: accumulate how before rest
  | some x :: rest =>
    let next := match before with
      | none => x
      | some a => how.combine a x
    .float next :: accumulate how (some next) rest

/-- Applies the accumulation to a table. -/
def apply (r : Running) (t : Table) : Except Rejection Table :=
  t.assign r.columns.entries (accumulate r.accumulation none)

end Running

end ChartFeed
