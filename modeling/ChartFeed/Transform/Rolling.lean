import ChartFeed.Rejection
import ChartFeed.Transform.Assignment
import ChartFeed.Transform.Statistics

/-!
# Rolling windows

`Rolling` computes a statistic of each row and the rows before it, as far as a window reaches, or
the total of all rows so far.

* `RollingWindow` has at least one row, and asks for no more present values than it has rows;
* `RollingMode.cells` computes a column: a row with too few present values has no value, except that
  counting always has one;
* `Rolling.ofOptions` checks the options of a request.
-/

set_option autoImplicit false

namespace ChartFeed

/-- What is computed of a window. -/
inductive RollingStatistic where
  | sum
  | mean
  | count
  | least
  | greatest
  | median
  /-- The root of the variance. -/
  | deviation
  /-- The mean square distance from the mean, over one fewer than there are. -/
  | variance
  /-- The value at this fraction of the way up. -/
  | quantile (p : Float)
deriving DecidableEq

/-- The rows that a window covers, and how many of them have to be present. -/
structure RollingWindow where
  /-- The number of rows, the row itself included. -/
  size : Nat
  /-- How many present values make a value. -/
  minimum : Nat
  size_pos : 0 < size
  minimum_le : minimum ≤ size
deriving DecidableEq

/-- A total of all rows so far, or a statistic of a window. -/
inductive RollingMode where
  | total
  | windowed (statistic : RollingStatistic) (window : RollingWindow)
deriving DecidableEq

namespace RollingStatistic

/-- The statistic of numbers, at least one. -/
def ofNumbers (s : RollingStatistic) (xs : List Float) : Option Float :=
  match s with
  | .sum => some (Statistics.sum xs)
  | .mean => Statistics.mean xs
  | .count => some (Float.ofNat xs.length)
  | .least => Statistics.least xs
  | .greatest => Statistics.greatest xs
  | .median => Statistics.median xs
  | .deviation => Statistics.deviation xs 1
  | .variance => Statistics.variance xs 1
  | .quantile p => Statistics.quantile xs p

/-- The cell of a window with these present values.  The sum of none is zero. -/
def cell (s : RollingStatistic) (minimum : Nat) (present : List Float) : Cell :=
  match s with
  | .count => .float (Float.ofNat present.length)
  | s =>
    if present.length < minimum then .absent
    else match present, s with
      | [], .sum => .float 0.0
      | [], _ => .absent
      | present, s => .ofFloat? (s.ofNumbers present)

end RollingStatistic

namespace RollingMode

/-- The totals of the present values so far; absent rows stay absent. -/
def totals (before : Float) : List (Option Float) → List Cell
  | [] => []
  | none :: rest => .absent :: totals before rest
  | some x :: rest => .float (before + x) :: totals (before + x) rest

/-- The present values of the window that ends in a row. -/
def presentAt (values : List (Option Float)) (size row : Nat) : List Float :=
  ((values.take (row + 1)).drop (row + 1 - size)).filterMap id

/-- The cells of a column. -/
def cells (mode : RollingMode) (values : List (Option Float)) : List Cell :=
  match mode with
  | .total => totals 0.0 values
  | .windowed s w =>
    (List.range values.length).map fun row ↦ s.cell w.minimum (presentAt values w.size row)

end RollingMode

/-- Rolling statistics of columns. -/
structure Rolling where
  /-- Sources and destinations. -/
  columns : OrderedMap String
  mode : RollingMode
deriving DecidableEq

/-! ## Options -/

/-- The rolling types by name; a quantile still lacks its fraction. -/
inductive RollingType where
  | plain (s : RollingStatistic)
  | quantile
  | total
deriving DecidableEq

/-- The options of a request. -/
structure RollingOptions where
  columns : OrderedMap String
  type : RollingType
  window : Option Nat
  typeOptions : Option (Dict Json)
  minimum : Option Nat
deriving DecidableEq

namespace RollingOptions

/-- The names of the rolling types. -/
def types : List (String × RollingType) := [
  ("sum", .plain .sum), ("mean", .plain .mean), ("count", .plain .count), ("min", .plain .least),
  ("max", .plain .greatest), ("median", .plain .median), ("std", .plain .deviation),
  ("var", .plain .variance), ("quantile", .quantile), ("cumsum", .total)]

/-- The fields of the options. -/
def record : Record where
  name := "RollingOptions"
  fields := [
    Field.of "columns" .required (Shape.mapping Shape.text),
    Field.of "rolling_type" .required (Shape.variant types),
    Field.of "window" .defaulted (Shape.optional Shape.unsigned),
    Field.of "rolling_type_options" .defaulted (Shape.optional Shape.fields),
    Field.of "min_periods" .defaulted (Shape.optional Shape.unsigned)]
  closed := true

/-- Reads the options. -/
def read : Reader RollingOptions := fun v ↦ do
  let d ← record.entries v
  let columns ← d.required "columns" (Shape.mapping Shape.text)
  let type ← d.required "rolling_type" (Shape.variant types)
  let window ← d.optional "window" Shape.unsigned
  let typeOptions ← d.optional "rolling_type_options" Shape.fields
  let minimum ← d.optional "min_periods" Shape.unsigned
  return ⟨columns, type, window, typeOptions, minimum⟩

/-- The window that the options ask for.  Without a minimum, all of its rows have to be present. -/
def rollingWindow (o : RollingOptions) : Except OptionFault RollingWindow :=
  match o.window with
  | none => .error .noWindow
  | some size =>
    if hs : 0 < size then
      match o.minimum with
      | none => .ok ⟨size, size, hs, Nat.le_refl size⟩
      | some m =>
        if hm : m ≤ size then .ok ⟨size, m, hs, hm⟩ else .error (.tooManyPeriods m size)
    else .error .zeroWindow

/-- The fraction of a quantile, from zero to one. -/
def fraction (options : Dict Json) : Except OptionFault Float :=
  match (Dict.get? options "quantile").bind Json.asFloat? with
  | some p => if 0.0 ≤ p ∧ p ≤ 1.0 then .ok p else .error .badQuantile
  | none => .error .badQuantile

/-- The mode that the options ask for.  Only quantiles take options of their own. -/
def mode (o : RollingOptions) : Except OptionFault RollingMode := do
  let options := o.typeOptions.getD []
  match o.type with
  | .total =>
    if options.isEmpty then return .total else throw .strayTypeOptions
  | .plain s =>
    let w ← o.rollingWindow
    if options.isEmpty then return .windowed s w else throw .strayTypeOptions
  | .quantile =>
    let w ← o.rollingWindow
    let p ← fraction options
    return .windowed (.quantile p) w

end RollingOptions

namespace Rolling

/-- The rolling statistics that the options ask for. -/
def ofOptions (o : RollingOptions) : Except OptionFault Rolling :=
  o.mode.map fun mode ↦ ⟨o.columns, mode⟩

/-- Applies the rolling statistics to a table. -/
def apply (r : Rolling) (t : Table) : Except Rejection Table :=
  t.assign r.columns.entries r.mode.cells

end Rolling

end ChartFeed
