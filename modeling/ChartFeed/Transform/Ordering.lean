import ChartFeed.Json.Shape
import ChartFeed.Table.Grouping

/-!
# Sorting and selecting

* `RowSort` sorts the rows of a table by several columns, the first of which matters most; absent
  cells come last whichever way a column is sorted, and rows that agree keep their order;
* `Selection` keeps some columns, in a given order and under given names.
-/

set_option autoImplicit false

namespace ChartFeed

/-- A sort of the rows. -/
structure RowSort where
  /-- The columns, and whether each is sorted upward. -/
  columns : OrderedMap Bool
deriving DecidableEq

namespace RowSort

/-- The fields of the options. -/
def record : Record where
  name := "SortOptions"
  fields := [Field.of "columns" .required (Shape.mapping Shape.boolean)]
  closed := true

/-- Reads the options. -/
def read : Reader RowSort := fun v ↦ do
  let d ← record.entries v
  let columns ← d.required "columns" (Shape.mapping Shape.boolean)
  return ⟨columns⟩

/-- Compares two cells upward or downward; absent ones are last either way. -/
def cellOrder (ascending : Bool) (a b : Cell) : Ordering :=
  match a.isAbsent, b.isAbsent with
  | true, true => .eq
  | true, false => .gt
  | false, true => .lt
  | false, false => if ascending then a.order b else b.order a

/-- Compares two rows by the columns in turn. -/
def rowOrder (keys : List (Column × Bool)) (a b : Nat) : Ordering :=
  match keys with
  | [] => .eq
  | (c, ascending) :: rest =>
    (cellOrder ascending (c.cellAt a) (c.cellAt b)).then (rowOrder rest a b)

/-- The rows in order. -/
def sortedRows (keys : List (Column × Bool)) (count : Nat) : List Nat :=
  sortStably (fun a b ↦ rowOrder keys a b == .lt) (List.range count)

/-- Applies the sort to a table. -/
def apply (s : RowSort) (t : Table) : Except Rejection Table := do
  t.requireAll s.columns.keys
  let sources ← t.requireEach s.columns.keys
  return t.takeRows (sortedRows (sources.zip (s.columns.entries.map Prod.snd)) t.rowCount)

end RowSort

/-- A choice of columns. -/
structure Selection where
  /-- The columns and their new names, in the order of the output. -/
  columns : OrderedMap String
deriving DecidableEq

namespace Selection

/-- The fields of the options. -/
def record : Record where
  name := "SelectOptions"
  fields := [Field.of "columns" .required (Shape.mapping Shape.text)]
  closed := true

/-- Reads the options. -/
def read : Reader Selection := fun v ↦ do
  let d ← record.entries v
  let columns ← d.required "columns" (Shape.mapping Shape.text)
  return ⟨columns⟩

/-- Applies the selection to a table. -/
def apply (s : Selection) (t : Table) : Except Rejection Table := do
  t.requireAll s.columns.keys
  let sources ← t.requireEach s.columns.keys
  Table.ofColumns ((s.columns.entries.zip sources).map fun (names, c) ↦
    ⟨.plain names.2, c.cells⟩)

end Selection

end ChartFeed
