import ChartFeed.Rejection
import ChartFeed.Table.Cell

/-!
# Result tables

A table is a list of named columns of cells.

* `ColumnName` has one part, or several for the columns of a pivot; a column is looked up by a
  plain name only when its name has one part;
* `Table.Rectangular` says that all columns have the same number of rows, and `Table.ofColumns`
  refuses columns for which that fails;
* `Table.upsert`, `Table.takeRows`, `Table.slice` change a table;
* `Table.ofRecords` and `Table.toRecords` exchange tables with lists of JSON objects.
-/

set_option autoImplicit false

namespace ChartFeed

/-- The name of a column, in one part or several. -/
structure ColumnName where
  parts : List String
deriving DecidableEq

namespace ColumnName

/-- A name in one part. -/
def plain (name : String) : ColumnName := ⟨[name]⟩

/-- Whether this is the plain name given. -/
def isPlain (name : ColumnName) (plainName : String) : Bool := name.parts == [plainName]

/-- The name under which a record holds the column's cell. -/
def label (name : ColumnName) : String := ", ".intercalate name.parts

/-- The name for people: several parts stand in parentheses. -/
def display (name : ColumnName) : String :=
  match name.parts with
  | [only] => only
  | parts => "(" ++ ", ".intercalate parts ++ ")"

end ColumnName

/-- A named column of cells. -/
structure Column where
  name : ColumnName
  cells : List Cell
deriving DecidableEq

namespace Column

/-- The numeric view of every cell. -/
def numbers (c : Column) : List (Option Float) := c.cells.map Cell.toFloat?

/-- Some cell is present, and all that are hold numbers. -/
def isNumeric (c : Column) : Bool :=
  let present := c.cells.filter fun cell ↦ !cell.isAbsent
  !present.isEmpty && present.all Cell.isNumeric

/-- The cell of a row; absent beyond the last. -/
def cellAt (c : Column) (row : Nat) : Cell := c.cells.getD row .absent

end Column

/-- A list of named columns. -/
structure Table where
  columns : List Column
deriving DecidableEq

namespace Table

/-- The table without columns. -/
def empty : Table := ⟨[]⟩

instance : Inhabited Table := ⟨empty⟩

/-- The number of rows is that of the first column. -/
def rowCount (t : Table) : Nat :=
  match t.columns with
  | [] => 0
  | c :: _ => c.cells.length

/-- All columns have the same number of rows. -/
def Rectangular (t : Table) : Prop := ∀ c ∈ t.columns, c.cells.length = t.rowCount

instance (t : Table) : Decidable t.Rectangular :=
  inferInstanceAs (Decidable (∀ c ∈ t.columns, _))

/-- A table of columns that all have as many rows as the first. -/
def ofColumns (columns : List Column) : Except Rejection Table :=
  let t : Table := ⟨columns⟩
  match columns.find? fun c ↦ c.cells.length != t.rowCount with
  | some c => .error (.malformedQuery (.ragged c.name.display c.cells.length t.rowCount))
  | none => .ok t

/-! ## Looking up columns -/

/-- The first column with this plain name. -/
def column? (t : Table) (name : String) : Option Column :=
  t.columns.find? fun c ↦ c.name.isPlain name

/-- The position of the first column with this plain name. -/
def index? (t : Table) (name : String) : Option Nat :=
  t.columns.findIdx? fun c ↦ c.name.isPlain name

/-- The first column with this plain name, which has to exist. -/
def require (t : Table) (name : String) : Except Rejection Column :=
  match t.column? name with
  | some c => .ok c
  | none => .error (.missingColumns [name])

/-- The names that no column has, each once, in the order in which they are first mentioned. -/
def missing (t : Table) (names : List String) : List String :=
  names.foldl (fun acc name ↦
    if (t.column? name).isNone && !acc.contains name then acc ++ [name] else acc) []

/-- Every name has to be that of a column. -/
def requireAll (t : Table) (names : List String) : Except Rejection Unit :=
  match t.missing names with
  | [] => .ok ()
  | absent => .error (.missingColumns absent)

/-- The columns with these names, in the order of the names. -/
def requireEach (t : Table) : List String → Except Rejection (List Column)
  | [] => .ok []
  | name :: rest => do
    let c ← t.require name
    let cs ← t.requireEach rest
    return c :: cs

/-! ## Changing a table -/

/-- Replaces the cells of the first column with this plain name, or appends a column. -/
def upsertColumns (name : String) (cells : List Cell) : List Column → List Column
  | [] => [⟨.plain name, cells⟩]
  | c :: rest =>
    if c.name.isPlain name then { c with cells := cells } :: rest
    else c :: upsertColumns name cells rest

/-- Replaces the cells of the first column with this plain name, or appends a column. -/
def upsert (t : Table) (name : String) (cells : List Cell) : Table :=
  ⟨upsertColumns name cells t.columns⟩

/-- Assigns the columns one after the other. -/
def upsertAll (t : Table) (assignments : List (String × List Cell)) : Table :=
  assignments.foldl (fun t a ↦ t.upsert a.1 a.2) t

/-- Appends a column whatever its name. -/
def push (t : Table) (c : Column) : Table := ⟨t.columns ++ [c]⟩

/-- The given rows in the given order, in every column. -/
def takeRows (t : Table) (rows : List Nat) : Table :=
  ⟨t.columns.map fun c ↦ { c with cells := rows.map c.cellAt }⟩

/-- The rows from `offset` on, at most `limit` of them; a limit of zero is none. -/
def slice (t : Table) (offset limit : Nat) : Table :=
  let stop := if limit = 0 then t.rowCount else min (offset + limit) t.rowCount
  t.takeRows ((List.range stop).drop (min offset stop))

/-! ## Records -/

/-- The keys of all records, each once, in the order in which they first appear. -/
def recordKeys (records : List (Dict Json)) : List String :=
  (records.flatMap Dict.keys).foldl (fun acc k ↦ if acc.contains k then acc else acc ++ [k]) []

/-- One column for each key; a record without the key has no value there. -/
def ofRecords (records : List (Dict Json)) : Table :=
  ⟨(recordKeys records).map fun key ↦
    ⟨.plain key, records.map fun r ↦ ((Dict.get? r key).map Cell.ofJson).getD .absent⟩⟩

/-- A row as a record under the labels of the columns; of columns with one label the last wins. -/
def recordAt (t : Table) (row : Nat) : Dict Json :=
  Dict.ofEntries (t.columns.map fun c ↦ (c.name.label, (c.cellAt row).toJson))

/-- Every row as a record. -/
def toRecords (t : Table) : List (Dict Json) := (List.range t.rowCount).map t.recordAt

/-- The names of the columns for people. -/
def names (t : Table) : List String := t.columns.map fun c ↦ c.name.display

end Table

end ChartFeed
