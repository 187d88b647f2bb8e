import ChartFeed.Table.Basic
import ChartFeed.Json.Reader

/-!
# The stored form of a table

Tables are stored as JSON that keeps the kinds of cells apart.

* `Table.toStored` writes a table: a column is its name's parts and its cells, a cell is the name of
  its kind with its content;
* `Table.ofStored` reads the form back.  It does not ask columns to have the same length, and skips
  fields that it does not know;
* `Table.ofStoredText` reads it from text.

Doubles that JSON has no number for are written as null and cannot be read back.
-/

set_option autoImplicit false

namespace ChartFeed

namespace Cell

/-- A kind of cell with its content. -/
def tagged (kind : String) (content : Json) : Json := .obj [(kind, content)]

/-- The stored form of a cell. -/
def toStored : Cell → Json
  | .absent => .str "Null"
  | .bool b => tagged "Bool" (.bool b)
  | .int n => tagged "Int" (.int n)
  | .float x => tagged "Float" (Json.ofFloat x)
  | .text s => tagged "Str" (.str s)
  | .instant t => tagged "Timestamp" (.str (t.isoText "Z"))

/-- The kinds of cells by name. -/
def kindNames : List String := ["Null", "Bool", "Int", "Float", "Str", "Timestamp"]

/-- The content of a stored cell under the name of its kind. -/
def ofTagged (kind : String) (content : Json) : Except Mismatch Cell :=
  match kind with
  | "Null" =>
    match content with
    | .null => .ok .absent
    | v => Shape.wrongKind v "unit"
  | "Bool" => (Shape.boolean content).map .bool
  | "Int" => (Shape.signed content).map .int
  | "Float" => (Shape.float content).map .float
  | "Str" => (Shape.text content).map .text
  | "Timestamp" => do
    let s ← Shape.text content
    match Iso.relaxed s.toList with
    | some t => return .instant t
    | none => Shape.wrongKind content "a timestamp"
  | _ => .error (.unknownVariant kind kindNames)

/-- Reads the stored form of a cell. -/
def ofStored : Reader Cell
  | .str kind => if kind = "Null" then .ok .absent else .error (.unknownVariant kind kindNames)
  | .obj [(kind, content)] => ofTagged kind content
  | .obj _ => .error .severalVariants
  | v => Shape.wrongKind v "string or map"

end Cell

namespace Column

/-- The stored form of a column. -/
def toStored (c : Column) : Json :=
  .obj [("name", .arr (c.name.parts.map .str)), ("values", .arr (c.cells.map Cell.toStored))]

/-- The fields of a stored column. -/
def storedRecord : Record where
  name := "Column"
  fields := [
    Field.of "name" .required (Shape.items Shape.text),
    Field.of "values" .required (Shape.items Cell.ofStored)]
  closed := false

/-- Reads the stored form of a column. -/
def ofStored : Reader Column := fun v ↦ do
  let d ← storedRecord.entries v
  let parts ← d.required "name" (Shape.items Shape.text)
  let cells ← d.required "values" (Shape.items Cell.ofStored)
  return ⟨⟨parts⟩, cells⟩

end Column

namespace Table

/-- The stored form of a table. -/
def toStored (t : Table) : Json := .obj [("columns", .arr (t.columns.map Column.toStored))]

/-- The fields of a stored table. -/
def storedRecord : Record where
  name := "Table"
  fields := [Field.of "columns" .required (Shape.items Column.ofStored)]
  closed := false

/-- Reads the stored form of a table. -/
def ofStored : Reader Table := fun v ↦ do
  let d ← storedRecord.entries v
  let columns ← d.required "columns" (Shape.items Column.ofStored)
  return ⟨columns⟩

/-- Reads the stored form of a table from text. -/
def ofStoredText (s : String) : Option Table :=
  match Json.read s with
  | .ok v => (ofStored v).toOption
  | .error _ => none

end Table

end ChartFeed
