import ChartFeed.Host.Fault
import ChartFeed.Json.Reader
import ChartFeed.Query.Basic

/-!
# Data sources

A `Source` gives the result table of a query; its state is whatever it needs.

* `Source.inMemory` gives rows of a fixed table and counts how often it is asked;
* `Source.ofRecords` gives rows of records that are written as JSON text.

Both give the rows that the offset and the limit of the query ask for (`limitRows`).
-/

set_option autoImplicit false

namespace ChartFeed

/-- Why a source has no result. -/
inductive SourceFault where
  | unreadable (path : String) (fault : FileFault)
  /-- A file does not hold a list of records. -/
  | malformed (path : String)
  /-- The place where the query is executed fails. -/
  | backend (text : String)
deriving DecidableEq

/-- The wording of a source fault. -/
def SourceFault.message : SourceFault → String
  | .unreadable path fault => "Failed to read " ++ path ++ ": " ++ fault.message
  | .malformed path => "Malformed result set: " ++ path
  | .backend text => "Query execution failed: " ++ text

/-- Executes queries. -/
structure Source (ω : Type) where
  name : String
  execute : Query → ω → Except SourceFault Table × ω

/-- The rows from an offset on, at most so many; a limit of zero is none.  A table that is wanted
whole stays as it is. -/
def limitRows (t : Table) (offset limit : Nat) : Table :=
  if offset = 0 ∧ (limit = 0 ∨ t.rowCount ≤ limit) then t else t.slice offset limit

namespace Source

/-- The rows of a table that a query asks for. -/
def window (q : Query) (t : Table) : Table := limitRows t q.rowOffset q.rowLimit

/-- Rows of a fixed table.  The state counts the executions. -/
def inMemory (t : Table) : Source Nat where
  name := "memory"
  execute q count := (.ok (window q t), count + 1)

/-- The fields of values that are all objects. -/
def records? : List Json → Option (List (Dict Json))
  | [] => some []
  | .obj fields :: rest => (records? rest).map (fields :: ·)
  | _ :: _ => none

/-- The records that a text lists. -/
def recordsOfText? (text : String) : Option (List (Dict Json)) :=
  match Json.parse text with
  | .ok (.arr items) => records? items
  | _ => none

/-- The table of a file with this text. -/
def tableOfText (path : String) : Except FileFault String → Except SourceFault Table
  | .error fault => .error (.unreadable path fault)
  | .ok text =>
    match recordsOfText? text with
    | some records => .ok (Table.ofRecords records)
    | none => .error (.malformed path)

/-- Rows of the records in a file. -/
def ofRecords {ω : Type} (path : String) (content : Except FileFault String) : Source ω where
  name := "json-file"
  execute q w := ((tableOfText path content).map (window q), w)

end Source

end ChartFeed
