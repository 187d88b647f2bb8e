import ChartFeed.Json.Shape

/-!
# Datasources

A query names a datasource by kind and number.  A `Directory` lists the datasources that exist, and
`Directory.find?` looks one up: of several with one kind and number the last counts.
-/

set_option autoImplicit false

namespace ChartFeed

/-- A datasource that queries may refer to. -/
structure Datasource where
  kind : String
  id : Int
  name : String
deriving DecidableEq

namespace Datasource

/-- The identifier that goes into cache keys. -/
def uid (d : Datasource) : String := (Number.int d.id).text ++ "__" ++ d.kind

/-- The fields of a datasource. -/
def record : Record where
  name := "Datasource"
  fields := [
    Field.of "type" .required Shape.text,
    Field.of "id" .required Shape.signed,
    Field.of "name" .required Shape.text]
  closed := false

/-- Reads a datasource. -/
def read : Reader Datasource := fun v ↦ do
  let d ← record.entries v
  let kind ← d.required "type" Shape.text
  let id ← d.required "id" Shape.signed
  let name ← d.required "name" Shape.text
  return ⟨kind, id, name⟩

end Datasource

/-- The datasources that exist. -/
abbrev Directory := List Datasource

/-- The last datasource with this kind and number. -/
def Directory.find? (d : Directory) (kind : String) (id : Int) : Option Datasource :=
  d.reverse.find? fun s ↦ s.kind == kind && s.id == id

end ChartFeed
