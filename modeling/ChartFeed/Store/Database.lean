import ChartFeed.Store.Model

/-!
# Databases

A `Database` is a connection that charts can be made from: its name, its address and what users
may do with it.  Its number cannot be set as a property, and no two stored databases share a name.
-/

set_option autoImplicit false

namespace ChartFeed

/-- A connection that charts can be made from. -/
structure Database where
  id : Option Int := none
  name : String := ""
  /-- The address of the connection. -/
  uri : String := ""
  /-- Whether the query editor offers it. -/
  exposed : Bool := false
  allowTables : Bool := false
  allowViews : Bool := false
  allowWrites : Bool := false
  allowAsync : Bool := false
  allowUploads : Bool := false
  allowMetadataAcrossSchemas : Bool := false
  /-- The schema that new tables go to. -/
  schemaForTables : Option String := none
deriving DecidableEq, Inhabited

namespace Database

/-- The properties by name. -/
def properties : List (String × Property Database) := [
  ("database_name", .text fun s d ↦ { d with name := s }),
  ("sqlalchemy_uri", .text fun s d ↦ { d with uri := s }),
  ("expose_in_sqllab", .boolean fun b d ↦ { d with exposed := b }),
  ("allow_ctas", .boolean fun b d ↦ { d with allowTables := b }),
  ("allow_cvas", .boolean fun b d ↦ { d with allowViews := b }),
  ("allow_dml", .boolean fun b d ↦ { d with allowWrites := b }),
  ("allow_run_async", .boolean fun b d ↦ { d with allowAsync := b }),
  ("allow_csv_upload", .boolean fun b d ↦ { d with allowUploads := b }),
  ("allow_multi_schema_metadata_fetch",
    .boolean fun b d ↦ { d with allowMetadataAcrossSchemas := b }),
  ("force_ctas_schema", .optionalText fun s d ↦ { d with schemaForTables := s })]

instance : Model Database where
  kind := "database"
  blank := {}
  id? := id
  withId n d := { d with id := some n }
  properties := properties
  uniqueKeys d := [("database_name", d.name)]
  id?_withId _ _ := rfl

/-- The database as an object with all its fields. -/
def toJson (d : Database) : Json := .obj [
  ("id", Json.ofOption .int d.id),
  ("database_name", .str d.name),
  ("sqlalchemy_uri", .str d.uri),
  ("expose_in_sqllab", .bool d.exposed),
  ("allow_ctas", .bool d.allowTables),
  ("allow_cvas", .bool d.allowViews),
  ("allow_dml", .bool d.allowWrites),
  ("allow_run_async", .bool d.allowAsync),
  ("allow_csv_upload", .bool d.allowUploads),
  ("allow_multi_schema_metadata_fetch", .bool d.allowMetadataAcrossSchemas),
  ("force_ctas_schema", Json.ofOption .str d.schemaForTables)]

end Database

end ChartFeed
