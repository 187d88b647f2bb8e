import ChartFeed.Rejection

/-!
# Retired fields

Requests may still use fields of former versions.  `migrate` moves their values to where they belong
now and warns about each.

* A retired field that is there always brings a warning;
* a truthy value replaces the present one, with a second warning if that was already set.
-/

set_option autoImplicit false

namespace ChartFeed

/-- A field of former versions and its name today. -/
structure RetiredField where
  oldName : String
  newName : String
deriving DecidableEq

/-- What a user of a retired field is told. -/
inductive Warning where
  | renamed (f : RetiredField)
  | movedToExtras (f : RetiredField)
  /-- The field was set under its new name too. -/
  | overwritten (f : RetiredField)
  | overwrittenInExtras (f : RetiredField)
deriving DecidableEq

/-- The wording of a warning. -/
def Warning.message : Warning → String
  | .renamed f =>
    "The field `" ++ f.oldName ++ "` is deprecated, please use `" ++ f.newName ++ "` instead."
  | .movedToExtras f =>
    "The field `" ++ f.oldName ++ "` is deprecated and should be passed to `extras` via the `"
      ++ f.newName ++ "` property."
  | .overwritten f =>
    "The field `" ++ f.newName ++ "` is already populated, replacing value with contents from `"
      ++ f.oldName ++ "`."
  | .overwrittenInExtras f =>
    "The field `" ++ f.newName
      ++ "` is already populated in `extras`, replacing value with contents from `"
      ++ f.oldName ++ "`."

namespace RetiredField

/-- The former name of the granularity. -/
def granularity : RetiredField := ⟨"granularity_sqla", "granularity"⟩

/-- The fields that became part of the extras. -/
def inExtras : List RetiredField := [
  ⟨"where", "where"⟩, ⟨"having", "having"⟩, ⟨"having_filters", "having_druid"⟩,
  ⟨"druid_time_origin", "druid_time_origin"⟩]

end RetiredField

/-- The fields that retired ones may set, and the warnings so far. -/
structure Migration where
  granularity : Option String
  extras : Dict Json
  warnings : List Warning
deriving DecidableEq

namespace Migration

/-- Sets the granularity from its former name. -/
def moveGranularity (legacy : Dict Json) (m : Migration) : Except Rejection Migration :=
  let field := RetiredField.granularity
  match Dict.get? legacy field.oldName with
  | none => .ok m
  | some v =>
    let warnings := m.warnings ++ [.renamed field]
    if v.truthy then
      match v with
      | .str s =>
        let overwritten := if m.granularity.isSome then [.overwritten field] else []
        .ok { m with granularity := some s, warnings := warnings ++ overwritten }
      | _ => .error (.invalidField field.oldName .notText)
    else .ok { m with warnings := warnings }

/-- Whether the extras have a value under a key, null apart. -/
def isPopulated (extras : Dict Json) (key : String) : Bool :=
  match Dict.get? extras key with
  | none | some .null => false
  | some _ => true

/-- Moves a field into the extras. -/
def moveToExtras (legacy : Dict Json) (m : Migration) (field : RetiredField) : Migration :=
  match Dict.get? legacy field.oldName with
  | none => m
  | some v =>
    let warnings := m.warnings ++ [.movedToExtras field]
    if v.truthy then
      let overwritten :=
        if isPopulated m.extras field.newName then [.overwrittenInExtras field] else []
      { m with
        extras := Dict.insert m.extras field.newName v
        warnings := warnings ++ overwritten }
    else { m with warnings := warnings }

/-- Moves all retired fields among the unknown ones of a request. -/
def run (legacy : Dict Json) (granularity : Option String) (extras : Dict Json) :
    Except Rejection Migration :=
  (moveGranularity legacy ⟨granularity, extras, []⟩).map fun m ↦
    RetiredField.inExtras.foldl (moveToExtras legacy) m

end Migration

end ChartFeed
