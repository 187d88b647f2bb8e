import ChartFeed.Json.Printer

/-!
# Stored models

`Model` says what a type needs so that its values can be kept in a store: a number that a value may
have, properties that can be set from JSON, and keys that no two stored values may share.

* `StoreFault` lists what a store turns down, `StoreFault.message` words it;
* `Model.assign` sets properties one after the other; the first that is unknown or of the wrong
  kind is the answer.
-/

set_option autoImplicit false

namespace ChartFeed

/-- What is wrong with the value of a property. -/
inductive PropertyFault where
  | notText (found : Json)
  | notBoolean (found : Json)
deriving DecidableEq

/-- The wording of a property fault. -/
def PropertyFault.message : PropertyFault → String
  | .notText found => "expected a string, got " ++ found.text
  | .notBoolean found => "expected a boolean, got " ++ found.text

/-- What a store turns down. -/
inductive StoreFault where
  /-- Two rows share a key. -/
  | notUnique (kind field value : String)
  | notFound (kind : String) (id : Int)
  | unknownProperty (kind field : String)
  | invalidProperty (kind field : String) (fault : PropertyFault)
  /-- The place where the rows are kept does not answer. -/
  | backend (text : String)
deriving DecidableEq

/-- The wording of a store fault. -/
def StoreFault.message : StoreFault → String
  | .notUnique kind field value =>
    "Unique constraint violated: " ++ kind ++ "." ++ field ++ " = " ++ value
  | .notFound kind id => kind ++ " " ++ (Number.int id).text ++ " not found"
  | .unknownProperty kind field => "Unknown field " ++ kind ++ "." ++ field
  | .invalidProperty kind field fault =>
    "Invalid value for " ++ kind ++ "." ++ field ++ ": " ++ fault.message
  | .backend text => "Storage backend error: " ++ text

/-- A property that JSON values can set. -/
abbrev Property (α : Type) := Json → Except PropertyFault (α → α)

/-- A property that holds a string. -/
def Property.text {α : Type} (set : String → α → α) : Property α
  | .str s => .ok (set s)
  | v => .error (.notText v)

/-- A property that holds a string or nothing. -/
def Property.optionalText {α : Type} (set : Option String → α → α) : Property α
  | .null => .ok (set none)
  | .str s => .ok (set (some s))
  | v => .error (.notText v)

/-- A property that holds a truth value. -/
def Property.boolean {α : Type} (set : Bool → α → α) : Property α
  | .bool b => .ok (set b)
  | v => .error (.notBoolean v)

/-- What a type needs so that a store can keep its values. -/
class Model (α : Type) where
  /-- The word for a value in messages. -/
  kind : String
  /-- A value without a number, before any property is set. -/
  blank : α
  /-- The number under which a value is stored, if it has one. -/
  id? : α → Option Int
  /-- The value with a number. -/
  withId : Int → α → α
  /-- The properties by name. -/
  properties : List (String × Property α)
  /-- The keys of a value that no other stored value may have, each with the name of its field. -/
  uniqueKeys : α → List (String × String)
  /-- A number that was given to a value is the value's number. -/
  id?_withId : ∀ id m, id? (withId id m) = some id

namespace Model

variable {α : Type} [Model α]

/-- Sets properties one after the other. -/
def assign : Dict Json → α → Except StoreFault α
  | [], m => .ok m
  | (field, v) :: rest, m =>
    match Dict.get? (properties : List (String × Property α)) field with
    | none => .error (.unknownProperty (kind α) field)
    | some property =>
      match property v with
      | .error fault => .error (.invalidProperty (kind α) field fault)
      | .ok set => assign rest (set m)

end Model

end ChartFeed
