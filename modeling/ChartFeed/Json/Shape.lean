import ChartFeed.Json.Printer
import ChartFeed.Text.Quoted

/-!
# Reading values of a given shape

A reader takes a JSON value to a value of some type or says how the two disagree.

* `Mismatch` is the disagreement and `Mismatch.message` its wording;
* `Shape.text`, `Shape.unsigned`, `Shape.items`, … read one kind of value each;
* `Record` describes a record with named fields.  The fields are checked in the order in which the
  object has them, and the first disagreement counts; a missing field is reported only when all
  that are there have been read.  An array is read as the fields in the order of the record.

So whether a record can be read does not depend on the order of the object's fields, and neither
does what is read; only the report of a failure does.
-/

set_option autoImplicit false

namespace ChartFeed

/-- What stands where something else was expected. -/
inductive Found where
  | null
  | boolean (b : Bool)
  | number (n : Number)
  | text (s : String)
  | sequence
  | mapping
deriving DecidableEq

/-- The kind of a value, with the value itself when it is a scalar. -/
def Found.of : Json → Found
  | .null => .null
  | .bool b => .boolean b
  | .num n => .number n
  | .str s => .text s
  | .arr _ => .sequence
  | .obj _ => .mapping

/-- How messages name what stands there. -/
def Found.message : Found → String
  | .null => "null"
  | .boolean b => "boolean `" ++ (if b then "true" else "false") ++ "`"
  | .number (.int n) => "integer `" ++ (Number.int n).text ++ "`"
  | .number (.float x) => "floating point `" ++ (Number.float x).text ++ "`"
  | .text s => "string " ++ Text.quoted s
  | .sequence => "sequence"
  | .mapping => "map"

/-- How a value disagrees with the shape it was read as. -/
inductive Mismatch where
  | wrongKind (found : Found) (expected : String)
  /-- An integer outside the expected range. -/
  | outOfRange (found : Found) (expected : String)
  | wrongLength (count : Nat) (expected : String)
  | unknownVariant (name : String) (known : List String)
  | unknownField (name : String) (known : List String)
  | missingField (name : String)
  | repeatedField (name : String)
  /-- A choice written as an object that does not have exactly one field. -/
  | severalVariants
  /-- None of the alternatives of a choice without names fits. -/
  | noAlternative (choice : String)
  /-- A text that is no number of a datasource. -/
  | datasourceNumber (text : String)
deriving DecidableEq

/-- A list of names, each between grave accents. -/
def nameChoice (names : List String) : String :=
  let marked := names.map fun name ↦ "`" ++ name ++ "`"
  match marked with
  | [only] => only
  | [first, second] => first ++ " or " ++ second
  | _ => "one of " ++ ", ".intercalate marked

/-- The wording of a disagreement. -/
def Mismatch.message : Mismatch → String
  | .wrongKind found expected => "invalid type: " ++ found.message ++ ", expected " ++ expected
  | .outOfRange found expected => "invalid value: " ++ found.message ++ ", expected " ++ expected
  | .wrongLength count expected => "invalid length " ++ Nat.repr count ++ ", expected " ++ expected
  | .unknownVariant name known =>
    "unknown variant `" ++ name ++ "`, "
      ++ (if known.isEmpty then "there are no variants" else "expected " ++ nameChoice known)
  | .unknownField name known =>
    "unknown field `" ++ name ++ "`, "
      ++ (if known.isEmpty then "there are no fields" else "expected " ++ nameChoice known)
  | .missingField name => "missing field `" ++ name ++ "`"
  | .repeatedField name => "duplicate field `" ++ name ++ "`"
  | .severalVariants => "invalid value: map, expected map with a single key"
  | .noAlternative choice => "data did not match any variant of untagged enum " ++ choice
  | .datasourceNumber text => "invalid datasource id: " ++ text

/-- Reads a value as one of a type. -/
abbrev Reader (α : Type) := Json → Except Mismatch α

namespace Shape

variable {α β : Type}

/-- The value is of the wrong kind. -/
def wrongKind (v : Json) (expected : String) : Except Mismatch α :=
  .error (.wrongKind (Found.of v) expected)

/-- Any value, as it is. -/
def any : Reader Json := .ok

/-- A string. -/
def text : Reader String
  | .str s => .ok s
  | v => wrongKind v "a string"

/-- A truth value. -/
def boolean : Reader Bool
  | .bool b => .ok b
  | v => wrongKind v "a boolean"

/-- An integer of 64 bits without a sign. -/
def unsigned : Reader Nat
  | .num (.int n) =>
    if 0 ≤ n ∧ n ≤ uint64Max then .ok n.toNat else .error (.outOfRange (.number (.int n)) "u64")
  | v => wrongKind v "u64"

/-- An integer of 64 bits with a sign. -/
def signed : Reader Int
  | .num (.int n) =>
    if fitsInt64 n then .ok n else .error (.outOfRange (.number (.int n)) "i64")
  | v => wrongKind v "i64"

/-- A number, as a double. -/
def float : Reader Float
  | .num n => .ok n.toFloat
  | v => wrongKind v "f64"

/-- Null, or a value of the given shape. -/
def optional (reader : Reader α) : Reader (Option α)
  | .null => .ok none
  | v => (reader v).map some

/-- Reads items one after the other; the first disagreement counts. -/
def eachItem (reader : Reader α) : List Json → Except Mismatch (List α)
  | [] => .ok []
  | v :: rest => do
    let a ← reader v
    let as ← eachItem reader rest
    return a :: as

/-- An array of values of the given shape. -/
def items (reader : Reader α) : Reader (List α)
  | .arr values => eachItem reader values
  | v => wrongKind v "a sequence"

/-- An object as it is, with repeated keys resolved. -/
def fields : Reader (Dict Json)
  | .obj entries => .ok (Dict.ofEntries entries)
  | v => wrongKind v "a map"

/-- Reads the values of fields one after the other; the first disagreement counts. -/
def eachField (reader : Reader α) : List (String × Json) → Except Mismatch (List (String × α))
  | [] => .ok []
  | (key, v) :: rest => do
    let a ← reader v
    let as ← eachField reader rest
    return (key, a) :: as

/-- An object whose values have the given shape, in its order. -/
def mapping (reader : Reader α) : Reader (OrderedMap α)
  | .obj entries => (eachField reader entries).map OrderedMap.ofEntries
  | v => wrongKind v "a mapping"

/-- An array of two values. -/
def pair (first : Reader α) (second : Reader β) : Reader (α × β)
  | .arr values =>
    match values with
    | [] => .error (.wrongLength 0 "a tuple of size 2")
    | [a] => do
      let _ ← first a
      .error (.wrongLength 1 "a tuple of size 2")
    | a :: b :: rest => do
      let x ← first a
      let y ← second b
      if rest.isEmpty then return (x, y)
      else .error (.wrongLength values.length "fewer elements in array")
  | v => wrongKind v "a tuple of size 2"

/-- The choice with this name. -/
def choose (known : List (String × α)) (name : String) : Except Mismatch α :=
  match Dict.get? known name with
  | some a => .ok a
  | none => .error (.unknownVariant name (known.map Prod.fst))

/-- One of several named choices: its name, or an object that holds null under its name. -/
def variant (known : List (String × α)) : Reader α
  | .str name => choose known name
  | .obj [(name, content)] => do
    let a ← choose known name
    match content with
    | .null => return a
    | v => wrongKind v "unit"
  | .obj _ => .error .severalVariants
  | v => wrongKind v "string or map"

end Shape

/-! ## Records -/

/-- Whether a field may be left out. -/
inductive Presence where
  /-- Never. -/
  | required
  /-- In an object, but not in an array. -/
  | optional
  /-- In an object, and at the end of an array. -/
  | defaulted
deriving DecidableEq

/-- A field of a record. -/
structure Field where
  name : String
  presence : Presence
  /-- Whether the value under this name has the field's shape. -/
  check : Json → Except Mismatch Unit

/-- A field whose values are read in a given way. -/
def Field.of {α : Type} (name : String) (presence : Presence) (reader : Reader α) : Field :=
  ⟨name, presence, fun v ↦ (reader v).map fun _ ↦ ()⟩

/-- A record with named fields. -/
structure Record where
  /-- The name that messages use. -/
  name : String
  fields : List Field
  /-- Whether fields that the record does not know are refused; otherwise they are skipped. -/
  closed : Bool

namespace Record

/-- The field with this name. -/
def field? (r : Record) (name : String) : Option Field := r.fields.find? fun f ↦ f.name == name

/-- The names of the fields. -/
def names (r : Record) : List String := r.fields.map Field.name

/-- Checks the fields of an object in its order; `seen` are the known names that came before. -/
def checkEntries (r : Record) (seen : List String) : List (String × Json) → Except Mismatch Unit
  | [] => .ok ()
  | (key, v) :: rest =>
    match r.field? key with
    | some f =>
      if key ∈ seen then .error (.repeatedField key)
      else do
        f.check v
        checkEntries r (key :: seen) rest
    | none =>
      if r.closed then .error (.unknownField key r.names) else checkEntries r seen rest

/-- The first required field that the entries lack. -/
def missing? (r : Record) (entries : List (String × Json)) : Option String :=
  (r.fields.find? fun f ↦ f.presence == .required && !Dict.contains entries f.name).map Field.name

/-- How messages name a record that is written as an array. -/
def expectedLength (r : Record) : String :=
  "struct " ++ r.name ++ " with " ++ Nat.repr r.fields.length
    ++ (if r.fields.length = 1 then " element" else " elements")

/-- Checks the items of an array against the fields from the one at `position` on. -/
def checkItems (r : Record) (total position : Nat) :
    List Field → List Json → Except Mismatch (List (String × Json))
  | [], [] => .ok []
  | [], _ :: _ => .error (.wrongLength total "fewer elements in array")
  | f :: fields, [] =>
    if f.presence = .defaulted then checkItems r total (position + 1) fields []
    else .error (.wrongLength position r.expectedLength)
  | f :: fields, v :: rest => do
    f.check v
    let entries ← checkItems r total (position + 1) fields rest
    return (f.name, v) :: entries

/-- The fields of a value that has the shape of the record. -/
def entries (r : Record) : Reader (Dict Json)
  | .obj fields => do
    r.checkEntries [] fields
    match r.missing? fields with
    | some name => .error (.missingField name)
    | none => return fields
  | .arr items => r.checkItems items.length 0 r.fields items
  | v => Shape.wrongKind v ("struct " ++ r.name)

end Record

/-- The value of a field that has to be there. -/
def Dict.required {α : Type} (d : Dict Json) (name : String) (reader : Reader α) :
    Except Mismatch α :=
  match Dict.get? d name with
  | some v => reader v
  | none => .error (.missingField name)

/-- The value of a field that may be left out or null. -/
def Dict.optional {α : Type} (d : Dict Json) (name : String) (reader : Reader α) :
    Except Mismatch (Option α) :=
  match Dict.get? d name with
  | some v => Shape.optional reader v
  | none => .ok none

/-- The value of a field, or a default when it is left out. -/
def Dict.defaulted {α : Type} (d : Dict Json) (name : String) (reader : Reader α) (default : α) :
    Except Mismatch α :=
  match Dict.get? d name with
  | some v => reader v
  | none => .ok default

end ChartFeed
