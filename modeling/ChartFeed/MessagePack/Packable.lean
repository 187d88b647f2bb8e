import ChartFeed.Json.Basic
import ChartFeed.MessagePack.Basic
import ChartFeed.Time.Iso

/-!
# Types with a MessagePack form

`Packable` gives the form of the values of a type.  Reading back is partial: bytes may hold a value
of another form.

* JSON values, integers and lists of texts are themselves;
* a record is the list of its fields, and may also be read from a map by their names
  (`Packed.fields?`);
* `Stamped` is a value with the instant of its writing.
-/

set_option autoImplicit false

namespace ChartFeed

/-- A type whose values have a MessagePack form. -/
class Packable (α : Type) where
  pack : α → Packed
  unpack? : Packed → Option α

namespace Packed

/-! ## JSON values -/

mutual

/-- The form of a JSON value. -/
def ofJson : Json → Packed
  | .null => .nil
  | .bool b => .bool b
  | .num (.int n) => .int n
  | .num (.float x) => .float x
  | .str s => .text s
  | .arr items => .list (ofItems items)
  | .obj fields => .map (ofFields fields)

/-- The forms of items. -/
def ofItems : List Json → List Packed
  | [] => []
  | v :: rest => ofJson v :: ofItems rest

/-- The forms of fields. -/
def ofFields : List (String × Json) → List (Packed × Packed)
  | [] => []
  | (key, v) :: rest => (.text key, ofJson v) :: ofFields rest

end

mutual

/-- The JSON value of a form; bytes and extensions have none, and keys have to be texts.  A
repeated key keeps its first position and its last value. -/
def toJson? : Packed → Option Json
  | .nil => some .null
  | .bool b => some (.bool b)
  | .int n => some (.int n)
  | .float x => some (Json.ofFloat x)
  | .text s => some (.str s)
  | .list items => (toItems? items).map .arr
  | .map entries => (toFields? entries).map fun fields ↦ .obj (Dict.ofEntries fields)
  | .binary _ | .extension _ => none

/-- The JSON values of forms. -/
def toItems? : List Packed → Option (List Json)
  | [] => some []
  | v :: rest => do
    let a ← toJson? v
    let as ← toItems? rest
    return a :: as

/-- The fields of an object. -/
def toFields? : List (Packed × Packed) → Option (List (String × Json))
  | [] => some []
  | (key, v) :: rest => do
    let name ← match key with
      | .text s => some s
      | _ => none
    let a ← toJson? v
    let as ← toFields? rest
    return (name, a) :: as

end

/-! ## Parts -/

/-- A text, also when it is written as bytes. -/
def toText? : Packed → Option String
  | .text s => some s
  | .binary bytes => ofUtf8? bytes
  | _ => none

/-- The items of a list; no bytes are an empty list too. -/
def items? : Packed → Option (List Packed)
  | .list items => some items
  | .binary [] => some []
  | _ => none

/-- The field that a key of a record in the form of a map means, if the record has it: its name or
its position. -/
def fieldOf? (names : List String) : Packed → Option (Option String)
  | .text s => some (if s ∈ names then some s else none)
  | .binary bytes => some (names.find? fun name ↦ utf8 name == bytes)
  | .int n => if 0 ≤ n then some names[n.toNat]? else none
  | _ => none

/-- The named fields among the entries of a map.  Others are left out; none may come twice. -/
def namedEntries? (names : List String) : List (Packed × Packed) → Option (Dict Packed)
  | [] => some []
  | (key, v) :: rest => do
    let field ← fieldOf? names key
    let others ← namedEntries? names rest
    match field with
    | none => return others
    | some name => if Dict.contains others name then none else return (name, v) :: others

/-- The fields of a record in their order. -/
def fields? (names : List String) : Packed → Option (List Packed)
  | .list items => if items.length = names.length then some items else none
  | .map entries => do
    let named ← namedEntries? names entries
    names.mapM (Dict.get? named)
  | _ => none

end Packed

instance : Packable Json := ⟨Packed.ofJson, Packed.toJson?⟩

instance : Packable Int where
  pack := .int
  unpack?
    | .int n => if fitsInt64 n then some n else none
    | _ => none

instance : Packable (List String) where
  pack texts := .list (texts.map .text)
  unpack? v := v.items?.bind fun items ↦ items.mapM Packed.toText?

/-- A value with the instant of its writing. -/
structure Stamped (α : Type) where
  writtenAt : Instant
  value : α

namespace Stamped

variable {α : Type} [Packable α]

/-- The names of the fields in their order. -/
def fieldNames : List String := ["cached_dttm", "value"]

/-- The instant of a stamp, which is written as a text. -/
def instant? : Packed → Option Instant
  | .text s => Iso.relaxed s.toList
  | _ => none

instance : Packable (Stamped α) where
  pack v := .list [.text (v.writtenAt.isoText "Z"), Packable.pack v.value]
  unpack? v := do
    match ← v.fields? fieldNames with
    | [stamp, value] => return ⟨← instant? stamp, ← Packable.unpack? value⟩
    | _ => none

end Stamped

end ChartFeed
