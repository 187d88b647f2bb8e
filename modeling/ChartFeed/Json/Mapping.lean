import ChartFeed.Json.Reader
import ChartFeed.Json.Shape

/-!
# Mappings as JSON text

A mapping whose values are of one type is read from text entry by entry, and written as an object
with its entries in order.

* `Shape.resolved` reads any value and resolves the keys that repeat inside it;
* `OrderedMap.ofText` and `OrderedMap.toJson` read and write a mapping.
-/

set_option autoImplicit false

namespace ChartFeed

/-- Any value, with repeated keys resolved. -/
def Shape.resolved : Reader Json := fun v ↦ .ok v.merged

namespace OrderedMap

variable {α : Type}

/-- The mapping that a text spells.  Its values are read as they are written, before anything is
resolved. -/
def ofText (reader : Reader α) (s : String) : Except Json.Fault (OrderedMap α) :=
  match Json.readObject s with
  | .error why => .error why
  | .ok fields =>
    match Shape.mapping reader (.obj fields) with
    | .ok m => .ok m
    | .error _ => .error .mismatched

/-- The object that the mapping is written as. -/
def toJson (write : α → Json) (m : OrderedMap α) : Json := .obj (Dict.mapValues write m.entries)

end OrderedMap

end ChartFeed
