import ChartFeed.Json.Printer
import ChartFeed.Digest.Md5

/-!
# Canonical JSON

Two values that differ only in the order of object fields have one canonical text: the compact
text after the fields of every object are sorted by key.

* `Json.sorted` sorts the fields at every level;
* `Json.canonicalText` is the text of the sorted value and `Json.digest` its fingerprint.
-/

set_option autoImplicit false

namespace ChartFeed

namespace Dict

variable {α : Type}

/-- Puts an entry before the first whose key is not smaller. -/
def insertSorted (entry : String × α) : Dict α → Dict α
  | [] => [entry]
  | other :: rest =>
    if entry.1 ≤ other.1 then entry :: other :: rest else other :: insertSorted entry rest

/-- The entries in ascending order of their keys. -/
def sortKeys : Dict α → Dict α
  | [] => []
  | entry :: rest => insertSorted entry (sortKeys rest)

end Dict

namespace Json

mutual

/-- The value with the fields of every object in ascending order of their keys. -/
def sorted : Json → Json
  | .arr items => .arr (sortedItems items)
  | .obj fields => .obj (Dict.sortKeys (sortedFields fields))
  | .null => .null
  | .bool b => .bool b
  | .num n => .num n
  | .str s => .str s

/-- Sorts inside the items. -/
def sortedItems : List Json → List Json
  | [] => []
  | v :: rest => sorted v :: sortedItems rest

/-- Sorts inside the values of the fields. -/
def sortedFields : List (String × Json) → List (String × Json)
  | [] => []
  | (k, v) :: rest => (k, sorted v) :: sortedFields rest

end

/-- The text that does not depend on the order of object fields. -/
def canonicalText (v : Json) : String := text (sorted v)

/-- The fingerprint of the canonical text, 32 hexadecimal digits. -/
def digest (v : Json) : String := Md5.hex (canonicalText v)

end Json

end ChartFeed
