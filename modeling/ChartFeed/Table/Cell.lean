import ChartFeed.Json.Printer
import ChartFeed.Time.Iso

/-!
# Cells

* `Cell` is a value of a result table; NaN counts as absent, like no value at all;
* `Cell.ofJson` and `Cell.toJson` exchange cells with JSON, `Cell.display` shows a cell to people;
* `Cell.toFloat?` is the numeric view: texts, instants and doubles that are not finite have none;
* `Cell.order` compares any two cells, absent ones last; `Key.order` compares lists of cells.
-/

set_option autoImplicit false

namespace ChartFeed

/-- A value of a result table. -/
inductive Cell where
  | absent
  | bool (b : Bool)
  /-- An integer of 64 bits with a sign. -/
  | int (n : Int)
  | float (x : Float)
  | text (s : String)
  | instant (t : Instant)
deriving DecidableEq

namespace Cell

instance : Inhabited Cell := ⟨.absent⟩

/-- No value, or NaN. -/
def isAbsent : Cell → Bool
  | .absent => true
  | .float x => x.isNaN
  | _ => false

/-- The cell holds a number, finite or not. -/
def isNumeric : Cell → Bool
  | .int _ | .float _ => true
  | _ => false

/-- The numeric view of a cell. -/
def toFloat? : Cell → Option Float
  | .int n => some (Float.ofInt n)
  | .float x => if x.isFinite then some x else none
  | .bool b => some (if b then 1.0 else 0.0)
  | _ => none

/-- The text of a text cell. -/
def asText? : Cell → Option String
  | .text s => some s
  | _ => none

/-- The cell of a computed double; a result that is not finite is absent. -/
def ofFloat? : Option Float → Cell
  | some x => if x.isFinite then .float x else .absent
  | none => .absent

/-- The cell for a JSON value.  Arrays and objects become their text. -/
def ofJson : Json → Cell
  | .null => .absent
  | .bool b => .bool b
  | .num n =>
    match (Json.num n).asInt64? with
    | some i => .int i
    | none => .float n.toFloat
  | .str s => .text s
  | .arr items => .text (Json.arr items).text
  | .obj fields => .text (Json.obj fields).text

/-- The JSON value of a cell.  Instants become milliseconds. -/
def toJson : Cell → Json
  | .absent => .null
  | .bool b => .bool b
  | .int n => .int n
  | .float x => Json.ofFloat x
  | .text s => .str s
  | .instant t => .int t.toMillis

/-- The text of a cell for people. -/
def display : Cell → String
  | .absent => "null"
  | .bool b => if b then "true" else "false"
  | .int n => (Number.int n).text
  | .float x => Decimal.plainLayout.renderAny x
  | .text s => s
  | .instant t => t.isoText "+00:00"

/-! ## Order -/

/-- Cells of different kinds are ordered by kind. -/
def kindRank : Cell → Nat
  | .bool _ => 0
  | .int _ | .float _ => 1
  | .instant _ => 2
  | .text _ => 3
  | .absent => 4

/-- Compares present cells: within a kind by value, numbers across both kinds of number. -/
def presentOrder : Cell → Cell → Ordering
  | .int a, .int b => compare a b
  | .bool a, .bool b => compare a.toNat b.toNat
  | .text a, .text b => compare a b
  | .instant a, .instant b => compare a b
  | a, b =>
    if a.isNumeric && b.isNumeric then
      Decimal.floatOrder (a.toFloat?.getD 0.0) (b.toFloat?.getD 0.0)
    else compare a.kindRank b.kindRank

/-- Compares any two cells; absent ones are equal to each other and come last. -/
def order (a b : Cell) : Ordering :=
  match a.isAbsent, b.isAbsent with
  | true, true => .eq
  | true, false => .gt
  | false, true => .lt
  | false, false => presentOrder a b

end Cell

/-- Cells that are compared one after the other. -/
abbrev Key := List Cell

/-- The first difference decides; of two keys that agree the shorter comes first. -/
def Key.order : Key → Key → Ordering
  | [], [] => .eq
  | [], _ :: _ => .lt
  | _ :: _, [] => .gt
  | a :: as, b :: bs => (a.order b).then (Key.order as bs)

end ChartFeed
