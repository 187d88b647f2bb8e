import ChartFeed.Rejection
import ChartFeed.Text.Blank
import ChartFeed.Text.Digit
import ChartFeed.Time.Instant

/-!
# Spans of time in calendar units

* `Span` is a signed amount of a unit, from seconds to years;
* `Span.addTo` moves an instant by a span: up to weeks by seconds, beyond by months;
* `Span.text` writes a span, and `Span.read` reads one: a signed amount, a unit in the singular or
  the plural, and perhaps `ago`, which turns the sign.
-/

set_option autoImplicit false

namespace ChartFeed

/-- The units of spans. -/
inductive TimeUnit where
  | second
  | minute
  | hour
  | day
  | week
  | month
  | quarter
  | year
deriving DecidableEq

namespace TimeUnit

/-- The name of a unit. -/
def name : TimeUnit → String
  | .second => "second"
  | .minute => "minute"
  | .hour => "hour"
  | .day => "day"
  | .week => "week"
  | .month => "month"
  | .quarter => "quarter"
  | .year => "year"

/-- The unit of a name; seconds and minutes also have short names. -/
def ofName? (name : List Char) : Option TimeUnit :=
  match String.ofList name with
  | "second" | "sec" => some .second
  | "minute" | "min" => some .minute
  | "hour" => some .hour
  | "day" => some .day
  | "week" => some .week
  | "month" => some .month
  | "quarter" => some .quarter
  | "year" => some .year
  | _ => none

/-- A day and whatever is longer. -/
def isCalendar : TimeUnit → Bool
  | .second | .minute | .hour => false
  | _ => true

/-- A word without the s of the plural. -/
def singular (word : List Char) : List Char :=
  if 2 ≤ word.length ∧ word.getLast? = some 's' then word.dropLast else word

/-- The unit of a name in the singular or the plural. -/
def ofWord? (word : List Char) : Option TimeUnit := ofName? (singular word)

end TimeUnit

/-- A signed amount of a unit. -/
structure Span where
  /-- A signed 64-bit integer. -/
  amount : Int
  unit : TimeUnit
deriving DecidableEq

namespace Span

/-- The span in the other direction. -/
def negate (s : Span) : Span := ⟨-s.amount, s.unit⟩

/-- The same length, into the past. -/
def backward (s : Span) : Span := ⟨-(s.amount.natAbs : Int), s.unit⟩

/-- Moves an instant; fails when that would leave the range of instants. -/
def addTo (s : Span) (t : Instant) : Option Instant :=
  match s.unit with
  | .second => t.addSeconds s.amount
  | .minute => t.addSeconds (60 * s.amount)
  | .hour => t.addSeconds (3600 * s.amount)
  | .day => t.addSeconds (86400 * s.amount)
  | .week => t.addSeconds (604800 * s.amount)
  | .month => t.addMonths s.amount
  | .quarter => t.addMonths (3 * s.amount)
  | .year => t.addMonths (12 * s.amount)

/-- The amount and the unit, in the plural unless the amount is one either way. -/
def text (s : Span) : String :=
  (Number.int s.amount).text ++ " " ++ s.unit.name ++ (if s.amount.natAbs = 1 then "" else "s")

/-- An amount of 64 bits, behind an optional sign. -/
def amount? (word : List Char) : Option Int :=
  (Text.integerOf? word).bind fun n ↦ if fitsInt64 n then some n else none

/-- An amount without a sign. -/
def count? (word : List Char) : Option Int :=
  (Text.naturalOf? word).bind fun n ↦ if fitsInt64 n then some (n : Int) else none

/-- A span in words: amount, unit and perhaps `ago`. -/
def ofWords? : List (List Char) → Option Span
  | [amount, unit] => do
    let n ← amount? amount
    let u ← TimeUnit.ofWord? unit
    return ⟨n, u⟩
  | [amount, unit, ['a', 'g', 'o']] => do
    let n ← amount? amount
    let u ← TimeUnit.ofWord? unit
    return negate ⟨n, u⟩
  | _ => none

/-- Reads a span such as `1 week`, `-2 days` or `3 months ago`, in any case. -/
def read (expression : List Char) : Except Rejection Span :=
  match ofWords? (Text.words (Text.lower expression)) with
  | some s => .ok s
  | none => .error (.timeParse (String.ofList expression))

end Span

end ChartFeed
