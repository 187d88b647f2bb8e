import ChartFeed.Time.Iso
import ChartFeed.Time.Span

/-!
# Time expressions

A time expression names an instant relative to a given one, in any case and with any blanks:

* `now`, `today`, `yesterday`, `tomorrow`;
* a timestamp, as `Iso.read` reads it;
* `3 days ago`, `2 hours later`, `1 week from now`;
* `last month`, `next year`.

Spans of a day and more count from midnight, shorter ones from the given instant.  `Moment` is what
an expression says and `TimeExpression.read` finds the instant.
-/

set_option autoImplicit false

namespace ChartFeed

/-- What a time expression says. -/
inductive Moment where
  | now
  /-- Midnight, some days away from today's. -/
  | midnight (days : Int)
  | absolute (t : Instant)
  | offset (s : Span)
deriving DecidableEq

namespace Moment

/-- The midnights that have names. -/
def midnight? : List Char → Option Int
  | ['t', 'o', 'd', 'a', 'y'] => some 0
  | ['y', 'e', 's', 't', 'e', 'r', 'd', 'a', 'y'] => some (-1)
  | ['t', 'o', 'm', 'o', 'r', 'r', 'o', 'w'] => some 1
  | _ => none

/-- An expression of one word that is a name. -/
def ofName? : List (List Char) → Option Moment
  | [['n', 'o', 'w']] => some .now
  | [word] => (midnight? word).map .midnight
  | _ => none

/-- The one unit before or after that a word names. -/
def neighbour? : List Char → Option Int
  | ['l', 'a', 's', 't'] => some (-1)
  | ['n', 'e', 'x', 't'] => some 1
  | _ => none

/-- Which way the words behind a count of units turn it. -/
def turn? : List (List Char) → Option (Span → Span)
  | [['a', 'g', 'o']] => some Span.negate
  | [['l', 'a', 't', 'e', 'r']] => some id
  | [['f', 'r', 'o', 'm'], ['n', 'o', 'w']] => some id
  | _ => none

/-- An expression that counts units: a unit before or after, or an amount of units and which way. -/
def ofCount? : List (List Char) → Option Moment
  | [word, unit] => do
    let n ← neighbour? word
    let u ← TimeUnit.ofName? unit
    return .offset ⟨n, u⟩
  | amount :: unit :: rest => do
    let turn ← turn? rest
    let n ← Span.count? amount
    let u ← TimeUnit.ofWord? unit
    return .offset (turn ⟨n, u⟩)
  | _ => none

/-- What an expression says: a name, a timestamp, or a count of units. -/
def ofExpression? (expression : List Char) : Option Moment :=
  let words := Text.words (Text.lower expression)
  ofName? words <|> (Iso.read expression).map .absolute <|> ofCount? words

/-- The instant that is meant, seen from `now`, unless it would be out of range. -/
def resolve (now : Instant) : Moment → Option Instant
  | .now => some now
  | .midnight days => now.startOfDay.shiftDays days
  | .absolute t => some t
  | .offset s => s.addTo (if s.unit.isCalendar then now.startOfDay else now)

/-- Why what an expression says cannot be resolved.  Counted units may lead out of range; a day that
has a name is taken to be there. -/
def failure (expression : List Char) : Moment → Rejection
  | .midnight _ => .outOfCalendar
  | .now | .absolute _ | .offset _ => .timeParse (String.ofList expression)

end Moment

namespace TimeExpression

/-- The instant that an expression names, seen from `now`. -/
def read (expression : List Char) (now : Instant) : Except Rejection Instant :=
  match Moment.ofExpression? expression with
  | none => .error (.timeParse (String.ofList expression))
  | some m =>
    match m.resolve now with
    | some t => .ok t
    | none => .error (m.failure expression)

end TimeExpression

end ChartFeed
