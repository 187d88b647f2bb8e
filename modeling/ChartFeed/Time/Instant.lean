import ChartFeed.Time.Calendar

/-!
# Instants

An instant is a number of seconds from the beginning of 1970, in universal time, and a number of
nanoseconds.  A leap second is the second before it with a thousand million nanoseconds more, so
instants are ordered by seconds and then by nanoseconds.

* `Instant.InRange` bounds the seconds to the years that the calendar covers;
* `Instant.addSeconds`, `Instant.addMonths` and `Instant.shiftDays` move an instant, or fail when it
  would leave the range; `Instant.startOfDay` goes back to midnight;
* `Instant.ofMillis` and `Instant.toMillis` count thousandths.
-/

set_option autoImplicit false

namespace ChartFeed

/-- A point in time. -/
structure Instant where
  /-- Seconds from the beginning of 1970. -/
  seconds : Int
  /-- Nanoseconds after that second. -/
  nanos : Nat
deriving DecidableEq, Repr

namespace Instant

/-- Nanoseconds of a second. -/
def nanosPerSecond : Nat := 1000000000

/-- Seconds of a day. -/
def secondsPerDay : Int := 86400

/-- The first second of the first year. -/
def firstSecond : Int := -8334601228800

/-- The last second of the last year. -/
def lastSecond : Int := 8210266876799

theorem firstSecond_eq : firstSecond = secondsPerDay * Date.dayNumber ⟨Date.firstYear, 1, 1⟩ := by
  decide

theorem lastSecond_eq :
    lastSecond = secondsPerDay * (Date.dayNumber ⟨Date.lastYear, 12, 31⟩ + 1) - 1 := by
  decide

/-- The seconds are those of a year that the calendar covers, and the nanoseconds those of one
second or, in the last second of a minute, of a leap second after it. -/
def InRange (t : Instant) : Prop :=
  firstSecond ≤ t.seconds ∧ t.seconds ≤ lastSecond
    ∧ (t.nanos < nanosPerSecond ∨ t.seconds % 60 = 59 ∧ t.nanos < 2 * nanosPerSecond)

instance (t : Instant) : Decidable t.InRange := inferInstanceAs (Decidable (_ ∧ _))

/-- The beginning of 1970. -/
def epoch : Instant := ⟨0, 0⟩

/-- An instant whose seconds are in range. -/
def checked (t : Instant) : Option Instant :=
  if firstSecond ≤ t.seconds ∧ t.seconds ≤ lastSecond then some t else none

/-- Instants are ordered by seconds, then by nanoseconds. -/
protected def compare (s t : Instant) : Ordering :=
  (compare s.seconds t.seconds).then (compare s.nanos t.nanos)

instance : Ord Instant := ⟨Instant.compare⟩

/-- Whether one instant comes after another. -/
def isAfter (s t : Instant) : Bool := s.compare t == .gt

/-- The instant this many milliseconds from the beginning of 1970, if it is in range. -/
def ofMillis? (ms : Int) : Option Instant :=
  checked ⟨ms / 1000, (ms % 1000).toNat * 1000000⟩

/-- The instant this many milliseconds from the beginning of 1970; the beginning itself when that
is out of range. -/
def ofMillis (ms : Int) : Instant := (ofMillis? ms).getD epoch

/-- Whole milliseconds from the beginning of 1970. -/
def toMillis (t : Instant) : Int := t.seconds * 1000 + (t.nanos / 1000000 : Nat)

/-- The day number of an instant. -/
def dayNumber (t : Instant) : Int := t.seconds / secondsPerDay

/-- Midnight at the beginning of the day. -/
def startOfDay (t : Instant) : Instant := ⟨t.dayNumber * secondsPerDay, 0⟩

/-- Moves by whole seconds.  Leaving a leap second forward drops the second that it adds, leaving
it backward counts from the second after it. -/
def addSeconds (t : Instant) (n : Int) : Option Instant :=
  if t.nanos < nanosPerSecond then checked ⟨t.seconds + n, t.nanos⟩
  else if 0 < n then checked ⟨t.seconds + n, t.nanos - nanosPerSecond⟩
  else if n < 0 then checked ⟨t.seconds + 1 + n, t.nanos - nanosPerSecond⟩
  else some t

/-- Moves by whole days from midnight.  Without a day there is nothing to check. -/
def shiftDays (t : Instant) (days : Int) : Option Instant :=
  if days = 0 then some t else checked ⟨t.seconds + days * secondsPerDay, t.nanos⟩

/-- Moves by months and keeps the time of day. -/
def addMonths (t : Instant) (n : Int) : Option Instant :=
  let day := ((Date.ofDayNumber t.dayNumber).addMonths n).dayNumber
  checked ⟨day * secondsPerDay + t.seconds % secondsPerDay, t.nanos⟩

end Instant

end ChartFeed
