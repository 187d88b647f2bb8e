import ChartFeed.Text.Blank
import ChartFeed.Text.Digit
import ChartFeed.Time.Instant

/-!
# Writing and reading timestamps

* `Instant.isoText` writes date, time and offset in the form of RFC 3339, with as many digits after
  the seconds as are needed: none, three, six or nine;
* `Clock` is a date and a time of day as read, before anyone has checked that they exist, and
  `Clock.toInstant?` checks it;
* `Iso.read` reads, in this order, the strict form of RFC 3339, four lenient forms without offset,
  and a date alone.

In the lenient forms a number may have fewer digits than its field and blanks before it, and a
year with a sign any number of digits.
-/

set_option autoImplicit false

namespace ChartFeed

/-! ## Writing -/

/-- A natural in at least `width` digits. -/
def zeroPadded (width n : Nat) : String :=
  let digits := Nat.toDigits 10 n
  String.ofList (List.replicate (width - digits.length) '0' ++ digits)

/-- A year in four digits; outside these four digits it has a sign. -/
def yearText (year : Int) : String :=
  if 0 ≤ year ∧ year ≤ 9999 then zeroPadded 4 year.toNat
  else (if year < 0 then "-" else "+") ++ zeroPadded 4 year.natAbs

/-- The fraction of a second in none, three, six or nine digits. -/
def fractionText (nanos : Nat) : String :=
  if nanos = 0 then ""
  else if nanos % 1000000 = 0 then "." ++ zeroPadded 3 (nanos / 1000000)
  else if nanos % 1000 = 0 then "." ++ zeroPadded 6 (nanos / 1000)
  else "." ++ zeroPadded 9 nanos

/-- Date and time of an instant, followed by the text for the offset of universal time. -/
def Instant.isoText (t : Instant) (offset : String) : String :=
  let date := Date.ofDayNumber t.dayNumber
  let ofDay := (t.seconds % Instant.secondsPerDay).toNat
  let leap := t.nanos / Instant.nanosPerSecond
  yearText date.year ++ "-" ++ zeroPadded 2 date.month ++ "-" ++ zeroPadded 2 date.day ++ "T"
    ++ zeroPadded 2 (ofDay / 3600) ++ ":" ++ zeroPadded 2 (ofDay / 60 % 60) ++ ":"
    ++ zeroPadded 2 (ofDay % 60 + leap) ++ fractionText (t.nanos % Instant.nanosPerSecond) ++ offset

/-! ## A date and a time of day as read -/

/-- The numbers of a timestamp. -/
structure Clock where
  date : Date
  hour : Nat
  minute : Nat
  /-- From 0 to 60, where 60 is a leap second. -/
  second : Nat
  nanos : Nat
  /-- Minutes that this clock is ahead of universal time. -/
  offset : Int
deriving DecidableEq

/-- The instant at which a clock shows these numbers, if the date and the time exist. -/
def Clock.toInstant? (c : Clock) : Option Instant :=
  if c.date.Valid ∧ c.hour < 24 ∧ c.minute < 60 ∧ c.second ≤ 60 then
    let leap := c.second / 60
    let ofDay : Int := c.hour * 3600 + c.minute * 60 + (c.second - leap : Nat)
    Instant.checked
      ⟨c.date.dayNumber * Instant.secondsPerDay + ofDay - c.offset * 60,
        c.nanos + leap * Instant.nanosPerSecond⟩
  else none

namespace Iso

/-! ## Reading numbers -/

/-- Whether a character is a digit of ASCII. -/
def isDigit (c : Char) : Bool := (Text.digit? c).isSome

/-- The natural that digits spell. -/
def valueOf (digits : List Char) : Nat :=
  digits.foldl (fun n c ↦ 10 * n + (Text.digit? c).getD 0) 0

/-- The leading digits, at most `most` of them, and the rest. -/
def takeDigits (most : Nat) (cs : List Char) : List Char × List Char :=
  let digits := (cs.take most).takeWhile isDigit
  (digits, cs.drop digits.length)

/-- A number of exactly `width` digits, and the rest. -/
def exactly (width : Nat) (cs : List Char) : Option (Nat × List Char) :=
  let (digits, rest) := takeDigits width cs
  if digits.length = width then some (valueOf digits, rest) else none

/-- A number of one to `width` digits with blanks before it, and the rest. -/
def upTo (width : Nat) (cs : List Char) : Option (Nat × List Char) :=
  let (digits, rest) := takeDigits width (Text.trimStart cs)
  if digits.isEmpty then none else some (valueOf digits, rest)

/-- A year: up to four digits, or a sign and any number of digits. -/
def lenientYear (cs : List Char) : Option (Int × List Char) :=
  match Text.trimStart cs with
  | '-' :: rest => signed rest fun n ↦ -n
  | '+' :: rest => signed rest id
  | rest => (upTo 4 rest).map fun (n, rest) ↦ ((n : Int), rest)
where
  /-- The digits behind a sign. -/
  signed (cs : List Char) (sign : Int → Int) : Option (Int × List Char) :=
    let (digits, rest) := takeDigits cs.length cs
    if digits.isEmpty then none else some (sign (valueOf digits), rest)

/-- The rest behind a character that has to come. -/
def expect (c : Char) : List Char → Option (List Char)
  | [] => none
  | d :: rest => if d = c then some rest else none

/-- The digits behind a point as nanoseconds; those after the ninth are dropped. -/
def nanosOf (digits : List Char) : Nat :=
  let kept := digits.take 9
  valueOf kept * Nat.pow 10 (9 - kept.length)

/-- An optional point with at least one digit, in nanoseconds. -/
def fraction (cs : List Char) : Option (Nat × List Char) :=
  match cs with
  | '.' :: rest =>
    let (digits, rest) := takeDigits rest.length rest
    if digits.isEmpty then none else some (nanosOf digits, rest)
  | _ => some (0, cs)

/-! ## The strict form -/

/-- The offset from universal time in minutes: a Z, or a sign, two digits, a colon and two more
digits. -/
def offset (cs : List Char) : Option (Int × List Char) :=
  match cs with
  | [] => none
  | c :: rest =>
    if c = 'Z' ∨ c = 'z' then some (0, rest)
    else if c = '+' then (minutes rest).map fun (n, rest) ↦ (n, rest)
    else if c = '-' ∨ c = Char.ofNat 0x2212 then (minutes rest).map fun (n, rest) ↦ (-n, rest)
    else none
where
  /-- Hours and minutes behind the sign, below a day. -/
  minutes (cs : List Char) : Option (Int × List Char) := do
    let (hours, cs) ← exactly 2 cs
    let cs ← expect ':' cs
    let (minutes, cs) ← exactly 2 cs
    if hours < 24 ∧ minutes < 60 then some (((hours * 60 + minutes : Nat) : Int), cs) else none

/-- The form of RFC 3339: every field has its full width. -/
def strict (cs : List Char) : Option Instant := do
  let (year, cs) ← exactly 4 cs
  let cs ← expect '-' cs
  let (month, cs) ← exactly 2 cs
  let cs ← expect '-' cs
  let (day, cs) ← exactly 2 cs
  let cs ← (expect 'T' cs <|> expect 't' cs <|> expect ' ' cs)
  let (hour, cs) ← exactly 2 cs
  let cs ← expect ':' cs
  let (minute, cs) ← exactly 2 cs
  let cs ← expect ':' cs
  let (second, cs) ← exactly 2 cs
  let (nanos, cs) ← fraction cs
  let (offset, cs) ← offset cs
  if cs.isEmpty then Clock.toInstant? ⟨⟨year, month, day⟩, hour, minute, second, nanos, offset⟩
  else none

/-! ## The lenient forms -/

/-- A date, and the rest. -/
def lenientDate (cs : List Char) : Option (Date × List Char) := do
  let (year, cs) ← lenientYear cs
  let cs ← expect '-' cs
  let (month, cs) ← upTo 2 cs
  let cs ← expect '-' cs
  let (day, cs) ← upTo 2 cs
  some (⟨year, month, day⟩, cs)

/-- A date and a time, with a capital T between them or any amount of blanks, even none. -/
def lenient (letter withSeconds : Bool) (cs : List Char) : Option Instant := do
  let (date, cs) ← lenientDate cs
  let cs ← if letter then expect 'T' cs else some (Text.trimStart cs)
  let (hour, cs) ← upTo 2 cs
  let cs ← expect ':' cs
  let (minute, cs) ← upTo 2 cs
  if withSeconds then
    let cs ← expect ':' cs
    let (second, cs) ← upTo 2 cs
    let (nanos, cs) ← fraction cs
    if cs.isEmpty then Clock.toInstant? ⟨date, hour, minute, second, nanos, 0⟩ else none
  else if cs.isEmpty then Clock.toInstant? ⟨date, hour, minute, 0, 0, 0⟩
  else none

/-- A date alone stands for its midnight. -/
def dateOnly (cs : List Char) : Option Instant := do
  let (date, cs) ← lenientDate cs
  if cs.isEmpty then Clock.toInstant? ⟨date, 0, 0, 0, 0, 0⟩ else none

/-- The instant that a timestamp names; blanks around it do not matter. -/
def read (cs : List Char) : Option Instant :=
  let cs := Text.trim cs
  strict cs <|> lenient true true cs <|> lenient false true cs <|> lenient true false cs
    <|> lenient false false cs <|> dateOnly cs

/-! ## The stored form -/

/-- An offset whose hours and minutes may be parted by colons and blanks or by nothing; UTC in any
case and Z stand for none. -/
def relaxedOffset (cs : List Char) : Option (Int × List Char) :=
  if (cs.take 3).map Char.toUpper = ['U', 'T', 'C'] then some (0, cs.drop 3)
  else match cs with
    | [] => none
    | c :: rest =>
      if c = 'Z' ∨ c = 'z' then some (0, rest)
      else if c = '+' then minutes rest
      else if c = '-' ∨ c = Char.ofNat 0x2212 then (minutes rest).map fun (n, rest) ↦ (-n, rest)
      else none
where
  /-- Hours and minutes behind the sign, below a day. -/
  minutes (cs : List Char) : Option (Int × List Char) := do
    let (hours, cs) ← exactly 2 cs
    let cs := cs.dropWhile fun c ↦ c == ':' || Text.isBlank c
    let (minutes, cs) ← exactly 2 cs
    if hours < 24 ∧ minutes < 60 then some (((hours * 60 + minutes : Nat) : Int), cs) else none

/-- A timestamp with an offset, whose numbers may be short and have blanks around them. -/
def relaxed (cs : List Char) : Option Instant := do
  let (year, cs) ← lenientYear cs
  let cs ← expect '-' (Text.trimStart cs)
  let (month, cs) ← upTo 2 cs
  let cs ← expect '-' (Text.trimStart cs)
  let (day, cs) ← upTo 2 cs
  let cs ← (expect 'T' cs <|> expect 't' cs <|> expect ' ' cs)
  let (hour, cs) ← upTo 2 cs
  let cs ← expect ':' (Text.trimStart cs)
  let (minute, cs) ← upTo 2 cs
  let cs ← expect ':' (Text.trimStart cs)
  let (second, cs) ← upTo 2 cs
  let (nanos, cs) ← fraction cs
  let (offset, cs) ← relaxedOffset (Text.trimStart cs)
  if (Text.trimStart cs).isEmpty then
    Clock.toInstant? ⟨⟨year, month, day⟩, hour, minute, second, nanos, offset⟩
  else none

end Iso

end ChartFeed
