import ChartFeed.Time.Expression

/-!
# Time ranges

A time range is a text with a beginning and an end, either of which may be open:

* nothing, or `No filter`: open at both ends;
* `<since> : <until>`, either side possibly empty; an amount and a unit alone as the beginning are
  read as that long ago;
* `Last week`, `Next 3 months`: from the anchor for beginnings less the span to the anchor for ends,
  or from the one to the other and the span.

`TimeRange.read` finds the bounds.  A shift moves both into the past by its length, whatever its
sign; bounds in the wrong order are refused.
-/

set_option autoImplicit false

namespace ChartFeed

/-- The two bounds of a window in time; an absent one is open. -/
structure Window where
  /-- Where it begins. -/
  start : Option Instant
  /-- Where it ends. -/
  stop : Option Instant
deriving DecidableEq

/-- What relative expressions refer to. -/
structure Anchors where
  /-- The expression for the beginning of relative ranges. -/
  start : String
  /-- The expression for the end of relative ranges. -/
  stop : String
  /-- The instant that expressions are seen from. -/
  now : Instant
deriving DecidableEq

namespace TimeRange

/-- What stands between the two sides of a range. -/
def separator : List Char := [' ', ':', ' ']

/-- The two sides of a range with the blanks around them dropped.  At the ends of the text a bare
colon will do. -/
def sides? (range : List Char) : Option (List Char × List Char) :=
  match Text.splitOnce separator range with
  | some (left, right) => some (Text.trim left, Text.trim right)
  | none =>
    match Text.trim range with
    | ':' :: rest => some ([], Text.trim rest)
    | trimmed =>
      if trimmed.getLast? = some ':' then some (Text.trim trimmed.dropLast, []) else none

/-- An amount and a unit alone. -/
def isBareSpan (expression : List Char) : Bool :=
  match Text.words (Text.lower expression) with
  | [amount, unit] =>
    amount.all Text.isDigit && unit.all fun c ↦ decide ('a' ≤ c) && decide (c ≤ 'z')
  | _ => false

/-- A side of a range; an empty one is open. -/
def side (expression : List Char) (now : Instant) : Except Rejection (Option Instant) :=
  if expression.isEmpty then .ok none else (TimeExpression.read expression now).map some

/-- The beginning of a range; a span alone is that long ago. -/
def startSide (expression : List Char) (now : Instant) : Except Rejection (Option Instant) :=
  if isBareSpan expression then
    (TimeExpression.read (expression ++ [' ', 'a', 'g', 'o']) now).map some
  else side expression now

/-- Which way a shorthand range goes from its anchors. -/
inductive Direction where
  | last
  | next
deriving DecidableEq

/-- The direction that a word names. -/
def direction? : List Char → Option Direction
  | ['l', 'a', 's', 't'] => some .last
  | ['n', 'e', 'x', 't'] => some .next
  | _ => none

/-- A shorthand range: a direction, perhaps an amount, and a unit. -/
def shorthand? (range : List Char) : Option (Direction × Span) :=
  match Text.words (Text.lower range) with
  | [word, unit] => do
    let d ← direction? word
    let u ← TimeUnit.ofName? unit
    return (d, ⟨1, u⟩)
  | [word, amount, unit] => do
    let d ← direction? word
    let n ← Span.count? amount
    let u ← TimeUnit.ofWord? unit
    return (d, ⟨n, u⟩)
  | _ => none

/-- The window of a shorthand range. -/
def shorthandWindow (range : List Char) (anchors : Anchors) : Except Rejection Window := do
  let start ← TimeExpression.read anchors.start.toList anchors.now
  let stop ← TimeExpression.read anchors.stop.toList anchors.now
  let failure := Rejection.timeParse (String.ofList range)
  match shorthand? range with
  | none => .error failure
  | some (.last, span) =>
    match span.negate.addTo start with
    | some moved => return ⟨some moved, some stop⟩
    | none => .error failure
  | some (.next, span) =>
    match span.addTo stop with
    | some moved => return ⟨some start, some moved⟩
    | none => .error failure

/-- A range that does not bound anything. -/
def isOpen (trimmed : List Char) : Bool :=
  trimmed.isEmpty || Text.lower trimmed == "no filter".toList

/-- The window of a range before any shift. -/
def unshifted (range : List Char) (anchors : Anchors) : Except Rejection Window :=
  let trimmed := Text.trim range
  if isOpen trimmed then .ok ⟨none, none⟩
  else match sides? range with
    | some (left, right) => do
      let start ← startSide left anchors.now
      let stop ← side right anchors.now
      return ⟨start, stop⟩
    | none => shorthandWindow trimmed anchors

/-- A bound moved by a span. -/
def shiftBound (shift : List Char) (span : Span) :
    Option Instant → Except Rejection (Option Instant)
  | none => .ok none
  | some t =>
    match span.addTo t with
    | some moved => .ok (some moved)
    | none => .error (.timeParse (String.ofList shift))

/-- Both bounds moved into the past by a span in words; a blank shift moves nothing. -/
def applyShift (shift : Option String) (w : Window) : Except Rejection Window :=
  match Text.trim ((shift.getD "").toList) with
  | [] => .ok w
  | words => do
    let span ← Span.read words
    let start ← shiftBound words span.backward w.start
    let stop ← shiftBound words span.backward w.stop
    return ⟨start, stop⟩

/-- Whether the bounds are in the wrong order. -/
def isInverted (w : Window) : Bool :=
  match w.start, w.stop with
  | some start, some stop => start.isAfter stop
  | _, _ => false

/-- The window of a range under a shift. -/
def read (range shift : Option String) (anchors : Anchors) : Except Rejection Window := do
  let w ← unshifted (range.getD "").toList anchors
  let w ← applyShift shift w
  if isInverted w then .error .invertedTimeRange else return w

end TimeRange

end ChartFeed
