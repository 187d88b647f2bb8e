/-!
# The shortest decimal that reads back

A finite double stands for the interval of reals that round to it.  Its shortest decimal is the
one with the fewest digits in that interval, and of those the nearest to the value.

* `Binary` is the exact value of a finite double, an integer times a power of two;
* `Binary.holds` says whether a decimal lies in the interval: the ends are included when the
  integer is even, because reading rounds to even;
* `Binary.shortest` tries one digit, two digits and so on.  On each grid only the two neighbours
  of the value have to be tested: if any point of the grid lies in the interval, one of them does.

All arithmetic is on naturals and integers, so nothing is rounded on the way.
-/

set_option autoImplicit false

namespace ChartFeed.Decimal

/-- The value `mantissa * 2 ^ scale`. -/
structure Binary where
  /-- The integer part of the representation. -/
  mantissa : Nat
  /-- The power of two. -/
  scale : Int
  /-- Just above a power of two the neighbour below is half as far as the one above. -/
  narrowBelow : Bool
deriving DecidableEq

/-- The value `digits * 10 ^ exponent`. -/
structure Scientific where
  /-- All digits, read as one natural. -/
  digits : Nat
  /-- The power of ten. -/
  exponent : Int
deriving DecidableEq

/-- Which of two equally near decimals to take. -/
inductive Ties where
  /-- The one with an even last digit. -/
  | even
  /-- The one farther from zero. -/
  | away
deriving DecidableEq

/-- The magnitude of a finite double. -/
def Binary.ofFloat (x : Float) : Binary :=
  let bits : Nat := x.toBits.toNat
  let biased : Nat := bits / 0x10000000000000 % 0x800
  let fraction : Nat := bits % 0x10000000000000
  if biased = 0 then ⟨fraction, -1074, false⟩
  else
    ⟨0x10000000000000 + fraction, (biased : Int) - 1075,
      decide (fraction = 0) && decide (1 < biased)⟩

/-- Compares `a * 10 ^ i` with `n * 2 ^ j`. -/
def compareScaled (a : Nat) (i : Int) (n : Nat) (j : Int) : Ordering :=
  compare (a * Nat.pow 10 i.toNat * Nat.pow 2 (-j).toNat)
    (n * Nat.pow 2 j.toNat * Nat.pow 10 (-i).toNat)

/-- Whether the decimal lies among the reals that round to this value. -/
def Binary.holds (b : Binary) (d : Scientific) : Bool :=
  let low := if b.narrowBelow then 4 * b.mantissa - 1 else 4 * b.mantissa - 2
  let above := compareScaled d.digits d.exponent low (b.scale - 2)
  let below := compareScaled d.digits d.exponent (4 * b.mantissa + 2) (b.scale - 2)
  let closed := b.mantissa % 2 == 0
  (above == .gt || (closed && above == .eq)) && (below == .lt || (closed && below == .eq))

/-- The greatest `n` with `n * 10 ^ exponent` at most the value. -/
def Binary.floorAt (b : Binary) (exponent : Int) : Nat :=
  b.mantissa * Nat.pow 2 b.scale.toNat * Nat.pow 10 (-exponent).toNat
    / (Nat.pow 2 (-b.scale).toNat * Nat.pow 10 exponent.toNat)

/-- How many decimal digits a natural has; zero has one. -/
def digitCount (n : Nat) : Nat := (Nat.toDigits 10 n).length

/-- An exponent `k` with the value at most `10 ^ k`, and above `10 ^ (k - 2)`. -/
def Binary.magnitude (b : Binary) : Int :=
  let up := b.mantissa * Nat.pow 2 b.scale.toNat
  let down := Nat.pow 2 (-b.scale).toNat
  if down ≤ up then digitCount (up / down) else 1 - (digitCount (down / up) : Int)

/-- The neighbour of the value on the grid of multiples of `10 ^ exponent` that reads back and is
nearer, if one reads back. -/
def Binary.onGrid (b : Binary) (ties : Ties) (exponent : Int) : Option Scientific :=
  let n := b.floorAt exponent
  let below : Scientific := ⟨n, exponent⟩
  let above : Scientific := ⟨n + 1, exponent⟩
  match b.holds below, b.holds above with
  | false, false => none
  | true, false => some below
  | false, true => some above
  | true, true =>
    match compareScaled (2 * n + 1) exponent (2 * b.mantissa) b.scale with
    | .gt => some below
    | .lt => some above
    | .eq => some (if ties = .even && n % 2 == 0 then below else above)

/-- The first of `fuel` grids, from coarse to fine, that has a decimal reading back. -/
def Binary.search (b : Binary) (ties : Ties) (exponent : Int) : Nat → Option Scientific
  | 0 => none
  | fuel + 1 =>
    match b.onGrid ties exponent with
    | some d => some d
    | none => b.search ties (exponent - 1) fuel

/-- Moves trailing zeros of the digits into the exponent; `fuel` bounds their number. -/
def Scientific.stripZeros (d : Scientific) : Nat → Scientific
  | 0 => d
  | fuel + 1 =>
    if d.digits ≠ 0 ∧ d.digits % 10 = 0 then stripZeros ⟨d.digits / 10, d.exponent + 1⟩ fuel
    else d

/-- All digits of the value: dyadic fractions end. -/
def Binary.exact (b : Binary) : Scientific :=
  ⟨b.mantissa * Nat.pow 2 b.scale.toNat * Nat.pow 5 (-b.scale).toNat,
    -((-b.scale).toNat : Int)⟩

/-- The fewest digits that read back, and of those the nearest to the value.  Eighteen grids
suffice, since seventeen digits always read back. -/
def Binary.shortest (b : Binary) (ties : Ties) : Scientific :=
  if b.mantissa = 0 then ⟨0, 0⟩
  else
    let found := (b.search ties b.magnitude 18).getD b.exact
    found.stripZeros (digitCount found.digits)

end ChartFeed.Decimal
