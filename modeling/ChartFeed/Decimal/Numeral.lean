import ChartFeed.Json.Basic

/-!
# Reading a numeral

A `Numeral` is a decimal number as written.  Its value is an integer when it has neither a
fraction nor an exponent and fits 64 bits; otherwise it is a double, found by scaling.

* `Numeral.scaled` keeps as many leading digits as fit 64 bits without a sign and counts the rest
  in a power of ten;
* `scaleFloat` multiplies or divides the rounded digits by that power in double arithmetic.  There
  is one rounding for the digits and one for the scaling, so the result is the nearest double for up
  to fifteen digits and powers up to 22, and may be a neighbour of it beyond.
-/

set_option autoImplicit false

namespace ChartFeed.Decimal

/-- A decimal number as written, digit by digit. -/
structure Numeral where
  /-- Whether a minus sign stands in front. -/
  negative : Bool
  /-- The digits before the point. -/
  whole : List Nat
  /-- The digits after the point, if there is one. -/
  fraction : Option (List Nat)
  /-- Whether the exponent is negative, and its digits. -/
  exponent : Option (Bool × List Nat)
deriving DecidableEq

/-- Digits kept as one natural, and the power of ten that the others stand for. -/
structure Scaled where
  /-- The digits kept. -/
  significand : Nat
  /-- The power of ten. -/
  exponent : Int
deriving DecidableEq

/-- The natural that the digits spell, when it stays within `limit` at every digit. -/
def digitsWithin (limit : Nat) (start : Nat) : List Nat → Option Nat
  | [] => some start
  | d :: rest => if start * 10 + d ≤ limit then digitsWithin limit (start * 10 + d) rest else none

/-- Takes in digits before the point: from the first that does not fit on, each counts as a power
of ten. -/
def Scaled.addWhole (s : Scaled) : List Nat → Scaled
  | [] => s
  | d :: rest =>
    if s.significand * 10 + d ≤ uint64Max then
      Scaled.addWhole ⟨s.significand * 10 + d, s.exponent⟩ rest
    else ⟨s.significand, s.exponent + (rest.length + 1)⟩

/-- Takes in digits after the point: the first that does not fit ends the reading. -/
def Scaled.addFraction (s : Scaled) : List Nat → Scaled
  | [] => s
  | d :: rest =>
    if s.significand * 10 + d ≤ uint64Max then
      Scaled.addFraction ⟨s.significand * 10 + d, s.exponent - 1⟩ rest
    else s

/-- The digits of a numeral, without its written exponent. -/
def Numeral.scaled (n : Numeral) : Scaled :=
  (Scaled.addWhole ⟨0, 0⟩ n.whole).addFraction (n.fraction.getD [])

/-- The double nearest to `10 ^ n`. -/
def powerOfTen (n : Nat) : Float := Float.ofScientific 1 false n

/-- Divides by `10 ^ n` in steps that doubles can hold; zero stays zero. -/
def divideByPower (x : Float) (n : Nat) : Float :=
  if n ≤ 308 then x / powerOfTen n
  else if x == 0.0 then x
  else divideByPower (x / powerOfTen 308) (n - 308)
termination_by n

/-- Scales by a power of ten; `none` when the result has no finite double. -/
def scaleFloat (x : Float) (exponent : Int) : Option Float :=
  if exponent < 0 then some (divideByPower x exponent.natAbs)
  else if exponent ≤ 308 then
    let y := x * powerOfTen exponent.toNat
    if y.isFinite then some y else none
  else if x == 0.0 then some x else none

/-- The greatest written exponent that is read as such; beyond it only zero and infinity remain. -/
def exponentLimit : Nat := 0x7fffffff

/-- The magnitude of a numeral as a double, or `none` when it is out of range. -/
def Numeral.magnitude? (n : Numeral) : Option Float :=
  let s := n.scaled
  let digits := Float.ofNat s.significand
  match n.exponent with
  | none => scaleFloat digits s.exponent
  | some (down, ds) =>
    match digitsWithin exponentLimit 0 ds with
    | some e => scaleFloat digits (if down then s.exponent - e else s.exponent + e)
    | none => if s.significand = 0 ∨ down then some 0.0 else none

/-- The number written, or `none` when it is out of range.  Minus zero and integers beyond 64 bits
are doubles. -/
def Numeral.value? (n : Numeral) : Option Number :=
  let whole := digitsWithin uint64Max 0 n.whole
  match n.fraction, n.exponent, whole with
  | none, none, some k =>
    if n.negative then
      if 0 < k ∧ int64Min ≤ -(k : Int) then some (.int (-k)) else some (.float (-(Float.ofNat k)))
    else some (.int k)
  | _, _, _ => n.magnitude?.map fun x ↦ .float (if n.negative then -x else x)

end ChartFeed.Decimal
