import ChartFeed.Decimal.Shortest
import ChartFeed.Decimal.Order

/-!
# Laying out the digits of a double

The digits of a finite double are written in one of two ways: positionally, or with an exponent.
A `Layout` says where positional notation ends, whether a whole number shows a fraction and how
ties between two shortest decimals go; `Layout.render` writes any finite double under it.
-/

set_option autoImplicit false

namespace ChartFeed.Decimal

/-- The decisions of a number format. -/
structure Layout where
  /-- Positional notation for leading digits at exponents in `[from, below)`; `none` for all. -/
  positional : Option (Int × Int)
  /-- Whether a whole number in positional notation ends in a point and a zero. -/
  wholeFraction : Bool
  /-- Which of two equally near shortest decimals is written. -/
  ties : Ties

/-- Inserts the point `after` digits from the front, filling up with zeros at either side. -/
def pointAt (digits : List Char) (after : Int) (wholeFraction : Bool) : List Char :=
  let count := digits.length
  if after ≤ 0 then '0' :: '.' :: List.replicate (-after).toNat '0' ++ digits
  else if (count : Int) ≤ after then
    digits ++ List.replicate (after.toNat - count) '0' ++ (if wholeFraction then ['.', '0'] else [])
  else digits.take after.toNat ++ '.' :: digits.drop after.toNat

/-- One digit, the others after a point, and a signed exponent. -/
def withExponent (digits : List Char) (exponent : Int) : List Char :=
  let fraction := if digits.length ≤ 1 then [] else '.' :: digits.drop 1
  let sign := if exponent < 0 then '-' else '+'
  digits.take 1 ++ fraction ++ 'e' :: sign :: Nat.toDigits 10 exponent.natAbs

/-- The characters of a decimal under a layout. -/
def Layout.renderDigits (layout : Layout) (d : Scientific) : List Char :=
  let digits := Nat.toDigits 10 d.digits
  if d.digits = 0 then pointAt digits 1 layout.wholeFraction
  else
    let leading := d.exponent + digits.length - 1
    match layout.positional with
    | none => pointAt digits (leading + 1) layout.wholeFraction
    | some (low, high) =>
      if low ≤ leading ∧ leading < high then pointAt digits (leading + 1) layout.wholeFraction
      else withExponent digits leading

/-- The text of a finite double; zero keeps its sign. -/
def Layout.render (layout : Layout) (x : Float) : String :=
  let digits := layout.renderDigits ((Binary.ofFloat x).shortest layout.ties)
  String.ofList (if isNegative x then '-' :: digits else digits)

/-- Numbers in JSON text: a fraction or an exponent always shows, positional notation runs from
the fifth place after the point to sixteen places before it, and ties go to the even digit. -/
def jsonLayout : Layout := ⟨some (-5, 16), true, .even⟩

/-- Numbers as they are shown to people: no exponent, no trailing fraction, ties away from zero. -/
def plainLayout : Layout := ⟨none, false, .away⟩

/-- The text of any double under a layout, the special values included. -/
def Layout.renderAny (layout : Layout) (x : Float) : String :=
  if x.isNaN then "NaN"
  else if x.isInf then (if isNegative x then "-inf" else "inf")
  else layout.render x

end ChartFeed.Decimal
