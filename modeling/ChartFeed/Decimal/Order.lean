/-!
# The order of doubles

`isNegative` reads the sign and `orderKey` is an integer that orders doubles by value, with minus
zero before zero; `floatOrder` compares by it.  Infinities stand at the ends.
-/

set_option autoImplicit false

namespace ChartFeed.Decimal

/-- The sign bit of a double. -/
def isNegative (x : Float) : Bool := decide (0x8000000000000000 ≤ x.toBits.toNat)

/-- An integer that orders doubles by value, with minus zero before zero. -/
def orderKey (x : Float) : Int :=
  let magnitude : Nat := x.toBits.toNat % 0x8000000000000000
  if isNegative x then -(magnitude : Int) - 1 else magnitude

/-- Compares doubles by value, with minus zero before zero. -/
def floatOrder (x y : Float) : Ordering := compare (orderKey x) (orderKey y)

end ChartFeed.Decimal
