import ChartFeed.Decimal.Order

/-!
# Statistics of doubles

Every statistic is of a list of finite doubles and adds from left to right, so that its rounding is
determined.

* `Statistics.sum`, `product`, `mean`, `least`, `greatest`;
* `Statistics.variance`, with a correction of the divisor, and its root;
* `Statistics.quantile`, which interpolates linearly between the two closest ranks.

The result may overflow; whoever stores it decides what becomes of that.
-/

set_option autoImplicit false

namespace ChartFeed.Statistics

/-- The sum from left to right.  It starts from minus zero, which adds nothing to any double. -/
def sum (xs : List Float) : Float := xs.foldl (· + ·) (-0.0)

/-- The product from left to right. -/
def product (xs : List Float) : Float := xs.foldl (· * ·) 1.0

/-- The arithmetic mean; of nothing there is none. -/
def mean (xs : List Float) : Option Float :=
  if xs.isEmpty then none else some (sum xs / Float.ofNat xs.length)

/-- The smaller of two doubles, the first when they are equal. -/
def smaller (x y : Float) : Float := if y < x then y else x

/-- The greater of two doubles, the first when they are equal. -/
def greater (x y : Float) : Float := if x < y then y else x

/-- The least of a list. -/
def least : List Float → Option Float
  | [] => none
  | x :: rest => some (rest.foldl smaller x)

/-- The greatest of a list. -/
def greatest : List Float → Option Float
  | [] => none
  | x :: rest => some (rest.foldl greater x)

/-- The mean square distance from the mean, over `correction` fewer than there are. -/
def variance (xs : List Float) (correction : Nat) : Option Float :=
  if xs.length ≤ correction then none
  else (mean xs).map fun m ↦
    sum (xs.map fun x ↦ (x - m) * (x - m)) / Float.ofNat (xs.length - correction)

/-- The root of the variance. -/
def deviation (xs : List Float) (correction : Nat) : Option Float :=
  (variance xs correction).map Float.sqrt

/-! ## Order -/

/-- Puts a double before the first that is greater. -/
def insertSorted (x : Float) : List Float → List Float
  | [] => [x]
  | y :: rest =>
    if Decimal.orderKey x < Decimal.orderKey y then x :: y :: rest else y :: insertSorted x rest

/-- The doubles in ascending order. -/
def sorted : List Float → List Float
  | [] => []
  | x :: rest => insertSorted x (sorted rest)

/-- The nearest value from zero to one. -/
def clampUnit (p : Float) : Float := if p < 0.0 then 0.0 else if 1.0 < p then 1.0 else p

/-- The integer part of a double that is not negative. -/
def integerPart (x : Float) : Nat := x.toUInt64.toNat

/-- The value at the fraction `p` of the way through the list in order. -/
def quantile (xs : List Float) (p : Float) : Option Float :=
  if xs.isEmpty then none
  else
    let inOrder := sorted xs
    let rank := clampUnit p * Float.ofNat (xs.length - 1)
    let low := integerPart rank
    let high := if Float.ofNat low == rank then low else low + 1
    let below := inOrder.getD low 0.0
    let above := inOrder.getD high 0.0
    some (below + (above - below) * (rank - Float.ofNat low))

/-- The value in the middle of the list in order. -/
def median (xs : List Float) : Option Float := quantile xs 0.5

end ChartFeed.Statistics
