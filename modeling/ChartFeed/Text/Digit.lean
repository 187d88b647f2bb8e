/-!
# Decimal digits of all scripts

A script writes its ten digits at ten consecutive code points, so the property is a table of the
zeros.  `isDigit` is the test; `digit?` reads the digits of ASCII alone, since no other script's
digits spell an amount.
-/

set_option autoImplicit false

namespace ChartFeed.Text

/-- The zeros of all scripts. -/
def digitZeros : List Nat := [
  0x30, 0x660, 0x6F0, 0x7C0, 0x966, 0x9E6, 0xA66, 0xAE6, 0xB66, 0xBE6, 0xC66, 0xCE6, 0xD66, 0xDE6,
  0xE50, 0xED0, 0xF20, 0x1040, 0x1090, 0x17E0, 0x1810, 0x1946, 0x19D0, 0x1A80, 0x1A90, 0x1B50,
  0x1BB0, 0x1C40, 0x1C50, 0xA620, 0xA8D0, 0xA900, 0xA9D0, 0xA9F0, 0xAA50, 0xABF0, 0xFF10, 0x104A0,
  0x10D30, 0x10D40, 0x11066, 0x110F0, 0x11136, 0x111D0, 0x112F0, 0x11450, 0x114D0, 0x11650,
  0x116C0, 0x116D0, 0x116DA, 0x11730, 0x118E0, 0x11950, 0x11BF0, 0x11C50, 0x11D50, 0x11DA0,
  0x11F50, 0x16A60, 0x16AC0, 0x16B50, 0x16D70, 0x1CCF0, 0x1D7CE, 0x1D7D8, 0x1D7E2, 0x1D7EC,
  0x1D7F6, 0x1E140, 0x1E2F0, 0x1E4F0, 0x1E5F1, 0x1E950, 0x1FBF0]

/-- Whether a character is a decimal digit of some script. -/
def isDigit (c : Char) : Bool :=
  digitZeros.any fun first ↦ decide (first ≤ c.toNat) && decide (c.toNat < first + 10)

/-- The value of a digit of ASCII. -/
def digit? (c : Char) : Option Nat :=
  if '0' ≤ c ∧ c ≤ '9' then some (c.toNat - '0'.toNat) else none

/-- The natural that digits of ASCII spell; there has to be one. -/
def naturalOf? (cs : List Char) : Option Nat :=
  if cs.isEmpty then none
  else cs.foldl (fun n c ↦ n.bind fun n ↦ (digit? c).map fun d ↦ 10 * n + d) (some 0)

/-- The integer that digits of ASCII spell, behind an optional sign. -/
def integerOf? (cs : List Char) : Option Int :=
  match cs with
  | '-' :: rest => (naturalOf? rest).map fun n ↦ -(n : Int)
  | '+' :: rest => (naturalOf? rest).map fun n ↦ (n : Int)
  | rest => (naturalOf? rest).map fun n ↦ (n : Int)

end ChartFeed.Text
