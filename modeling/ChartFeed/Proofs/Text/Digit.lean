import Mathlib.Tactic.IntervalCases
import ChartFeed.Text.Digit

/-!
# The digits that naturals are written in

* `exists_digitChar` — a digit is one of ten;
* `Text.digit?_digitChar` — digits have the value that they were written for;
* `exists_toDigits` — a natural that is not zero begins with another digit than zero.
-/

set_option autoImplicit false

namespace ChartFeed.Text

theorem exists_digitChar {c : Char} (h : c.isDigit = true) : ∃ d < 10, c = Nat.digitChar d := by
  have hrange : 48 ≤ c.toNat ∧ c.toNat ≤ 57 := by
    simpa [Char.isDigit, UInt32.le_iff_toNat_le] using h
  refine ⟨c.toNat - 48, by omega, ?_⟩
  have hvalue : (Nat.digitChar (c.toNat - 48)).toNat = c.toNat := by
    rw [Nat.toNat_digitChar_of_lt_ten (by omega)]
    omega
  calc c = Char.ofNat c.toNat := (Char.ofNat_toNat c).symm
    _ = Char.ofNat (Nat.digitChar (c.toNat - 48)).toNat := by rw [hvalue]
    _ = Nat.digitChar (c.toNat - 48) := Char.ofNat_toNat _

theorem digit?_digitChar {d : Nat} (h : d < 10) : digit? (Nat.digitChar d) = some d := by
  interval_cases d <;> rfl

/-- The value of a digit of ASCII. -/
theorem digit?_of_isDigit {c : Char} (h : c.isDigit = true) :
    digit? c = some (c.toNat - '0'.toNat) := by
  obtain ⟨d, hd, rfl⟩ := exists_digitChar h
  rw [digit?_digitChar hd]
  exact congrArg some (Nat.toNat_digitChar_sub_48_of_lt_ten hd).symm

/-- A natural that is not zero does not begin with a zero. -/
theorem exists_toDigits {n : Nat} (h : n ≠ 0) :
    ∃ d < 10, d ≠ 0 ∧ ∃ rest, Nat.toDigits 10 n = Nat.digitChar d :: rest := by
  induction n using Nat.strongRecOn with
  | ind n ih =>
    by_cases hsmall : n < 10
    · exact ⟨n, hsmall, h, [], Nat.toDigits_of_lt_base hsmall⟩
    · obtain ⟨d, hd, hne, rest, hrest⟩ := ih (n / 10) (by omega) (by omega)
      refine ⟨d, hd, hne, rest ++ [Nat.digitChar (n % 10)], ?_⟩
      rw [Nat.toDigits_of_base_le (by decide) (by omega), hrest, List.cons_append]

end ChartFeed.Text
