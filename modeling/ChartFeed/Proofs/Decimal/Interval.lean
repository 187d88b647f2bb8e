import Mathlib.Algebra.Order.Field.Power
import Mathlib.Data.Rat.Cast.Order
import Mathlib.Order.Compare
import Mathlib.Tactic.FieldSimp
import Mathlib.Tactic.Linarith
import Mathlib.Tactic.NormNum
import Mathlib.Tactic.Ring
import ChartFeed.Decimal.Layout

/-!
# The reals that round to a double

The shortest decimal of a double is looked for in the interval of the reals that round to it.  This
file says where these intervals lie.

* `Binary.holds_iff` — what `Binary.holds` decides: whether the decimal's value lies between the
  ends of the interval, the ends included when the mantissa is even;
* `Binary.holds_shortest` — the shortest decimal lies there;
* `Binary.low_succ` — the intervals of two neighbours meet in an end, which only one of them
  includes;
* `Binary.eq_of_holds` — no decimal lies in the intervals of two magnitudes.
-/

set_option autoImplicit false

namespace ChartFeed.Decimal

/-! ## Values -/

/-- The value of a decimal. -/
def Scientific.value (d : Scientific) : ℚ := d.digits * (10 : ℚ) ^ d.exponent

theorem zpow_mul_pow_toNat {b : ℚ} (hb : b ≠ 0) (i : ℤ) :
    b ^ i * b ^ (-i).toNat = b ^ i.toNat := by
  rcases le_total 0 i with hi | hi
  · obtain ⟨n, rfl⟩ := Int.eq_ofNat_of_zero_le hi
    simp
  · obtain ⟨n, hn⟩ := Int.eq_ofNat_of_zero_le (neg_nonneg.2 hi)
    have hi' : i = -(n : ℤ) := by omega
    subst hi'
    simp [hb]

/-- Comparing without fractions is comparing the values. -/
theorem compareScaled_eq (a : Nat) (i : ℤ) (n : Nat) (j : ℤ) :
    compareScaled a i n j = compare ((a : ℚ) * 10 ^ i) ((n : ℚ) * 2 ^ j) := by
  have hK : (0 : ℚ) < 10 ^ (-i).toNat * 2 ^ (-j).toNat := by positivity
  have hten := zpow_mul_pow_toNat (b := 10) (by norm_num) i
  have htwo := zpow_mul_pow_toNat (b := 2) (by norm_num) j
  have hleft : (a : ℚ) * 10 ^ i * (10 ^ (-i).toNat * 2 ^ (-j).toNat) =
      ((a * Nat.pow 10 i.toNat * Nat.pow 2 (-j).toNat : Nat) : ℚ) := by
    rw [show (a : ℚ) * 10 ^ i * (10 ^ (-i).toNat * 2 ^ (-j).toNat) =
      a * (10 ^ i * 10 ^ (-i).toNat) * 2 ^ (-j).toNat by ring, hten]
    push_cast [Nat.pow_eq]
    rfl
  have hright : (n : ℚ) * 2 ^ j * (10 ^ (-i).toNat * 2 ^ (-j).toNat) =
      ((n * Nat.pow 2 j.toNat * Nat.pow 10 (-i).toNat : Nat) : ℚ) := by
    rw [show (n : ℚ) * 2 ^ j * (10 ^ (-i).toNat * 2 ^ (-j).toNat) =
      n * (2 ^ j * 2 ^ (-j).toNat) * 10 ^ (-i).toNat by ring, htwo]
    push_cast [Nat.pow_eq]
    rfl
  rw [compareScaled, ← cmp_eq_compare, ← cmp_eq_compare, ← cmp_mul_pos_right hK, hleft, hright]
  exact (Nat.strictMono_cast (α := ℚ)).cmp_map_eq _ _ |>.symm

/-! ## The interval of a binary -/

namespace Binary

/-- The lower end, in quarters of the last place. -/
def lowQuarters (b : Binary) : Nat :=
  if b.narrowBelow then 4 * b.mantissa - 1 else 4 * b.mantissa - 2

/-- The lower end of the reals that round to the value. -/
def low (b : Binary) : ℚ := b.lowQuarters * 2 ^ (b.scale - 2)

/-- Their upper end. -/
def high (b : Binary) : ℚ := (4 * b.mantissa + 2 : Nat) * 2 ^ (b.scale - 2)

theorem low_lt_high (b : Binary) : b.low < b.high := by
  have hq : b.lowQuarters < 4 * b.mantissa + 2 := by
    rw [lowQuarters]
    split <;> omega
  have hp : (0 : ℚ) < 2 ^ (b.scale - 2) := by positivity
  exact mul_lt_mul_of_pos_right (by exact_mod_cast hq) hp

/-- **The decimal lies in the interval**, the ends of which belong to it when the mantissa is
even. -/
theorem holds_iff (b : Binary) (d : Scientific) :
    b.holds d = true ↔
      (b.low < d.value ∨ (b.mantissa % 2 = 0 ∧ b.low = d.value)) ∧
        (d.value < b.high ∨ (b.mantissa % 2 = 0 ∧ d.value = b.high)) := by
  have hlow : compareScaled d.digits d.exponent b.lowQuarters (b.scale - 2) =
      compare d.value b.low := compareScaled_eq _ _ _ _
  have hhigh : compareScaled d.digits d.exponent (4 * b.mantissa + 2) (b.scale - 2) =
      compare d.value b.high := compareScaled_eq _ _ _ _
  rw [holds, ← lowQuarters]
  simp only [hlow, hhigh, Bool.and_eq_true, Bool.or_eq_true, beq_iff_eq, compare_gt_iff_gt,
    compare_lt_iff_lt, compare_eq_iff_eq]
  constructor
  · rintro ⟨habove, hbelow⟩
    exact ⟨habove.imp id fun h ↦ ⟨h.1, h.2.symm⟩, hbelow⟩
  · rintro ⟨habove, hbelow⟩
    exact ⟨habove.imp id fun h ↦ ⟨h.1, h.2.symm⟩, hbelow⟩

/-- What lies in the interval is a matter of the value. -/
theorem holds_congr (b : Binary) {d e : Scientific} (h : d.value = e.value) :
    b.holds d = b.holds e := by
  rw [Bool.eq_iff_iff, holds_iff, holds_iff, h]

/-! ## The shortest decimal lies in the interval -/

theorem holds_of_onGrid {b : Binary} {ties : Ties} {exponent : ℤ} {d : Scientific}
    (h : b.onGrid ties exponent = some d) : b.holds d = true := by
  unfold onGrid at h
  simp only at h
  split at h
  · cases h
  · next hbelow _ => cases h; exact hbelow
  · next _ habove => cases h; exact habove
  · next hbelow habove =>
    split at h
    · cases h; exact hbelow
    · cases h; exact habove
    · split at h
      · cases h; exact hbelow
      · cases h; exact habove

theorem holds_of_search {b : Binary} {ties : Ties} {exponent : ℤ} {fuel : Nat} {d : Scientific}
    (h : b.search ties exponent fuel = some d) : b.holds d = true := by
  induction fuel generalizing exponent with
  | zero => cases h
  | succ fuel ih =>
    rw [search] at h
    split at h
    · next hgrid => cases h; exact holds_of_onGrid hgrid
    · exact ih h

/-- The value itself lies in its interval. -/
theorem holds_exact {b : Binary} (hb : b.mantissa ≠ 0) : b.holds b.exact = true := by
  have hp : (0 : ℚ) < 2 ^ (b.scale - 2) := by positivity
  have hvalue : b.exact.value = (4 * b.mantissa : Nat) * 2 ^ (b.scale - 2) := by
    have hfour : (2 : ℚ) ^ b.scale = 4 * 2 ^ (b.scale - 2) := by
      rw [zpow_sub₀ (by norm_num)]
      norm_num
      ring
    have hten : (10 : ℚ) ^ (-((-b.scale).toNat : ℤ)) * 5 ^ (-b.scale).toNat *
        2 ^ b.scale.toNat = 2 ^ b.scale := by
      rw [← zpow_mul_pow_toNat (by norm_num) b.scale, zpow_neg, zpow_natCast,
        show (10 : ℚ) = 2 * 5 by norm_num, mul_pow]
      field_simp
    rw [Scientific.value, Binary.exact]
    push_cast [Nat.pow_eq]
    rw [mul_assoc 4, mul_left_comm, ← hfour, ← hten]
    ring
  have hlow : b.low < b.exact.value := by
    rw [hvalue, low]
    refine mul_lt_mul_of_pos_right ?_ hp
    rw [Nat.cast_lt, lowQuarters]
    split <;> omega
  have hhigh : b.exact.value < b.high := by
    rw [hvalue, high]
    refine mul_lt_mul_of_pos_right ?_ hp
    rw [Nat.cast_lt]
    omega
  exact (b.holds_iff _).2 ⟨.inl hlow, .inl hhigh⟩

theorem value_stripZeros (d : Scientific) (fuel : Nat) : (d.stripZeros fuel).value = d.value := by
  induction fuel generalizing d with
  | zero => rfl
  | succ fuel ih =>
    rw [Scientific.stripZeros]
    split
    · next hzero =>
      have hdigits : d.digits = d.digits / 10 * 10 := by omega
      rw [ih, Scientific.value, Scientific.value, zpow_add_one₀ (by norm_num)]
      conv_rhs => rw [hdigits]
      push_cast
      ring
    · rfl

/-- **The shortest decimal lies in the interval.** -/
theorem holds_shortest (b : Binary) (ties : Ties) : b.holds (b.shortest ties) = true := by
  rw [shortest]
  split
  · next hzero =>
    have hlow : b.low = 0 := by simp [low, lowQuarters, hzero]
    have hhigh : 0 < b.high := by
      have hp : (0 : ℚ) < 2 ^ (b.scale - 2) := by positivity
      simpa [high, hzero] using hp
    rw [holds_iff, hlow, hzero]
    simp [Scientific.value, hhigh]
  · next hpos =>
    rw [holds_congr b (value_stripZeros _ _)]
    cases hsearch : b.search ties b.magnitude 18 with
    | none => exact holds_exact hpos
    | some d => exact holds_of_search hsearch

/-! ## Neighbours -/

/-- The finite magnitudes in ascending order, by the bits of a double without its sign. -/
def ofMagnitude (n : Nat) : Binary :=
  if n / 0x10000000000000 = 0 then ⟨n % 0x10000000000000, -1074, false⟩
  else ⟨0x10000000000000 + n % 0x10000000000000, (n / 0x10000000000000 : Nat) - 1075,
    decide (n % 0x10000000000000 = 0) && decide (1 < n / 0x10000000000000)⟩

theorem ofFloat_eq (x : Float) :
    ofFloat x = ofMagnitude (x.toBits.toNat % 0x8000000000000000) := by
  have hbiased : x.toBits.toNat / 0x10000000000000 % 0x800 =
      x.toBits.toNat % 0x8000000000000000 / 0x10000000000000 := by omega
  have hfraction : x.toBits.toNat % 0x10000000000000 =
      x.toBits.toNat % 0x8000000000000000 % 0x10000000000000 := by omega
  rw [ofFloat, ofMagnitude, hbiased, hfraction]

theorem mantissa_ofMagnitude_mod_two (n : Nat) : (ofMagnitude n).mantissa % 2 = n % 2 := by
  rw [ofMagnitude]
  split
  · simp only
    omega
  · simp only
    omega

theorem low_eq_high {b c : Binary} (hscale : c.scale = b.scale)
    (hquarters : c.lowQuarters = 4 * b.mantissa + 2) : c.low = b.high := by
  rw [low, high, hscale, hquarters]

theorem low_eq_high_of_carry {b c : Binary} (hscale : c.scale = b.scale + 1)
    (hquarters : 2 * c.lowQuarters = 4 * b.mantissa + 2) : c.low = b.high := by
  have hexponent : b.scale + 1 - 2 = b.scale - 2 + 1 := by ring
  rw [low, high, hscale, ← hquarters, hexponent, zpow_add_one₀ (by norm_num)]
  push_cast
  ring

theorem ofMagnitude_of_zero {n : Nat} (h : n / 0x10000000000000 = 0) :
    ofMagnitude n = ⟨n % 0x10000000000000, -1074, false⟩ := by
  rw [ofMagnitude, if_pos h]

theorem ofMagnitude_of_ne_zero {n : Nat} (h : n / 0x10000000000000 ≠ 0) :
    ofMagnitude n = ⟨0x10000000000000 + n % 0x10000000000000,
      (n / 0x10000000000000 : Nat) - 1075,
      decide (n % 0x10000000000000 = 0) && decide (1 < n / 0x10000000000000)⟩ := by
  rw [ofMagnitude, if_neg h]

/-- The mantissa starts over, one binade up. -/
theorem low_succ_of_carry {n : Nat} (hcarry : n % 0x10000000000000 = 0xfffffffffffff) :
    (ofMagnitude (n + 1)).low = (ofMagnitude n).high := by
  have hbiased : (n + 1) / 0x10000000000000 = n / 0x10000000000000 + 1 := by omega
  have hfraction : (n + 1) % 0x10000000000000 = 0 := by omega
  have hsucc := ofMagnitude_of_ne_zero (n := n + 1) (by omega)
  rw [hbiased, hfraction] at hsucc
  by_cases hzero : n / 0x10000000000000 = 0
  · rw [hsucc, ofMagnitude_of_zero hzero, hzero, hcarry]
    refine low_eq_high (by norm_num) ?_
    simp only [lowQuarters, Nat.zero_add, Nat.lt_irrefl, decide_false, Bool.and_false,
      Bool.false_eq_true, if_false]
  · have hone : 1 < n / 0x10000000000000 + 1 := by omega
    rw [hsucc, ofMagnitude_of_ne_zero hzero, hcarry]
    refine low_eq_high_of_carry ?_ ?_
    · push_cast
      ring
    · simp only [lowQuarters, hone, decide_true, Bool.and_true, if_true]

/-- The mantissa is one greater in the same binade. -/
theorem low_succ_of_lt {n : Nat} (hlt : n % 0x10000000000000 ≠ 0xfffffffffffff) :
    (ofMagnitude (n + 1)).low = (ofMagnitude n).high := by
  have hbiased : (n + 1) / 0x10000000000000 = n / 0x10000000000000 := by omega
  have hfraction : (n + 1) % 0x10000000000000 = n % 0x10000000000000 + 1 := by omega
  by_cases hzero : n / 0x10000000000000 = 0
  · rw [ofMagnitude_of_zero (hbiased.trans hzero), ofMagnitude_of_zero hzero, hfraction]
    refine low_eq_high rfl ?_
    simp only [lowQuarters, Bool.false_eq_true, if_false]
    omega
  · have hsucc : (n + 1) / 0x10000000000000 ≠ 0 := hbiased.trans_ne hzero
    rw [ofMagnitude_of_ne_zero hsucc, ofMagnitude_of_ne_zero hzero, hfraction, hbiased]
    refine low_eq_high rfl ?_
    simp only [lowQuarters, Nat.succ_ne_zero, decide_false, Bool.false_and, Bool.false_eq_true,
      if_false]
    omega

/-- The interval of a magnitude begins where the one before it ends. -/
theorem low_succ (n : Nat) : (ofMagnitude (n + 1)).low = (ofMagnitude n).high := by
  by_cases hcarry : n % 0x10000000000000 = 0xfffffffffffff
  · exact low_succ_of_carry hcarry
  · exact low_succ_of_lt hcarry

theorem high_strictMono : StrictMono fun n ↦ (ofMagnitude n).high := by
  refine strictMono_nat_of_lt_succ fun n ↦ ?_
  simpa [low_succ n] using low_lt_high (ofMagnitude (n + 1))

/-- **No decimal lies in the intervals of two magnitudes.** -/
theorem eq_of_holds {m n : Nat} {d : Scientific} (hm : (ofMagnitude m).holds d = true)
    (hn : (ofMagnitude n).holds d = true) : m = n := by
  wlog hlt : m < n generalizing m n
  · rcases Nat.lt_trichotomy m n with h | h | h
    · exact absurd h hlt
    · exact h
    · exact (this hn hm h).symm
  exfalso
  obtain ⟨k, rfl⟩ : ∃ k, n = k + 1 := ⟨n - 1, by omega⟩
  have hmono : (ofMagnitude m).high ≤ (ofMagnitude k).high :=
    high_strictMono.monotone (Nat.le_of_lt_succ hlt)
  have hmax := ((holds_iff _ _).1 hm).2
  have hmin := ((holds_iff _ _).1 hn).1
  rw [mantissa_ofMagnitude_mod_two] at hmax hmin
  rw [low_succ] at hmin
  -- the value is the end where the two intervals meet, and both include it
  have hle : d.value ≤ (ofMagnitude m).high := hmax.elim le_of_lt fun h ↦ le_of_eq h.2
  have hge : (ofMagnitude k).high ≤ d.value := hmin.elim le_of_lt fun h ↦ le_of_eq h.2
  have hends : (ofMagnitude m).high = (ofMagnitude k).high := le_antisymm hmono (hge.trans hle)
  have hmk : m = k := high_strictMono.injective hends
  subst hmk
  have hevenm : m % 2 = 0 := (hmax.resolve_left (not_lt.2 hge)).1
  have hevenn : (m + 1) % 2 = 0 := (hmin.resolve_left (not_lt.2 hle)).1
  omega

end Binary

end ChartFeed.Decimal
