import Mathlib
import ChartFeed.Decimal.Order
import ChartFeed.Proofs.Decimal.Rounding

/-!
# What doubles are worth

A finite double stands for a rational number, and its place in the order of doubles is that of the
number.  So the order can be reasoned about in `ℚ`, which knows integers too.

* `Binary.value`, `value` — the number that a magnitude, and that a double, stands for;
* `floatOrder_eq` — the order of doubles is that of their values, with minus zero before zero;
* `isFinite_iff` — the finite doubles are those whose magnitude is below infinity;
* `orderKey_ofInt_mono` — integers keep their order when they become doubles.  They need not stay
  different;
* `orderKey_ofInt_le`, `le_orderKey_ofInt` — an integer becomes a double on the same side of a given
  double, or that double itself; `ofInt_eq_of_value_eq` — the latter if it is its value.
-/

set_option autoImplicit false

namespace ChartFeed.Decimal

/-! ## Magnitudes -/

namespace Binary

/-- The number that a magnitude stands for. -/
def value (b : Binary) : ℚ := b.mantissa * 2 ^ b.scale

theorem value_eq (b : Binary) : b.value = (4 * b.mantissa : ℕ) * 2 ^ (b.scale - 2) := by
  have hscale : (2 : ℚ) ^ b.scale = 4 * 2 ^ (b.scale - 2) := by
    rw [zpow_sub₀ (by norm_num)]
    norm_num
    ring
  rw [value, hscale]
  push_cast
  ring

theorem low_le_value (b : Binary) : b.low ≤ b.value := by
  have hp : (0 : ℚ) ≤ 2 ^ (b.scale - 2) := by positivity
  rw [low, value_eq]
  refine mul_le_mul_of_nonneg_right ?_ hp
  rw [Nat.cast_le, lowQuarters]
  split <;> omega

theorem low_lt_value {b : Binary} (h : b.mantissa ≠ 0) : b.low < b.value := by
  have hp : (0 : ℚ) < 2 ^ (b.scale - 2) := by positivity
  rw [low, value_eq]
  refine mul_lt_mul_of_pos_right ?_ hp
  rw [Nat.cast_lt, lowQuarters]
  split <;> omega

theorem value_lt_high (b : Binary) : b.value < b.high := by
  have hp : (0 : ℚ) < 2 ^ (b.scale - 2) := by positivity
  rw [high, value_eq]
  refine mul_lt_mul_of_pos_right ?_ hp
  rw [Nat.cast_lt]
  omega

/-- The interval of a smaller magnitude ends before that of a greater one begins. -/
theorem high_le_low {m n : ℕ} (h : m < n) : (ofMagnitude m).high ≤ (ofMagnitude n).low := by
  obtain ⟨k, rfl⟩ : ∃ k, n = k + 1 := ⟨n - 1, by omega⟩
  rw [low_succ]
  exact high_strictMono.monotone (Nat.le_of_lt_succ h)

theorem value_strictMono : StrictMono fun n ↦ (ofMagnitude n).value := fun m n h ↦
  calc
    (ofMagnitude m).value < (ofMagnitude m).high := value_lt_high _
    _ ≤ (ofMagnitude n).low := high_le_low h
    _ ≤ (ofMagnitude n).value := low_le_value _

theorem value_ofMagnitude_zero : (ofMagnitude 0).value = 0 := by
  rw [value, ofMagnitude_of_zero rfl]
  norm_num

theorem value_eq_zero_iff {n : ℕ} : (ofMagnitude n).value = 0 ↔ n = 0 := by
  rw [← value_ofMagnitude_zero]
  exact value_strictMono.injective.eq_iff

theorem value_nonneg (n : ℕ) : 0 ≤ (ofMagnitude n).value := by
  rw [← value_ofMagnitude_zero]
  exact value_strictMono.monotone n.zero_le

variable {k B n : ℕ} (h : (ofMagnitude k).holds ⟨n, 0⟩ = true)

include h

theorem low_le_of_holds : (ofMagnitude k).low ≤ n ∧ (n : ℚ) ≤ (ofMagnitude k).high := by
  have hvalue : Scientific.value ⟨n, 0⟩ = n := by rw [Scientific.value, zpow_zero, mul_one]
  have hholds := (holds_iff _ _).1 h
  rw [hvalue] at hholds
  exact ⟨hholds.1.elim le_of_lt fun h ↦ h.2.le, hholds.2.elim le_of_lt fun h ↦ h.2.le⟩

/-- A double that is not less than an integer is not less than what the integer rounds to. -/
theorem magnitude_le_of_le_value (hle : n ≤ (ofMagnitude B).value) : k ≤ B := by
  by_contra hlt
  have hhigh := value_lt_high (ofMagnitude B)
  have hgap := high_le_low (not_le.1 hlt)
  linarith [(low_le_of_holds h).1]

/-- A double that is not greater than an integer is not greater than what the integer rounds to. -/
theorem le_magnitude_of_value_le (hle : (ofMagnitude B).value ≤ n) : B ≤ k := by
  by_contra hlt
  have hpos : (ofMagnitude B).mantissa ≠ 0 := by
    intro hzero
    have hvalue : (ofMagnitude B).value = 0 := by rw [value, hzero, Nat.cast_zero, zero_mul]
    have := value_eq_zero_iff.1 hvalue
    omega
  have hlow := low_lt_value hpos
  have hgap := high_le_low (not_le.1 hlt)
  linarith [(low_le_of_holds h).2]

omit h in
/-- **Rounding keeps the order.** -/
theorem magnitude_mono {k k' n n' : ℕ} (h : (ofMagnitude k).holds ⟨n, 0⟩ = true)
    (h' : (ofMagnitude k').holds ⟨n', 0⟩ = true) (hle : n ≤ n') : k ≤ k' := by
  by_contra hlt
  have hgap := high_le_low (not_le.1 hlt)
  have hge : (n' : ℚ) ≤ n :=
    ((low_le_of_holds h').2.trans hgap).trans (low_le_of_holds h).1
  obtain rfl : n = n' := le_antisymm hle (by exact_mod_cast hge)
  exact hlt (eq_of_holds h h').le

end Binary

/-! ## Doubles -/

/-- The bits of a double without its sign. -/
def magnitude (x : Float) : ℕ := x.toBits.toNat % 0x8000000000000000

/-- The number that a finite double stands for. -/
def value (x : Float) : ℚ :=
  if isNegative x then -(Binary.ofMagnitude (magnitude x)).value
  else (Binary.ofMagnitude (magnitude x)).value

theorem toNat_toBits_eq (x : Float) : x.toBits.toNat =
    if isNegative x then 0x8000000000000000 + magnitude x else magnitude x := by
  have := x.toBits.toNat_lt
  rw [isNegative, magnitude]
  split
  · next h =>
    have := of_decide_eq_true h
    omega
  · next h =>
    have : ¬ _ := fun h' ↦ h (decide_eq_true h')
    omega

theorem orderKey_eq (x : Float) :
    orderKey x = if isNegative x then -(magnitude x : ℤ) - 1 else magnitude x := rfl

theorem orderKey_injective : Function.Injective orderKey := by
  intro x y h
  refine Float.toBits_inj.1 (UInt64.toNat_inj.1 ?_)
  rw [toNat_toBits_eq, toNat_toBits_eq]
  rw [orderKey_eq, orderKey_eq] at h
  cases hx : isNegative x <;> cases hy : isNegative y <;> simp only [hx, hy] at h ⊢ <;>
    simp at h ⊢ <;> omega

theorem floatOrder_eq_iff {x y : Float} : floatOrder x y = .eq ↔ x = y := by
  rw [floatOrder, compare_eq_iff_eq]
  exact orderKey_injective.eq_iff

/-! ## Finite doubles -/

open Float.Model UnpackedFloat

theorem isFinite_unpack (b : BitVec 64) :
    (UnpackedFloat.unpack Format.binary64 b).isFinite =
      decide (b.toNat % 0x8000000000000000 < infinite) := by
  have hexponent : (@unpackExponent Format.binary64 b).toNat =
      b.toNat / 0x10000000000000 % 0x800 := by
    rw [unpackExponent_def, BitVec.extractLsb'_toNat, Nat.shiftRight_eq_div_pow]
    rfl
  have hmost : @unpackExponent Format.binary64 b = -1#11 ↔
      b.toNat / 0x10000000000000 % 0x800 = 0x7ff := by
    rw [← hexponent]
    exact ⟨fun h ↦ by rw [h]; rfl, fun h ↦ BitVec.eq_of_toNat_eq h⟩
  rw [Bool.eq_iff_iff, decide_eq_true_iff, infinite, UnpackedFloat.unpack]
  simp only [hmost]
  split
  · next h =>
    refine iff_of_false ?_ (by omega)
    split <;> exact Bool.false_ne_true
  · next h =>
    refine iff_of_true ?_ (by omega)
    split
    · split <;> rfl
    · rfl

/-- **The finite doubles** are those below infinity. -/
theorem isFinite_iff {x : Float} : x.isFinite = true ↔ magnitude x < infinite := by
  have h := isFinite_unpack x.toBits.toBitVec
  show (UnpackedFloat.unpack Format.binary64 x.toBits.toBitVec).isFinite = true ↔ _
  rw [h, decide_eq_true_iff]
  rfl

/-- Minus zero. -/
def minusZero : Float := -0.0

theorem zero_ne_minusZero : (0.0 : Float) ≠ minusZero := by decide +kernel

theorem eq_minusZero_iff {x : Float} :
    x = minusZero ↔ isNegative x = true ∧ magnitude x = 0 := by
  have hkey : orderKey minusZero = -1 := by decide +kernel
  rw [← orderKey_injective.eq_iff, hkey, orderKey_eq]
  cases isNegative x <;> simp

theorem orderKey_lt_of_value_lt {x y : Float} (h : value x < value y) :
    orderKey x < orderKey y := by
  have hx := Binary.value_nonneg (magnitude x)
  have hy := Binary.value_nonneg (magnitude y)
  rw [value, value] at h
  rw [orderKey_eq, orderKey_eq]
  cases hsx : isNegative x <;> cases hsy : isNegative y <;>
    simp only [hsx, hsy, Bool.false_eq_true, if_true, if_false] at h ⊢
  · exact Int.ofNat_lt.2 (Binary.value_strictMono.lt_iff_lt.1 h)
  · linarith
  · omega
  · have := Binary.value_strictMono.lt_iff_lt.1 (neg_lt_neg_iff.1 h)
    omega

/-- Doubles of one value differ at most in the sign of a zero. -/
theorem eq_or_zero_of_value_eq {x y : Float} (h : value x = value y) :
    x = y ∨ magnitude x = 0 ∧ magnitude y = 0 ∧ isNegative x ≠ isNegative y := by
  have hx := Binary.value_nonneg (magnitude x)
  have hy := Binary.value_nonneg (magnitude y)
  rw [← orderKey_injective.eq_iff, orderKey_eq, orderKey_eq]
  rw [value, value] at h
  cases hsx : isNegative x <;> cases hsy : isNegative y <;>
    simp only [hsx, hsy, Bool.false_eq_true, if_true, if_false] at h ⊢
  · exact .inl (congrArg _ (Binary.value_strictMono.injective h))
  · exact .inr ⟨Binary.value_eq_zero_iff.1 (by linarith), Binary.value_eq_zero_iff.1 (by linarith),
      Bool.false_ne_true⟩
  · exact .inr ⟨Binary.value_eq_zero_iff.1 (by linarith), Binary.value_eq_zero_iff.1 (by linarith),
      Bool.false_ne_true.symm⟩
  · rw [Binary.value_strictMono.injective (neg_injective h)]
    exact .inl rfl

/-- **Doubles are ordered by value**, and minus zero is before zero. -/
theorem floatOrder_eq (x y : Float) :
    floatOrder x y = (compare (value x) (value y)).then
      (compare (decide (y = minusZero)) (decide (x = minusZero))) := by
  rcases lt_trichotomy (value x) (value y) with hlt | heq | hgt
  · rw [floatOrder, compare_lt_iff_lt.2 hlt, compare_lt_iff_lt.2 (orderKey_lt_of_value_lt hlt)]
    rfl
  · rw [compare_eq_iff_eq.2 heq, Ordering.then]
    rcases eq_or_zero_of_value_eq heq with rfl | ⟨hx, hy, hsign⟩
    · rw [floatOrder_eq_iff.2 rfl, compare_eq_iff_eq.2 rfl]
    · have hminus (z : Float) (hz : magnitude z = 0) :
          decide (z = minusZero) = isNegative z := by
        rw [Bool.eq_iff_iff, decide_eq_true_iff, eq_minusZero_iff]
        exact and_iff_left hz
      rw [hminus x hx, hminus y hy, floatOrder, orderKey_eq, orderKey_eq, hx, hy]
      cases hsx : isNegative x <;> cases hsy : isNegative y
      · exact absurd (hsx.trans hsy.symm) hsign
      · rfl
      · rfl
      · exact absurd (hsx.trans hsy.symm) hsign
  · rw [floatOrder, compare_gt_iff_gt.2 hgt, compare_gt_iff_gt.2 (orderKey_lt_of_value_lt hgt)]
    rfl

/-! ## Integers as doubles -/

theorem neg_unpack {s : Sign} {e : BitVec 11} {m : BitVec 52} (h : e = -1#11 → m = 0#52) :
    (UnpackedFloat.unpack Format.binary64 (packComponents Format.binary64 s e m)).neg =
      UnpackedFloat.unpack Format.binary64 (packComponents Format.binary64 (-s) e m) := by
  rw [UnpackedFloat.unpack, UnpackedFloat.unpack]
  simp only [unpackExponent_packComponents, unpackMantissa_packComponents,
    unpackSign_packComponents, Sign.ofBitVec_toBitVec]
  split
  · next he =>
    rw [if_pos (h he), if_pos (h he)]
    rfl
  · split
    · split <;> rfl
    · rfl

/-- Turning the sign of a double leaves its magnitude. -/
theorem magnitude_neg {x : Float} (h : magnitude x ≤ infinite) :
    magnitude (-x) = magnitude x ∧ isNegative (-x) = !isNegative x := by
  obtain ⟨s, e, m, hx⟩ : ∃ s e m, x.toBits.toBitVec = packComponents Format.binary64 s e m :=
    ⟨_, _, _,
      (@packComponents_unpackSign_unpackExponent_unpackMantissa Format.binary64 _).symm⟩
  have hbits : x.toBits.toNat = (packComponents Format.binary64 s e m).toNat :=
    congrArg BitVec.toNat hx
  rw [toNat_packComponents] at hbits
  have he : e.toNat < 0x800 := e.isLt
  have hm : m.toNat < 0x10000000000000 := m.isLt
  have hnumber : e = -1#11 → m = 0#52 := by
    intro hmost
    have hvalue : e.toNat = 0x7ff := by rw [hmost]; rfl
    rw [magnitude, hbits, infinite] at h
    exact BitVec.eq_of_toNat_eq (by simp; omega)
  have hpack : (UnpackedFloat.unpack Format.binary64 (packComponents Format.binary64 (-s) e m)).pack
      Format.binary64 = packComponents Format.binary64 (-s) e m := by
    rw [pack_unpack, if_neg]
    simpa [isNaNBits] using hnumber
  have hneg : (-x).toBits.toNat = (packComponents Format.binary64 (-s) e m).toNat := by
    show (UnpackedFloat.pack Format.binary64
      (UnpackedFloat.unpack Format.binary64 x.toBits.toBitVec).neg).toNat = _
    rw [hx, neg_unpack hnumber, hpack]
  rw [toNat_packComponents] at hneg
  rw [magnitude, magnitude, isNegative, isNegative, hneg, hbits, ← decide_not]
  cases s
  · have hplus : (-Sign.negative).toBitVec.toNat = 0 := rfl
    have hminus : Sign.negative.toBitVec.toNat = 1 := rfl
    rw [hplus, hminus]
    exact ⟨by omega, decide_eq_decide.2 (by omega)⟩
  · have hminus : (-Sign.positive).toBitVec.toNat = 1 := rfl
    have hplus : Sign.positive.toBitVec.toNat = 0 := rfl
    rw [hplus, hminus]
    exact ⟨by omega, decide_eq_decide.2 (by omega)⟩

theorem magnitude_ofNat (n : ℕ) : ∃ k, magnitude (Float.ofNat n) = min k infinite ∧
    isNegative (Float.ofNat n) = false ∧ (Binary.ofMagnitude k).holds ⟨n, 0⟩ = true := by
  obtain ⟨k, hbits, hholds⟩ := exists_holds_ofNat n
  have hlt : min k infinite < 0x8000000000000000 := (min_le_right _ _).trans_lt (by decide)
  refine ⟨k, ?_, ?_, hholds⟩
  · rw [magnitude, hbits, Nat.mod_eq_of_lt hlt]
  · rw [isNegative, hbits, decide_eq_false_iff_not, not_le]
    exact hlt

theorem orderKey_ofInt (n : ℤ) : ∃ k, (Binary.ofMagnitude k).holds ⟨n.natAbs, 0⟩ = true ∧
    orderKey (Float.ofInt n) =
      if n < 0 then -((min k infinite : ℕ) : ℤ) - 1 else ((min k infinite : ℕ) : ℤ) := by
  cases n with
  | ofNat n =>
    obtain ⟨k, hmagnitude, hsign, hholds⟩ := magnitude_ofNat n
    refine ⟨k, hholds, ?_⟩
    show orderKey (Float.ofNat n) = _
    rw [orderKey_eq, hsign, hmagnitude, if_neg (by simp), if_neg (by simp)]
  | negSucc n =>
    obtain ⟨k, hmagnitude, hsign, hholds⟩ := magnitude_ofNat (n + 1)
    obtain ⟨hsame, hturned⟩ := magnitude_neg (hmagnitude.trans_le (min_le_right _ _))
    refine ⟨k, hholds, ?_⟩
    show orderKey (-Float.ofNat (n + 1)) = _
    rw [orderKey_eq, hturned, hsame, hsign, hmagnitude, if_pos (by simp), if_pos (by simp)]

/-- **Integers keep their order** as doubles. -/
theorem orderKey_ofInt_mono {m n : ℤ} (h : m ≤ n) :
    orderKey (Float.ofInt m) ≤ orderKey (Float.ofInt n) := by
  obtain ⟨k, hk, hm⟩ := orderKey_ofInt m
  obtain ⟨l, hl, hn⟩ := orderKey_ofInt n
  rw [hm, hn]
  split
  · split
    · have := Binary.magnitude_mono hl hk (by omega)
      omega
    · omega
  · rw [if_neg (by omega)]
    have := Binary.magnitude_mono hk hl (by omega)
    omega

/-- Integers have the sign of the doubles they become. -/
theorem ofInt_eq_zero_iff {n : ℤ} : Float.ofInt n = 0.0 ↔ n = 0 := by
  have hone : orderKey (0.0 : Float) < orderKey (Float.ofInt 1) := by decide +kernel
  have hminus : orderKey (Float.ofInt (-1)) < orderKey (0.0 : Float) := by decide +kernel
  rw [← orderKey_injective.eq_iff]
  constructor
  · intro h
    by_contra hne
    rcases lt_or_gt_of_ne hne with hneg | hpos
    · have := orderKey_ofInt_mono (m := n) (n := -1) (by omega)
      omega
    · have := orderKey_ofInt_mono (m := 1) (n := n) (by omega)
      omega
  · rintro rfl
    decide +kernel

variable {n : ℤ} {x : Float}

/-- A finite double that is not below an integer is not below what the integer becomes, unless it is
minus zero. -/
theorem orderKey_ofInt_le (hx : x.isFinite = true) (hminus : x ≠ minusZero) (h : n ≤ value x) :
    orderKey (Float.ofInt n) ≤ orderKey x := by
  obtain ⟨k, hk, hn⟩ := orderKey_ofInt n
  have hfinite := isFinite_iff.1 hx
  have hnonneg := Binary.value_nonneg (magnitude x)
  have habs : ((n.natAbs : ℕ) : ℚ) = |(n : ℚ)| := by rw [Nat.cast_natAbs, Int.cast_abs]
  rw [value] at h
  rw [hn, orderKey_eq]
  split
  · next hneg =>
    have hneg' : (n : ℚ) < 0 := by exact_mod_cast hneg
    rw [abs_of_neg hneg'] at habs
    split
    · next hsign =>
      rw [if_pos hsign] at h
      have := Binary.le_magnitude_of_value_le hk (by linarith)
      omega
    · omega
  · next hpos =>
    have hpos' : 0 ≤ (n : ℚ) := by exact_mod_cast not_lt.1 hpos
    rw [abs_of_nonneg hpos'] at habs
    split
    · next hsign =>
      rw [if_pos hsign] at h
      have hzero := Binary.value_eq_zero_iff.1 (le_antisymm (by linarith) hnonneg)
      exact absurd (eq_minusZero_iff.2 ⟨hsign, hzero⟩) hminus
    · next hsign =>
      rw [if_neg hsign] at h
      have := Binary.magnitude_le_of_le_value hk (by linarith)
      omega

/-- A finite double that is not above an integer is not above what the integer becomes. -/
theorem le_orderKey_ofInt (hx : x.isFinite = true) (h : value x ≤ n) :
    orderKey x ≤ orderKey (Float.ofInt n) := by
  obtain ⟨k, hk, hn⟩ := orderKey_ofInt n
  have hfinite := isFinite_iff.1 hx
  have hnonneg := Binary.value_nonneg (magnitude x)
  have habs : ((n.natAbs : ℕ) : ℚ) = |(n : ℚ)| := by rw [Nat.cast_natAbs, Int.cast_abs]
  rw [value] at h
  rw [hn, orderKey_eq]
  by_cases hneg : n < 0
  · have hneg' : (n : ℚ) < 0 := by exact_mod_cast hneg
    rw [abs_of_neg hneg'] at habs
    rw [if_pos hneg]
    split
    · next hsign =>
      rw [if_pos hsign] at h
      have := Binary.magnitude_le_of_le_value hk (by linarith)
      omega
    · next hsign =>
      rw [if_neg hsign] at h
      linarith
  · have hpos' : 0 ≤ (n : ℚ) := by exact_mod_cast not_lt.1 hneg
    rw [abs_of_nonneg hpos'] at habs
    rw [if_neg hneg]
    split
    · omega
    · next hsign =>
      rw [if_neg hsign] at h
      have := Binary.le_magnitude_of_value_le hk (by linarith)
      omega

/-- An integer that is the value of a double becomes it, and not minus zero. -/
theorem ofInt_eq_of_value_eq (hx : x.isFinite = true) (hminus : x ≠ minusZero) (h : value x = n) :
    Float.ofInt n = x :=
  orderKey_injective (le_antisymm (orderKey_ofInt_le hx hminus h.ge) (le_orderKey_ofInt hx h.le))

end ChartFeed.Decimal
