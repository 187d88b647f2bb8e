import ChartFeed.Proofs.Decimal.Overflow

/-!
# Dividing a double by itself

A quotient is rounded like every other result, but a number divided by itself leaves nothing to
round:

* `divCore_self` — the mantissa of such a quotient is a power of two, and no bits follow it;
* `div_self` — so a finite double other than zero divided by itself is one;
* `ofNat_div_self` — which is what the part that is the whole comes to.
-/

set_option autoImplicit false

namespace ChartFeed.Decimal

open Float.Model UnpackedFloat

theorem divCore_self {m : ℕ} (hm : 0 < m) (e : ℤ) :
    divCore Format.binary64 m e m e = (2 ^ 53, -53, .exact) := by
  have htarget : Format.binary64.targetExponent (totalExponent m e - totalExponent m e) = -53 := by
    rw [sub_self]
    rfl
  have hmantissa : m <<< 53 = m * 2 ^ 53 := Nat.shiftLeft_eq ..
  rw [divCore, htarget, sub_self]
  show (m <<< 53 / m, (-53 : ℤ), accuracyOfFraction (m <<< 53 % m) m) = _
  rw [hmantissa, Nat.mul_div_cancel_left _ hm, Nat.mul_mod_right]
  rfl

theorem div_unpacked_self (s : Sign) {m : ℕ} (hm : 0 < m) (e : ℤ) :
    UnpackedFloat.div Format.binary64 (.finite s m e hm) (.finite s m e hm) =
      .finite .positive (2 ^ 52) (-52) (Nat.two_pow_pos 52) := by
  have hsign : s / s = .positive := by cases s <;> rfl
  have hround := roundWithAccuracy_of_exact (m := 2 ^ 52) (k := 1) (e := -52) Nat.log2_two_pow
    (Nat.two_pow_pos 52) (by decide)
  rw [UnpackedFloat.div, divCore_self hm e, hsign]
  exact hround

/-- The doubles that hold zero have no bits but the sign. -/
theorem magnitude_of_unpacked_zero {x : Float} {s : Sign} (hx : unpacked x = .zero s) :
    magnitude x = 0 := by
  have hbits : x.toBits.toNat = (UnpackedFloat.pack Format.binary64 (.zero s)).toNat := by
    rw [← hx, pack_unpacked]
    rfl
  rw [magnitude, hbits]
  cases s <;> rfl

/-- **A finite double other than zero, divided by itself, is one.** -/
theorem div_self {x : Float} (hfinite : x.isFinite = true) (hne : magnitude x ≠ 0) :
    x / x = 1.0 := by
  have hquotient (u : UnpackedFloat) (hu : unpacked x = u) : (x / x).toBits.toBitVec =
      UnpackedFloat.pack Format.binary64 (UnpackedFloat.div Format.binary64 u u) := by
    rw [← hu]
    rfl
  rw [← isFinite_unpacked] at hfinite
  rw [← Float.toBits_inj, ← UInt64.toBitVec_inj]
  rcases hx : unpacked x with s | _ | s | ⟨s, m, e, hm⟩
  · rw [hx] at hfinite
    cases hfinite
  · rw [hx] at hfinite
    cases hfinite
  · exact absurd (magnitude_of_unpacked_zero hx) hne
  · rw [hquotient _ hx, div_unpacked_self s hm e]
    rfl

theorem ofNat_div_self {n : ℕ} (hpos : 0 < n) (hle : n ≤ uint64Max) :
    Float.ofNat n / Float.ofNat n = 1.0 := by
  refine div_self (isFinite_ofNat hle) fun hzero ↦ ?_
  obtain ⟨-, -, hsign, -⟩ := magnitude_ofNat n
  have hkey : orderKey (Float.ofInt n) = orderKey 0.0 := by
    show orderKey (Float.ofNat n) = 0
    rw [orderKey_eq, hsign, hzero]
    rfl
  have hnone := ofInt_eq_zero_iff.1 (orderKey_injective hkey)
  omega

end ChartFeed.Decimal
