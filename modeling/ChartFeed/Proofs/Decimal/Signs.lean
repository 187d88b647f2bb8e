import ChartFeed.Proofs.Decimal.Overflow

/-!
# Zeros and signs

Doubles have two zeros, and so two laws of arithmetic have an exception each.

* `zero_add_of_ne` — zero added to a double leaves it, unless it is minus zero, which becomes zero;
* `neg_sub_of_ne` — differences turn their sign when their sides are changed over, unless both sides
  are the same: the difference is zero then, and not minus zero (`sub_self_of_isFinite`).

A difference is rounded, so the second law needs that rounding and packing do not look at the sign,
and that only equal doubles leave nothing of each other (`eq_of_aligned_eq`).
-/

set_option autoImplicit false

namespace ChartFeed.Decimal

open Float.Model UnpackedFloat

/-! ## Numbers and bits -/

theorem unpacked_add (x y : Float) : unpacked (x + y) = UnpackedFloat.unpack Format.binary64
    (((unpacked x).add Format.binary64 (unpacked y)).pack Format.binary64) := rfl

theorem unpacked_sub (x y : Float) : unpacked (x - y) = UnpackedFloat.unpack Format.binary64
    (((unpacked x).sub Format.binary64 (unpacked y)).pack Format.binary64) := rfl

theorem unpack_pack_unpacked (x : Float) : UnpackedFloat.unpack Format.binary64
    ((unpacked x).pack Format.binary64) = unpacked x := by
  rw [pack_unpacked]
  rfl

theorem unpacked_zero : unpacked 0.0 = .zero .positive := rfl

theorem unpacked_minusZero : unpacked minusZero = .zero .negative := rfl

/-! ## Adding zero -/

theorem add_zero_unpacked {u : UnpackedFloat} (h : u ≠ .zero .negative) :
    UnpackedFloat.add Format.binary64 (.zero .positive) u = u := by
  cases u with
  | zero s =>
    cases s with
    | negative => exact absurd rfl h
    | positive => rfl
  | notANumber | infinity | finite => rfl

/-- **Zero leaves a double as it is**, unless that is minus zero. -/
theorem zero_add_of_ne {x : Float} (h : x ≠ minusZero) : 0.0 + x = x := by
  have hx : unpacked x ≠ .zero .negative :=
    fun hminus ↦ h (unpacked_injective (hminus.trans unpacked_minusZero.symm))
  refine unpacked_injective ?_
  rw [unpacked_add, unpacked_zero, add_zero_unpacked hx, unpack_pack_unpacked]

theorem zero_add_minusZero : 0.0 + minusZero = 0.0 := by
  decide +kernel

/-! ## Turning the sign -/

/-- Only infinity and what is not a number are packed with the greatest exponent. -/
theorem ofNat_ne_most {n : ℕ} (h : n + 1 < 2 ^ 11) : BitVec.ofNat 11 n ≠ -1#11 := by
  intro hmost
  have hvalue : (BitVec.ofNat 11 n).toNat = 2 ^ 11 - 1 := by
    rw [hmost]
    rfl
  rw [BitVec.toNat_ofNat] at hvalue
  omega

/-- Turning the sign of a number turns the sign bit of what it is packed as. -/
theorem exists_pack_eq {u : UnpackedFloat} (hu : u ≠ .notANumber) :
    ∃ s e m, (e = -1#11 → m = 0#52) ∧
      u.pack Format.binary64 = packComponents Format.binary64 s e m ∧
        u.neg.pack Format.binary64 = packComponents Format.binary64 (-s) e m := by
  cases u with
  | notANumber => exact absurd rfl hu
  | infinity s => exact ⟨s, _, _, fun _ ↦ rfl, rfl, rfl⟩
  | zero s => exact ⟨s, _, _, fun _ ↦ rfl, rfl, rfl⟩
  | finite s m e hm =>
    -- the exponent is packed as it is only below that of infinity
    rw [UnpackedFloat.neg, UnpackedFloat.pack, UnpackedFloat.pack]
    split
    · exact ⟨s, _, _, fun _ ↦ rfl, rfl, rfl⟩
    · next hbelow =>
      split
      · refine ⟨s, _, _, fun hmost ↦ absurd hmost (ofNat_ne_most ?_), rfl, rfl⟩
        exact Nat.lt_of_not_le hbelow
      · exact ⟨s, _, _, fun hmost ↦ absurd hmost (by decide), rfl, rfl⟩

/-- **Packing does not look at the sign.** -/
theorem unpack_pack_neg (u : UnpackedFloat) :
    UnpackedFloat.unpack Format.binary64 (u.neg.pack Format.binary64) =
      (UnpackedFloat.unpack Format.binary64 (u.pack Format.binary64)).neg := by
  by_cases hu : u = .notANumber
  · rw [hu]
    rfl
  · obtain ⟨s, e, m, hnumber, hpack, hneg⟩ := exists_pack_eq hu
    rw [hpack, hneg, neg_unpack hnumber]

theorem unpacked_neg (x : Float) : unpacked (-x) = (unpacked x).neg := by
  have h : unpacked (-x) = UnpackedFloat.unpack Format.binary64
      ((unpacked x).neg.pack Format.binary64) := rfl
  rw [h, unpack_pack_neg, unpack_pack_unpacked]

theorem isFinite_neg (x : Float) : (-x).isFinite = x.isFinite := by
  rw [← isFinite_unpacked, unpacked_neg, ← isFinite_unpacked]
  cases unpacked x <;> rfl

theorem round_neg (s : Sign) (m : ℕ) (e : ℤ) :
    UnpackedFloat.round Format.binary64 (-s) m e =
      (UnpackedFloat.round Format.binary64 s m e).neg := by
  simp only [UnpackedFloat.round, roundWithAccuracy]
  split <;> rfl

/-- **Rounding does not look at the sign**, if there is one. -/
theorem normalize_neg {d : ℤ} (hd : d ≠ 0) (e : ℤ) (s : Sign) :
    UnpackedFloat.normalize Format.binary64 (-d) e s =
      (UnpackedFloat.normalize Format.binary64 d e s).neg := by
  rcases lt_or_gt_of_ne hd with h | h
  · rw [UnpackedFloat.normalize, UnpackedFloat.normalize, compare_lt_iff_lt.2 h,
      compare_gt_iff_gt.2 (neg_pos.2 h)]
    exact round_neg .negative _ e
  · rw [UnpackedFloat.normalize, UnpackedFloat.normalize, compare_gt_iff_gt.2 h,
      compare_lt_iff_lt.2 (neg_neg_iff_pos.2 h), neg_neg]
    exact round_neg .positive _ e

/-! ## Differences -/

/-- The mantissa has as many bits as it can, unless the exponent is the least. -/
theorem unpack_canonical {b : BitVec 64} {s : Sign} {m : ℕ} {e : ℤ} {hm : 0 < m}
    (h : UnpackedFloat.unpack Format.binary64 b = .finite s m e hm) :
    m < 2 ^ 53 ∧ -1074 ≤ e ∧ (e = -1074 ∨ 2 ^ 52 ≤ m) := by
  have hmantissa : (@unpackMantissa Format.binary64 b).toNat < 2 ^ 52 := BitVec.isLt _
  have hbias : Format.binary64.exponentBias = 1023 := rfl
  rw [UnpackedFloat.unpack] at h
  simp only [hbias] at h
  split at h
  · split at h <;> cases h
  · split at h
    · next hleast =>
      split at h
      · cases h
      · cases h
        rw [hleast]
        simp
        omega
    · next hleast =>
      have hexponent : (@unpackExponent Format.binary64 b).toNat ≠ 0 :=
        fun hzero ↦ hleast (BitVec.eq_of_toNat_eq hzero)
      cases h
      have hleading : (1#1).toNat <<< Format.binary64.mantissaBitsWithoutImplicit = 2 ^ 52 := rfl
      rw [BitVec.toNat_append, ← Nat.shiftLeft_add_eq_or_of_lt (BitVec.isLt _), hleading]
      push_cast
      omega

theorem pos_apply_iff {s : Sign} {m : ℕ} (hm : 0 < m) : 0 < s.apply m ↔ s = .positive := by
  cases s with
  | positive => exact iff_of_true (Int.natCast_pos.2 hm) rfl
  | negative => exact iff_of_false (by simp [Sign.apply]) nofun

/-- **A number is represented once**: mantissas with as many bits as they can have are the same if
the numbers are. -/
theorem eq_of_shiftLeft_eq {m m' : ℕ} {e e' : ℤ} (hm : m < 2 ^ 53) (hm' : m' < 2 ^ 53)
    (he : e = -1074 ∨ 2 ^ 52 ≤ m) (he' : e' = -1074 ∨ 2 ^ 52 ≤ m') (hle : -1074 ≤ e)
    (hle' : -1074 ≤ e')
    (h : m <<< (e - min e e').toNat = m' <<< (e' - min e e').toNat) : m = m' ∧ e = e' := by
  wlog hee : e ≤ e' generalizing m m' e e'
  · have hswap := this hm' hm he' he hle' hle (by rw [min_comm, h]) (le_of_not_ge hee)
    exact ⟨hswap.1.symm, hswap.2.symm⟩
  rw [min_eq_left hee, sub_self, Int.toNat_zero, Nat.shiftLeft_zero, Nat.shiftLeft_eq] at h
  rcases hee.eq_or_lt with rfl | hlt
  · rw [sub_self, Int.toNat_zero, pow_zero, mul_one] at h
    exact ⟨h, rfl⟩
  · -- a greater exponent is not the least, and then its mantissa is too long to be moved
    have hlong : 2 ^ 52 ≤ m' := he'.resolve_left (by omega)
    have htwo : 2 ^ 1 ≤ 2 ^ (e' - e).toNat := Nat.pow_le_pow_right two_pos (by omega)
    have hmoved : 2 ^ 52 * 2 ^ 1 ≤ m' * 2 ^ (e' - e).toNat := Nat.mul_le_mul hlong htwo
    omega

/-- **Different doubles have a difference**: mantissas that are aligned are the same only if the
doubles are. -/
theorem eq_of_aligned_eq {x y : Float} {s s' : Sign} {m m' : ℕ} {e e' : ℤ} {hm : 0 < m}
    {hm' : 0 < m'} (hx : unpacked x = .finite s m e hm) (hy : unpacked y = .finite s' m' e' hm')
    (h : s.apply (decreaseExponent m e (min e e')).1 =
      s'.apply (decreaseExponent m' e' (min e e')).1) : x = y := by
  obtain ⟨hlt, hle, he⟩ := unpack_canonical hx
  obtain ⟨hlt', hle', he'⟩ := unpack_canonical hy
  have hpos : 0 < (decreaseExponent m e (min e e')).1 := by
    rw [decreaseExponent, Nat.shiftLeft_eq]
    positivity
  have hpos' : 0 < (decreaseExponent m' e' (min e e')).1 := by
    rw [decreaseExponent, Nat.shiftLeft_eq]
    positivity
  have hsign : s = .positive ↔ s' = .positive := by
    rw [← pos_apply_iff hpos, ← pos_apply_iff hpos', h]
  obtain rfl : s = s' := by
    cases s <;> cases s' <;> simp at hsign <;> rfl
  have hmantissas : (decreaseExponent m e (min e e')).1 =
      (decreaseExponent m' e' (min e e')).1 := by
    cases s <;> simpa [Sign.apply] using h
  obtain ⟨rfl, rfl⟩ := eq_of_shiftLeft_eq hlt hlt' he he' hle hle' hmantissas
  exact unpacked_injective (hx.trans hy.symm)

/-- Numbers that are not the same have opposite differences, before they are packed. -/
theorem sub_unpacked_swap {x y : Float} (hne : x ≠ y) :
    (unpacked y).sub Format.binary64 (unpacked x) =
      ((unpacked x).sub Format.binary64 (unpacked y)).neg := by
  cases hx : unpacked x with
  | notANumber => cases unpacked y <;> rfl
  | infinity s =>
    cases unpacked y with
    | infinity s' => cases s <;> cases s' <;> rfl
    | notANumber | zero | finite => rfl
  | zero s =>
    cases hy : unpacked y with
    | zero s' =>
      have hsigns : s ≠ s' := by
        rintro rfl
        exact hne (unpacked_injective (hx.trans hy.symm))
      cases s <;> cases s' <;> first | rfl | exact absurd rfl hsigns
    | infinity s' | finite s' => cases s' <;> rfl
    | notANumber => rfl
  | finite s m e hm =>
    cases hy : unpacked y with
    | finite s' m' e' hm' =>
      have hd : s.apply (decreaseExponent m e (min e e')).1 -
          s'.apply (decreaseExponent m' e' (min e e')).1 ≠ 0 :=
        fun hzero ↦ hne (eq_of_aligned_eq hx hy (sub_eq_zero.1 hzero))
      have hswap := normalize_neg hd (min e e') .positive
      rw [neg_sub] at hswap
      rw [UnpackedFloat.sub, UnpackedFloat.sub, min_comm e' e]
      exact hswap
    | infinity s' => cases s' <;> rfl
    | notANumber | zero => rfl

/-- **Differences turn their sign** when their sides are changed over, unless these are the same. -/
theorem neg_sub_of_ne {x y : Float} (hne : x ≠ y) : -(x - y) = y - x := by
  refine unpacked_injective ?_
  rw [unpacked_neg, unpacked_sub, unpacked_sub, sub_unpacked_swap hne, unpack_pack_neg]

/-- A double leaves zero of itself, and not minus zero. -/
theorem sub_self_of_isFinite {x : Float} (hx : x.isFinite = true) : x - x = 0.0 := by
  refine unpacked_injective ?_
  rw [← isFinite_unpacked] at hx
  rw [unpacked_sub, unpacked_zero]
  cases hux : unpacked x with
  | infinity | notANumber =>
    rw [hux] at hx
    cases hx
  | zero s => cases s <;> rfl
  | finite s m e hm =>
    have hnone : UnpackedFloat.normalize Format.binary64 0 (min e e) .positive =
        .zero .positive := by
      rw [UnpackedFloat.normalize, compare_eq_iff_eq.2 rfl]
    rw [UnpackedFloat.sub]
    simp only [Int.sub_self]
    rw [hnone]
    rfl

theorem isFinite_sub_self {x : Float} (hx : x.isFinite = false) : (x - x).isFinite = false := by
  rw [← isFinite_unpacked] at hx ⊢
  rw [unpacked_sub]
  cases hux : unpacked x with
  | infinity s => cases s <;> rfl
  | notANumber => rfl
  | zero | finite =>
    rw [hux] at hx
    cases hx

end ChartFeed.Decimal
