import Mathlib
import ChartFeed.Proofs.Decimal.Interval

/-!
# Integers as doubles

An integer becomes the double that is nearest to it, the even one of two that are equally near.
That is the same as to say that it lies in the interval of numbers that round to this double, which
is how numerals are read, so what is known about the intervals holds of integers too.

* `Marks` — what the mantissa and the bits behind it say about a number; shifting them halves the
  number (`Marks.shiftRight`), and rounding them gives a nearest integer (`Marks.isNearest`);
* `toNat_pack_finite`, `unpack_pack_finite` — packing a mantissa of fifty-three bits;
* `exists_roundWithAccuracy` — rounding takes the nearest mantissa of fifty-three bits, and one bit
  more carries into the exponent;
* `exists_toNat_bits_ofNat` — the bits of an integer as a double;
* `exists_holds_ofNat` — the integer lies in the interval of these bits.
-/

set_option autoImplicit false

namespace ChartFeed.Decimal

open Float.Model UnpackedFloat

/-! ## What the bits behind a mantissa say -/

/-- The mantissa and the bits behind it stand for the number: its integer part, and how the rest
compares with nothing and with a half. -/
def Marks (em : ExtendedMantissa) (x : ℚ) : Prop :=
  if em.roundBit then
    if em.stickyBit then em.mantissa + 1 / 2 < x ∧ x < em.mantissa + 1
    else x = em.mantissa + 1 / 2
  else
    if em.stickyBit then em.mantissa < x ∧ x < em.mantissa + 1 / 2
    else x = em.mantissa

/-- The integer is the nearest, and of two that are equally near the even one. -/
def IsNearest (r : ℕ) (x : ℚ) : Prop :=
  ((r : ℚ) - 1 / 2 < x ∨ r % 2 = 0 ∧ (r : ℚ) - 1 / 2 = x) ∧
    (x < (r : ℚ) + 1 / 2 ∨ r % 2 = 0 ∧ x = (r : ℚ) + 1 / 2)

theorem Marks.shiftRightOne {em : ExtendedMantissa} {x : ℚ} (h : Marks em x) :
    Marks em.shiftRightOne (x / 2) := by
  obtain ⟨m, roundBit, stickyBit⟩ := em
  have hm : ((m % 2 : ℕ) : ℚ) + 2 * ((m / 2 : ℕ) : ℚ) = m := by
    exact_mod_cast Nat.mod_add_div m 2
  rcases Nat.mod_two_eq_zero_or_one m with hmod | hmod <;> rw [hmod] at hm <;>
    cases roundBit <;> cases stickyBit <;>
    simp only [Marks, ExtendedMantissa.shiftRightOne, hmod] at h ⊢ <;>
    norm_num at hm h ⊢ <;>
    first
      | (constructor <;> linarith)
      | linarith

theorem Marks.shiftRight {em : ExtendedMantissa} {x : ℚ} (h : Marks em x) (k : ℕ) :
    Marks (em >>> k) (x / 2 ^ k) := by
  show Marks (k.repeat ExtendedMantissa.shiftRightOne em) (x / 2 ^ k)
  induction k with
  | zero => simpa [Nat.repeat] using h
  | succ k ih =>
    rw [Nat.repeat, pow_succ, ← div_div]
    exact ih.shiftRightOne

theorem marks_exact (m : ℕ) : Marks (.ofMantissaAndAccuracy m .exact) m := rfl

theorem Marks.isNearest {em : ExtendedMantissa} {x : ℚ} (h : Marks em x) :
    IsNearest em.roundedMantissa x := by
  obtain ⟨m, roundBit, stickyBit⟩ := em
  cases roundBit <;> cases stickyBit <;>
    simp only [Marks, IsNearest, ExtendedMantissa.roundedMantissa, ExtendedMantissa.accuracy,
      Accuracy.roundToNearestEven, Bool.false_eq_true, if_true, if_false] at h ⊢
  · subst h
    exact ⟨.inl (by linarith), .inl (by linarith)⟩
  · exact ⟨.inl (by linarith), .inl (by linarith)⟩
  · rcases Nat.mod_two_eq_zero_or_one m with hmod | hmod
    · rw [hmod]
      exact ⟨.inl (by push_cast; linarith), .inr ⟨by omega, by push_cast; linarith⟩⟩
    · rw [hmod]
      exact ⟨.inr ⟨by omega, by push_cast; linarith⟩, .inl (by push_cast; linarith)⟩
  · exact ⟨.inl (by push_cast; linarith), .inl (by push_cast; linarith)⟩

/-! ## Packing -/

theorem toNat_packComponents (s : Sign) (e : BitVec 11) (m : BitVec 52) :
    (packComponents Format.binary64 s e m).toNat =
      s.toBitVec.toNat * 0x8000000000000000 + e.toNat * 0x10000000000000 + m.toNat := by
  have hm := m.isLt
  have he := e.isLt
  rw [packComponents, BitVec.toNat_append, BitVec.toNat_append,
    ← Nat.shiftLeft_add_eq_or_of_lt hm, ← Nat.shiftLeft_add_eq_or_of_lt he]
  simp only [Nat.shiftLeft_eq]
  omega

/-- The magnitude of infinity. -/
def infinite : ℕ := 0x7ff0000000000000

theorem toNat_pack_finite {m : ℕ} {e : ℤ} (hm : 0 < m) (hlog : m.log2 = 52) (he : -1074 ≤ e) :
    (UnpackedFloat.pack Format.binary64 (.finite .positive m e hm)).toNat =
      min ((e + 1074).toNat * 0x10000000000000 + m) infinite := by
  have hlow : 2 ^ 52 ≤ m := hlog ▸ Nat.log2_self_le hm.ne'
  have hhigh : m < 2 ^ 53 := by
    have h := Nat.lt_log2_self (n := m)
    rwa [hlog] at h
  have hbias :
      (e + (Format.binary64.exponentBias : ℕ) + (52 : ℕ)).toNat = (e + 1074).toNat + 1 := by
    have hvalue : Format.binary64.exponentBias = 1023 := rfl
    rw [hvalue]
    omega
  have hbits : Format.binary64.mantissaBits = 53 := rfl
  rw [UnpackedFloat.pack, infinite]
  simp only [hbias, hlog, hbits]
  split
  · rw [packedInfinity, toNat_packComponents]
    simp [Sign.toBitVec]
    omega
  · rw [if_pos trivial, toNat_packComponents]
    simp [Sign.toBitVec]
    omega

theorem two_pow_le_and_lt_of_log2 {m : ℕ} (h : m.log2 = 52) : 2 ^ 52 ≤ m ∧ m < 2 ^ 53 := by
  have hm : m ≠ 0 := by
    rintro rfl
    simp at h
  exact (Nat.log2_eq_iff hm).1 h

theorem unpack_pack_finite {s : Sign} {m : ℕ} {e : ℤ} (hm : 0 < m) (hlog : m.log2 = 52)
    (hlow : -1074 ≤ e) (hhigh : e ≤ 971) :
    UnpackedFloat.unpack Format.binary64 (UnpackedFloat.pack Format.binary64 (.finite s m e hm)) =
      .finite s m e hm := by
  obtain ⟨hle, hlt⟩ := two_pow_le_and_lt_of_log2 hlog
  have hvalue : Format.binary64.exponentBias = 1023 := rfl
  have hbits : Format.binary64.mantissaBits = 53 := rfl
  have hbias : (e + (Format.binary64.exponentBias : ℕ) + (52 : ℕ)).toNat = (e + 1075).toNat := by
    rw [hvalue]
    congr 1
    ring
  have hexponent : (BitVec.ofNat 11 (e + 1075).toNat).toNat = (e + 1075).toNat := by
    rw [BitVec.toNat_ofNat]
    omega
  have hmost : BitVec.ofNat 11 (e + 1075).toNat ≠ -1#11 := by
    intro h
    have := congrArg BitVec.toNat h
    rw [hexponent] at this
    simp at this
    omega
  have hleast : BitVec.ofNat 11 (e + 1075).toNat ≠ 0#11 := by
    intro h
    have := congrArg BitVec.toNat h
    rw [hexponent] at this
    simp at this
    omega
  have hmantissa : (1#1 ++ BitVec.ofNat 52 m).toNat = m := by
    rw [BitVec.toNat_append, ← Nat.shiftLeft_add_eq_or_of_lt (BitVec.isLt _), BitVec.toNat_ofNat]
    simp [Nat.shiftLeft_eq]
    omega
  rw [UnpackedFloat.pack]
  simp only [hbias, hlog, hbits]
  rw [if_neg (by omega), if_pos trivial, UnpackedFloat.unpack]
  simp only [unpackExponent_packComponents, unpackMantissa_packComponents,
    unpackSign_packComponents, Sign.ofBitVec_toBitVec]
  rw [if_neg hmost, if_neg hleast]
  simp only [hmantissa, hexponent, hvalue]
  congr 1
  omega

/-! ## Rounding -/

theorem shiftToTargetExponent_eq {m : ℕ} {e : ℤ} (hm : 52 ≤ m.log2)
    (he : -1074 ≤ e + (m.log2 - 52 : ℕ)) :
    shiftToTargetExponent Format.binary64 m e .exact =
      (ExtendedMantissa.ofMantissaAndAccuracy m .exact >>> (m.log2 - 52),
        e + (m.log2 - 52 : ℕ)) := by
  have hbits : Format.binary64.mantissaBits = 53 := rfl
  have hleast : Format.binary64.minExponent = -1074 := rfl
  have hshift : (Format.binary64.targetExponent (totalExponent m e) - e).toNat = m.log2 - 52 := by
    rw [Format.targetExponent, totalExponent, hbits, hleast]
    omega
  simp only [shiftToTargetExponent, shiftToExponent, hshift]

theorem IsNearest.eq_of_natCast {r m : ℕ} (h : IsNearest r (m : ℚ)) : r = m := by
  have hlow : (r : ℚ) - 1 / 2 ≤ m := h.1.elim le_of_lt fun h ↦ h.2.le
  have hhigh : (m : ℚ) ≤ r + 1 / 2 := h.2.elim le_of_lt fun h ↦ h.2.le
  have hlt : (r : ℚ) < m + 1 := by linarith
  have hgt : (m : ℚ) < r + 1 := by linarith
  have hlt' : r < m + 1 := by exact_mod_cast hlt
  have hgt' : m < r + 1 := by exact_mod_cast hgt
  omega

theorem IsNearest.bounds {r : ℕ} {x : ℚ} (h : IsNearest r x) (hlow : 2 ^ 52 ≤ x)
    (hhigh : x < 2 ^ 53) : 2 ^ 52 ≤ r ∧ r ≤ 2 ^ 53 := by
  have hle : (r : ℚ) - 1 / 2 ≤ x := h.1.elim le_of_lt fun h ↦ h.2.le
  have hge : x ≤ r + 1 / 2 := h.2.elim le_of_lt fun h ↦ h.2.le
  have hlt : (2 ^ 52 : ℚ) < r + 1 := by linarith
  have hgt : (r : ℚ) < 2 ^ 53 + 1 := by linarith
  have hlt' : 2 ^ 52 < r + 1 := by exact_mod_cast hlt
  have hgt' : r < 2 ^ 53 + 1 := by exact_mod_cast hgt
  omega

/-- A mantissa of more than fifty-two bits, brought to fifty-three of them. -/
theorem scaled_bounds {m : ℕ} (hm : 52 ≤ m.log2) :
    (2 ^ 52 : ℚ) ≤ m / 2 ^ (m.log2 - 52) ∧ (m : ℚ) / 2 ^ (m.log2 - 52) < 2 ^ 53 := by
  have hne : m ≠ 0 := by
    rintro rfl
    simp at hm
  have hp : (0 : ℚ) < 2 ^ (m.log2 - 52) := by positivity
  have hlow : 2 ^ m.log2 ≤ m := Nat.log2_self_le hne
  have hhigh : m < 2 ^ (m.log2 + 1) := Nat.lt_log2_self
  rw [le_div_iff₀ hp, div_lt_iff₀ hp, ← pow_add, ← pow_add]
  rw [show 52 + (m.log2 - 52) = m.log2 by omega, show 53 + (m.log2 - 52) = m.log2 + 1 by omega]
  exact ⟨by exact_mod_cast hlow, by exact_mod_cast hhigh⟩

theorem roundWithAccuracy_of_shift {s : Sign} {m r : ℕ} {e e' : ℤ} {em : ExtendedMantissa}
    (hshift : shiftToTargetExponent Format.binary64 m e .exact = (em, e'))
    (hr : em.roundedMantissa = r) (hlog : r.log2 = 52) (he : -1074 ≤ e') (hpos : 0 < r) :
    roundWithAccuracy Format.binary64 s m e .exact = .finite s r e' hpos := by
  have hagain := shiftToTargetExponent_eq (m := r) (e := e') hlog.ge (by omega)
  simp only [hlog, Nat.sub_self] at hagain
  rw [roundWithAccuracy, hshift]
  simp only [hr, hagain]
  refine (dif_neg hpos.ne').trans ?_
  simp [HShiftRight.hShiftRight, Nat.repeat, ExtendedMantissa.ofMantissaAndAccuracy]

theorem roundWithAccuracy_of_carry {s : Sign} {m : ℕ} {e e' : ℤ} {em : ExtendedMantissa}
    (hshift : shiftToTargetExponent Format.binary64 m e .exact = (em, e'))
    (hr : em.roundedMantissa = 2 ^ 53) (he : -1074 ≤ e') :
    roundWithAccuracy Format.binary64 s m e .exact =
      .finite s (2 ^ 52) (e' + 1) (Nat.two_pow_pos 52) := by
  have hlog : (2 ^ 53).log2 = 53 := Nat.log2_two_pow
  have hagain := shiftToTargetExponent_eq (m := 2 ^ 53) (e := e') (by rw [hlog]; decide) (by omega)
  simp only [hlog] at hagain
  rw [roundWithAccuracy, hshift]
  simp only [hr, hagain]
  rfl

/-- **Rounding to fifty-three bits** takes the nearest mantissa; when that has one bit more, it is
a power of two. -/
theorem exists_roundWithAccuracy {m : ℕ} {e : ℤ} (s : Sign) (hm : 52 ≤ m.log2)
    (he : -1074 ≤ e + (m.log2 - 52 : ℕ)) :
    ∃ r, IsNearest r (m / 2 ^ (m.log2 - 52)) ∧
      ((∃ hr, r.log2 = 52 ∧ roundWithAccuracy Format.binary64 s m e .exact =
          .finite s r (e + (m.log2 - 52 : ℕ)) hr) ∨
        r = 2 ^ 53 ∧ roundWithAccuracy Format.binary64 s m e .exact =
          .finite s (2 ^ 52) (e + (m.log2 - 52 : ℕ) + 1) (Nat.two_pow_pos 52)) := by
  have hshift := shiftToTargetExponent_eq hm he
  have hnearest := ((marks_exact m).shiftRight (m.log2 - 52)).isNearest
  obtain ⟨hle, hge⟩ := scaled_bounds hm
  obtain ⟨hlow, hhigh⟩ := hnearest.bounds hle hge
  refine ⟨_, hnearest, ?_⟩
  rcases hhigh.lt_or_eq with hlt | hcarry
  · have hpos := (Nat.two_pow_pos 52).trans_le hlow
    have hlog := (Nat.log2_eq_iff hpos.ne').2 ⟨hlow, hlt⟩
    exact .inl ⟨hpos, hlog, roundWithAccuracy_of_shift hshift rfl hlog he hpos⟩
  · exact .inr ⟨hcarry, roundWithAccuracy_of_carry hshift hcarry he⟩

/-- The bits of a rounded number. -/
theorem exists_toNat_pack_round {m : ℕ} {e : ℤ} (hm : 52 ≤ m.log2)
    (he : -1074 ≤ e + (m.log2 - 52 : ℕ)) :
    ∃ r, IsNearest r (m / 2 ^ (m.log2 - 52)) ∧
      (UnpackedFloat.pack Format.binary64
        (roundWithAccuracy Format.binary64 .positive m e .exact)).toNat =
          min ((e + (m.log2 - 52 : ℕ) + 1074).toNat * 0x10000000000000 + r) infinite := by
  obtain ⟨r, hnearest, ⟨hr, hlog, hround⟩ | ⟨hcarry, hround⟩⟩ :=
    exists_roundWithAccuracy .positive hm he
  · exact ⟨r, hnearest, by rw [hround, toNat_pack_finite hr hlog he]⟩
  · refine ⟨r, hnearest, ?_⟩
    have hbits : (e + (m.log2 - 52 : ℕ) + 1 + 1074).toNat * 0x10000000000000 + 2 ^ 52 =
        (e + (m.log2 - 52 : ℕ) + 1074).toNat * 0x10000000000000 + r := by
      omega
    rw [hround, toNat_pack_finite _ Nat.log2_two_pow (by omega), hbits]

/-! ## Integers -/

theorem log2_mul_two_pow {m k : ℕ} (hm : m ≠ 0) : (m * 2 ^ k).log2 = m.log2 + k := by
  have hlow := Nat.log2_self_le hm
  have hhigh := Nat.lt_log2_self (n := m)
  have hsucc : m.log2 + k + 1 = m.log2 + 1 + k := by ring
  rw [Nat.log2_eq_iff (by positivity), hsucc, pow_add, pow_add]
  exact ⟨Nat.mul_le_mul_right _ hlow, Nat.mul_lt_mul_of_pos_right hhigh (Nat.two_pow_pos k)⟩

/-- What has fifty-three bits already is not changed. -/
theorem roundWithAccuracy_of_exact {m k : ℕ} {e : ℤ} (hlog : m.log2 = 52) (hm : 0 < m)
    (he : -1074 ≤ e) :
    roundWithAccuracy Format.binary64 .positive (m * 2 ^ k) (e - k) .exact =
      .finite .positive m e hm := by
  have hshift : (m * 2 ^ k).log2 - 52 = k := by
    rw [log2_mul_two_pow hm.ne', hlog]
    omega
  obtain ⟨r, hnearest, hround⟩ := exists_roundWithAccuracy (m := m * 2 ^ k) (e := e - k) .positive
    (by rw [log2_mul_two_pow hm.ne']; omega) (by omega)
  have hvalue : ((m * 2 ^ k : ℕ) : ℚ) / 2 ^ k = m := by
    push_cast
    field_simp
  rw [hshift, hvalue] at hnearest
  obtain rfl := hnearest.eq_of_natCast
  rcases hround with ⟨hr, -, hround⟩ | ⟨hcarry, -⟩
  · rw [hround]
    congr 1
    omega
  · rw [hcarry, Nat.log2_two_pow] at hlog
    omega

/-- An integer below the limit, scaled to fifty-three bits. -/
theorem log2_scaled {n : ℕ} (hn : n ≠ 0) (hlt : n < 2 ^ 53) :
    (n * 2 ^ (52 - n.log2)).log2 = 52 := by
  have hlog : n.log2 < 53 := (Nat.log2_lt hn).2 hlt
  rw [log2_mul_two_pow hn]
  omega

theorem round_natural {n : ℕ} (hn : n ≠ 0) (hlt : n < 2 ^ 53) :
    ∃ hm, UnpackedFloat.ofNat Format.binary64 n =
      .finite .positive (n * 2 ^ (52 - n.log2)) (n.log2 - 52) hm := by
  have hlog : n.log2 < 53 := (Nat.log2_lt hn).2 hlt
  have hpos : 0 < n * 2 ^ (52 - n.log2) := by positivity
  have htarget : Format.binary64.targetExponent (totalExponent n 0) = n.log2 - 52 := by
    rw [Format.targetExponent, totalExponent, show Format.binary64.mantissaBits = 53 from rfl,
      show Format.binary64.minExponent = -1074 from rfl]
    omega
  have hshift : (0 - ((n.log2 : ℤ) - 52)).toNat = 52 - n.log2 := by omega
  have hexponent : (0 : ℤ) - (52 - n.log2 : ℕ) = n.log2 - 52 := by omega
  have hround := roundWithAccuracy_of_exact (k := 0) (e := n.log2 - 52) (log2_scaled hn hlt) hpos
    (by omega)
  rw [pow_zero, mul_one, Nat.cast_zero, sub_zero] at hround
  refine ⟨hpos, ?_⟩
  rw [UnpackedFloat.ofNat, UnpackedFloat.ofInt, UnpackedFloat.normalize,
    Int.compare_eq_gt.2 (by omega)]
  simp only [Int.toNat_natCast, UnpackedFloat.round, decreaseExponent, htarget, hshift, hexponent,
    Nat.shiftLeft_eq]
  exact hround

/-- Integers below the limit become doubles without rounding. -/
theorem unpack_toFloat {n : ℕ} (hn : n ≠ 0) (hlt : n < 2 ^ 53) :
    ∃ hm, n.toUInt64.toFloat.toModel.unpack =
      .finite .positive (n * 2 ^ (52 - n.log2)) (n.log2 - 52) hm := by
  have hlog : n.log2 < 53 := (Nat.log2_lt hn).2 hlt
  have htoNat : n.toUInt64.toNat = n := by
    rw [Nat.toUInt64_eq, UInt64.toNat_ofNat_of_lt']
    exact hlt.trans (by decide)
  obtain ⟨hm, hround⟩ := round_natural hn hlt
  have hunpack : n.toUInt64.toFloat.toModel.unpack =
      UnpackedFloat.unpack Format.binary64 (UnpackedFloat.pack Format.binary64
        (UnpackedFloat.ofNat Format.binary64 n.toUInt64.toNat)) :=
    rfl
  refine ⟨hm, ?_⟩
  rw [hunpack, htoNat, hround, unpack_pack_finite hm (log2_scaled hn hlt) (by omega) (by omega)]

theorem unpack_one :
    (Float.ofBits 0x3FF0000000000000).toModel.unpack =
      .finite .positive (2 ^ 52) (-52) (by decide) :=
  rfl

theorem toNat_bits_ofNat_of_lt {n : ℕ} (hn : n ≠ 0) (hlt : n < 2 ^ 53) :
    (Float.ofNat n).toBits.toNat =
      min ((n.log2 + 1022) * 0x10000000000000 + n * 2 ^ (52 - n.log2)) infinite := by
  obtain ⟨hm, hunpack⟩ := unpack_toFloat hn hlt
  have hfloat : Float.ofNat n = n.toUInt64.toFloat * Float.ofBits 0x3FF0000000000000 := by
    show Float.ofScientific n false 0 = _
    rw [Float.ofScientific, dif_pos ⟨hlt, by decide⟩]
    rfl
  have hbits : (Float.ofNat n).toBits.toNat = (UnpackedFloat.pack Format.binary64
      (UnpackedFloat.mul Format.binary64 n.toUInt64.toFloat.toModel.unpack
        (Float.ofBits 0x3FF0000000000000).toModel.unpack)).toNat := by
    rw [hfloat]
    rfl
  have hround := roundWithAccuracy_of_exact (k := 52) (e := n.log2 - 52) (log2_scaled hn hlt) hm
    (by omega)
  have hmul : UnpackedFloat.mul Format.binary64
      (.finite .positive (n * 2 ^ (52 - n.log2)) (n.log2 - 52) hm)
      (.finite .positive (2 ^ 52) (-52) (by decide)) =
    .finite .positive (n * 2 ^ (52 - n.log2)) (n.log2 - 52) hm := hround
  have hlow : (n.log2 - 52 + 1074 : ℤ).toNat = n.log2 + 1022 := by omega
  rw [hbits, hunpack, unpack_one, hmul, toNat_pack_finite hm (log2_scaled hn hlt) (by omega), hlow]

theorem exists_toNat_bits_ofNat_of_ge {n : ℕ} (hge : 2 ^ 53 ≤ n) :
    ∃ r, IsNearest r (n * 2 ^ 53 / 2 ^ (n.log2 + 1)) ∧ (Float.ofNat n).toBits.toNat =
      min ((n.log2 + 1022) * 0x10000000000000 + r) infinite := by
  have hn : n ≠ 0 := by
    rintro rfl
    exact absurd hge (by decide)
  have hlog : 53 ≤ n.log2 := (Nat.le_log2 hn).2 hge
  have hfloat : Float.ofNat n = Float.ofModel (Float.Model.ofScientific n 0) := by
    show Float.ofScientific n false 0 = _
    rw [Float.ofScientific, dif_neg fun h ↦ absurd h.1 (not_lt.2 hge)]
    rfl
  have hround : UnpackedFloat.ofScientific Format.binary64 n 0 =
      roundWithAccuracy Format.binary64 .positive (n * 2 ^ 53) (-53) .exact := by
    have hpow : (2 : ℤ) ^ Format.binary64.exponentBits = 2048 := by norm_num
    rw [UnpackedFloat.ofScientific, dif_neg hn, hpow, if_neg (by omega), if_neg (by omega),
      if_pos le_rfl, UnpackedFloat.mul, Nat.shiftLeft_eq, Int.toNat_zero, pow_zero, mul_one,
      add_zero]
    rfl
  have hbits : (Float.ofNat n).toBits.toNat = (UnpackedFloat.pack Format.binary64
      (UnpackedFloat.ofScientific Format.binary64 n 0)).toNat := by
    rw [hfloat]
    rfl
  have hscaled : (n * 2 ^ 53).log2 = n.log2 + 53 := log2_mul_two_pow hn
  obtain ⟨r, hnearest, hr⟩ := exists_toNat_pack_round (m := n * 2 ^ 53) (e := -53)
    (by rw [hscaled]; omega) (by rw [hscaled]; omega)
  rw [hscaled, show n.log2 + 53 - 52 = n.log2 + 1 by omega] at hnearest hr
  have hlow : (-53 + (n.log2 + 1 : ℕ) + 1074 : ℤ).toNat = n.log2 + 1022 := by omega
  refine ⟨r, by exact_mod_cast hnearest, ?_⟩
  rw [hbits, hround, hr, hlow]

/-- The mantissa of an integer, scaled to fifty-three bits. -/
theorem exists_toNat_bits_ofNat {n : ℕ} (hn : n ≠ 0) :
    ∃ r, IsNearest r (n * 2 ^ 53 / 2 ^ (n.log2 + 1)) ∧ (Float.ofNat n).toBits.toNat =
      min ((n.log2 + 1022) * 0x10000000000000 + r) infinite := by
  rcases lt_or_ge n (2 ^ 53) with hlt | hge
  · have hlog : n.log2 < 53 := (Nat.log2_lt hn).2 hlt
    have hscaled : (n * 2 ^ 53 / 2 ^ (n.log2 + 1) : ℚ) = (n * 2 ^ (52 - n.log2) : ℕ) := by
      rw [div_eq_iff (by positivity), show 53 = 52 - n.log2 + (n.log2 + 1) by omega, pow_add]
      push_cast
      ring
    refine ⟨n * 2 ^ (52 - n.log2), ?_, toNat_bits_ofNat_of_lt hn hlt⟩
    rw [hscaled]
    exact (marks_exact _).isNearest
  · exact exists_toNat_bits_ofNat_of_ge hge

namespace Binary

/-- The magnitude with a mantissa of fifty-three bits. -/
theorem ofMagnitude_of_mantissa {l r : ℕ} (hlow : 2 ^ 52 ≤ r) (hhigh : r < 2 ^ 53) :
    ofMagnitude ((l + 1022) * 0x10000000000000 + r) =
      ⟨r, l - 52, decide (r = 2 ^ 52)⟩ := by
  have hbiased : ((l + 1022) * 0x10000000000000 + r) / 0x10000000000000 = l + 1023 := by omega
  have hfraction : ((l + 1022) * 0x10000000000000 + r) % 0x10000000000000 = r - 2 ^ 52 := by omega
  rw [ofMagnitude_of_ne_zero (by omega), hbiased, hfraction, mk.injEq]
  refine ⟨by omega, by push_cast; ring, ?_⟩
  rw [Bool.eq_iff_iff, Bool.and_eq_true, decide_eq_true_iff, decide_eq_true_iff,
    decide_eq_true_iff]
  omega

theorem holds_iff_quarters {b : Binary} {d : Scientific} {y : ℚ}
    (h : d.value = y * 2 ^ (b.scale - 2)) :
    b.holds d = true ↔
      ((b.lowQuarters : ℚ) < y ∨ b.mantissa % 2 = 0 ∧ (b.lowQuarters : ℚ) = y) ∧
        (y < 4 * b.mantissa + 2 ∨ b.mantissa % 2 = 0 ∧ y = 4 * b.mantissa + 2) := by
  have hp : (0 : ℚ) < 2 ^ (b.scale - 2) := by positivity
  rw [holds_iff, low, high, h]
  push_cast
  simp only [mul_lt_mul_iff_left₀ hp, mul_left_inj' hp.ne']

/-- **An integer lies in the interval of the mantissa that is nearest to it.** -/
theorem holds_of_isNearest {n r : ℕ} (hn : n ≠ 0)
    (h : IsNearest r (n * 2 ^ 53 / 2 ^ (n.log2 + 1))) :
    (ofMagnitude ((n.log2 + 1022) * 0x10000000000000 + r)).holds ⟨n, 0⟩ = true := by
  have hlow : (2 : ℚ) ^ n.log2 ≤ n := by exact_mod_cast Nat.log2_self_le hn
  have hhigh : (n : ℚ) < 2 ^ (n.log2 + 1) := by exact_mod_cast Nat.lt_log2_self
  generalize hx : (n * 2 ^ 53 / 2 ^ (n.log2 + 1) : ℚ) = x at h
  have hpow : (0 : ℚ) < 2 ^ (n.log2 + 1) := by positivity
  have hleast : 2 ^ 52 ≤ x := by
    rw [← hx, le_div_iff₀ hpow, pow_succ 2 n.log2]
    linarith
  have hmost : x < 2 ^ 53 := by
    rw [← hx, div_lt_iff₀ hpow]
    linarith
  have hscale : (2 : ℚ) ^ (n.log2 + 1) = 2 ^ ((n.log2 : ℤ) - 52 - 2) * 2 ^ 55 := by
    rw [← zpow_natCast, ← zpow_natCast, ← zpow_add₀ (by norm_num)]
    congr 1
    push_cast
    ring
  have hvalue : Scientific.value ⟨n, 0⟩ = 4 * x * 2 ^ ((n.log2 : ℤ) - 52 - 2) := by
    rw [Scientific.value, zpow_zero, mul_one, ← hx, hscale]
    field_simp
    norm_num
  obtain ⟨hfrom, hto⟩ := h.bounds hleast hmost
  rcases hto.lt_or_eq with hlt | rfl
  · rw [ofMagnitude_of_mantissa hfrom hlt, holds_iff_quarters hvalue, lowQuarters]
    refine ⟨?_, ?_⟩
    · by_cases hr : r = 2 ^ 52
      · -- the neighbour below a power of two is nearer, but the integer is not below it
        subst hr
        rw [if_pos (by simp)]
        left
        push_cast
        linarith
      · rw [if_neg (by simpa using hr), Nat.cast_sub (show 2 ≤ 4 * r by omega)]
        push_cast
        exact h.1.imp (fun h ↦ by linarith) fun h ↦ ⟨h.1, by linarith [h.2]⟩
    · exact h.2.imp (fun h ↦ by simp only; linarith) fun h ↦ ⟨h.1, by simp only; linarith [h.2]⟩
  · have hcarry : (n.log2 + 1022) * 0x10000000000000 + 2 ^ 53 =
        (n.log2 + 1 + 1022) * 0x10000000000000 + 2 ^ 52 := by omega
    have hdouble : Scientific.value ⟨n, 0⟩ = 2 * x * 2 ^ (((n.log2 + 1 : ℕ) : ℤ) - 52 - 2) := by
      have hexponent : ((n.log2 + 1 : ℕ) : ℤ) - 52 - 2 = (n.log2 : ℤ) - 52 - 2 + 1 := by
        push_cast
        ring
      rw [hvalue, hexponent, zpow_add_one₀ (by norm_num)]
      ring
    rw [hcarry, ofMagnitude_of_mantissa le_rfl (by norm_num), holds_iff_quarters hdouble,
      lowQuarters, if_pos (by simp)]
    refine ⟨?_, .inl ?_⟩
    · exact h.1.imp (fun h ↦ by push_cast at h ⊢; linarith)
        fun h ↦ ⟨by norm_num, by push_cast at h ⊢; linarith [h.2]⟩
    · push_cast
      linarith

end Binary

/-- **An integer becomes a double that it rounds to**, or infinity if that is too great. -/
theorem exists_holds_ofNat (n : ℕ) :
    ∃ k, (Float.ofNat n).toBits.toNat = min k infinite ∧
      (Binary.ofMagnitude k).holds ⟨n, 0⟩ = true := by
  by_cases hn : n = 0
  · subst hn
    exact ⟨0, by decide +kernel, by decide +kernel⟩
  · obtain ⟨r, hnearest, hbits⟩ := exists_toNat_bits_ofNat hn
    exact ⟨_, hbits, Binary.holds_of_isNearest hn hnearest⟩

end ChartFeed.Decimal
