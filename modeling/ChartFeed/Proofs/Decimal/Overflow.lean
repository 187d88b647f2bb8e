import ChartFeed.Json.Basic
import ChartFeed.Proofs.Decimal.Value

/-!
# What is lost to overflow

A sum or a product of doubles may be too large for a double, and then it is an infinity.

* `isFinite_add`, `isFinite_mul` — **what is lost stays lost**: adding to a double that is not
  finite, or multiplying it, never gives a finite one, whatever the other operand is;
* `isFinite_foldl` — so a running total that is lost once is lost to the end;
* `isFinite_ofNat` — an integer of 64 bits is not lost when it becomes a double.
-/

set_option autoImplicit false

namespace ChartFeed.Decimal

open Float.Model UnpackedFloat

/-! ## Running totals -/

/-- What is not finite is packed as a double that is not finite. -/
theorem isFinite_unpack_pack {u : UnpackedFloat} (h : u.isFinite = false) :
    (UnpackedFloat.unpack Format.binary64 (u.pack Format.binary64)).isFinite = false := by
  cases u with
  | infinity s => cases s <;> decide +kernel
  | notANumber => decide +kernel
  | zero | finite => cases h

/-- The number that a double holds. -/
def unpacked (x : Float) : UnpackedFloat := UnpackedFloat.unpack Format.binary64 x.toBits.toBitVec

theorem isFinite_unpacked (x : Float) : (unpacked x).isFinite = x.isFinite := rfl

/-- A double is what its number is packed as. -/
theorem pack_unpacked (x : Float) :
    (unpacked x).pack Format.binary64 = x.toBits.toBitVec :=
  pack_unpack_of_valid x.toModel.valid

theorem unpacked_injective : Function.Injective unpacked := by
  intro x y h
  rw [← Float.toBits_inj, ← UInt64.toBitVec_inj, ← pack_unpacked, ← pack_unpacked, h]

theorem isFinite_add {x : Float} (hx : x.isFinite = false) (y : Float) :
    (x + y).isFinite = false := by
  have hsum : ((unpacked x).add Format.binary64 (unpacked y)).isFinite = false := by
    rw [← isFinite_unpacked] at hx
    generalize unpacked x = u at hx
    cases u with
    | notANumber => rfl
    | infinity s =>
      cases unpacked y with
      | infinity s' =>
        rw [UnpackedFloat.add]
        split <;> rfl
      | notANumber | zero | finite => rfl
    | zero | finite => cases hx
  exact isFinite_unpack_pack hsum

theorem isFinite_mul {x : Float} (hx : x.isFinite = false) (y : Float) :
    (x * y).isFinite = false := by
  have hproduct : ((unpacked x).mul Format.binary64 (unpacked y)).isFinite = false := by
    rw [← isFinite_unpacked] at hx
    generalize unpacked x = u at hx
    cases u with
    | notANumber => rfl
    | infinity s => cases unpacked y <;> rfl
    | zero | finite => cases hx
  exact isFinite_unpack_pack hproduct

/-- What is lost stays lost however many operands follow. -/
theorem isFinite_foldl {op : Float → Float → Float}
    (hop : ∀ {x}, x.isFinite = false → ∀ y, (op x y).isFinite = false) {x : Float}
    (hx : x.isFinite = false) (ys : List Float) : (ys.foldl op x).isFinite = false :=
  List.foldlRecOn (motive := fun x ↦ x.isFinite = false) ys op hx fun _ hx y _ ↦ hop hx y

/-! ## Integers -/

/-- An integer of 64 bits is a finite double. -/
theorem isFinite_ofNat {n : ℕ} (h : n ≤ uint64Max) : (Float.ofNat n).isFinite = true := by
  obtain ⟨k, hmagnitude, -, hholds⟩ := magnitude_ofNat n
  have hvalue : (Binary.ofMagnitude 0x43f0000000000000).value = 2 ^ 64 := by
    have hbinary : Binary.ofMagnitude 0x43f0000000000000 = ⟨2 ^ 52, 12, true⟩ := by decide +kernel
    rw [hbinary, Binary.value]
    norm_num
  have hle : (n : ℚ) ≤ (Binary.ofMagnitude 0x43f0000000000000).value := by
    rw [hvalue]
    exact_mod_cast h.trans (by decide)
  have hk : k ≤ 0x43f0000000000000 := Binary.magnitude_le_of_le_value hholds hle
  rw [isFinite_iff, hmagnitude]
  exact (min_le_left _ _).trans_lt (hk.trans_lt (by decide))

end ChartFeed.Decimal
