import Mathlib
import ChartFeed.Proofs.Decimal.Signs
import ChartFeed.Transform.Measure

/-!
# Measures of a single value

Every measure of a group with one number in it has a value.  For most measures this is a
computation; a percentile interpolates at a place that is computed too, and must not be NaN.

* `isNaN_unpack_pack` — a double that is rounded to fit its format does not become NaN;
* `Statistics.quantile_singleton` — the quantile of a single zero is that zero;
* `Measure.isAbsent_of_zero` — the measure of a single zero is present.
-/

set_option autoImplicit false

namespace ChartFeed

open Float.Model

/-! ## Doubles that are not NaN -/

theorem isNaN_unpack_packComponents (sign : UnpackedFloat.Sign) (e : BitVec 11)
    (m : BitVec 52) (h : e = -1#11 → m = 0#52) :
    (UnpackedFloat.unpack Format.binary64
      (UnpackedFloat.packComponents Format.binary64 sign e m)).isNaN = false := by
  rw [UnpackedFloat.unpack]
  simp only [UnpackedFloat.unpackExponent_packComponents,
    UnpackedFloat.unpackMantissa_packComponents]
  split
  · next he =>
    rw [if_pos (h he)]
    rfl
  · split
    · split <;> rfl
    · rfl

/-- Fitting a double into its format does not make it NaN. -/
theorem isNaN_unpack_pack {f : UnpackedFloat} (h : f.isNaN = false) :
    (pack f).unpack.isNaN = false := by
  have hf : f ≠ .notANumber := by
    rintro rfl
    cases h
  obtain ⟨s, e, m, hnumber, hpacked, -⟩ := Decimal.exists_pack_eq hf
  have hpack : (pack f).unpack =
    UnpackedFloat.unpack Format.binary64 (UnpackedFloat.pack Format.binary64 f) := rfl
  rw [hpack, hpacked]
  exact isNaN_unpack_packComponents s e m hnumber

theorem isNaN_roundWithAccuracy (sign : UnpackedFloat.Sign) (m : Nat) (e : Int)
    (acc : UnpackedFloat.Accuracy) :
    (UnpackedFloat.roundWithAccuracy Format.binary64 sign m e acc).isNaN = false := by
  simp only [UnpackedFloat.roundWithAccuracy]
  split <;> rfl

theorem unpack_zero : (0.0 : Float).toModel.unpack = .zero .positive := rfl

theorem unpack_hundred : (100.0 : Float).toModel.unpack =
    .finite .positive 7036874417766400 (-46) (by decide) := rfl

/-- A percentage is not NaN. -/
theorem isNaN_div_hundred {q : Float} (h : 0.0 ≤ q ∧ q ≤ 100.0) : (q / 100.0).isNaN = false := by
  have hlow : (0.0 : Float).toModel.unpack.le q.toModel.unpack = true := of_decide_eq_true h.1
  have hdiv : (q / 100.0).isNaN = (pack (UnpackedFloat.div Format.binary64 q.toModel.unpack
    (100.0 : Float).toModel.unpack)).unpack.isNaN := rfl
  rw [hdiv, unpack_hundred]
  refine isNaN_unpack_pack ?_
  cases hq : q.toModel.unpack with
  | notANumber => rw [hq] at hlow; cases hlow
  | infinity s => cases s <;> rfl
  | zero s => rfl
  | finite s m e hm => exact isNaN_roundWithAccuracy ..

/-! ## Quantiles of one number -/

namespace Statistics

theorem isFinite_clampUnit {p : Float} (h : p.isNaN = false) : (clampUnit p).isFinite = true := by
  have hnan : p.toModel.unpack.isNaN = false := h
  rw [clampUnit]
  split
  · decide +kernel
  · next hlow =>
    split
    · decide +kernel
    · next hhigh =>
      have hzero : p.toModel.unpack.lt (0.0 : Float).toModel.unpack ≠ true :=
        fun e ↦ hlow (decide_eq_true e)
      have hone : (1.0 : Float).toModel.unpack.lt p.toModel.unpack ≠ true :=
        fun e ↦ hhigh (decide_eq_true e)
      have hfinite : p.toModel.unpack.isFinite = true := by
        cases hp : p.toModel.unpack with
        | notANumber => rw [hp] at hnan; cases hnan
        | infinity s =>
          rw [hp] at hzero hone
          cases s with
          | negative => exact absurd rfl hzero
          | positive => exact absurd rfl hone
        | zero s => rfl
        | finite s m e hm => rfl
      exact hfinite

theorem mul_zero_of_isFinite {c : Float} (h : c.isFinite = true) :
    c * 0.0 = 0.0 ∨ c * 0.0 = -0.0 := by
  have hc : c.toModel.unpack.isFinite = true := h
  have hmul : c * 0.0 = Float.ofModel (pack (UnpackedFloat.mul Format.binary64 c.toModel.unpack
    (0.0 : Float).toModel.unpack)) := rfl
  rw [hmul, unpack_zero]
  cases hu : c.toModel.unpack with
  | notANumber | infinity => rw [hu] at hc; cases hc
  | zero s | finite s =>
    cases s with
    | negative => exact .inr rfl
    | positive => exact .inl rfl

theorem quantile_singleton {p : Float} (h : p.isNaN = false) : quantile [0.0] p = some 0.0 := by
  have hrank : clampUnit p * Float.ofNat ([0.0].length - 1) = 0.0 ∨
      clampUnit p * Float.ofNat ([0.0].length - 1) = -0.0 :=
    mul_zero_of_isFinite (isFinite_clampUnit h)
  simp only [quantile, List.isEmpty_cons, Bool.false_eq_true, if_false]
  rcases hrank with e | e <;>
    · rw [e]
      decide +kernel

end Statistics

/-! ## Measures -/

namespace Measure

/-- What reading a measure ensures of it: a percentile is one. -/
def Valid (m : Measure) : Prop := ∀ q, m = .percentile q → 0.0 ≤ q ∧ q ≤ 100.0

/-- **The measure of a single zero is present.** -/
theorem isAbsent_of_zero {m : Measure} (h : m.Valid) : (m.of [.int 0]).isAbsent = false := by
  cases m with
  | percentile q =>
    have hq : Statistics.quantile [0.0] (q / 100.0) = some 0.0 :=
      Statistics.quantile_singleton (isNaN_div_hundred (h q rfl))
    have hof : (percentile q).of [.int 0] =
      .ofFloat? (Statistics.quantile [0.0] (q / 100.0)) := rfl
    rw [hof, hq]
    decide +kernel
  | _ => decide +kernel

end Measure

end ChartFeed
