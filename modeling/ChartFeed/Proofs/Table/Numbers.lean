import Mathlib
import ChartFeed.Proofs.Table.Transitivity

/-!
# What the order of cells says about numbers

The cells that hold numbers stand for rational numbers or infinities, so there is an order that they
ought to have.  They mostly have it:

* `Cell.number`, `Cell.numberOrder` — the number of a cell, and the comparison of the numbers with
  minus zero before zero;
* `Cell.Rounded` — an integer and another number, the one that it becomes as a double.  They compare
  as equal;
* `Cell.Flattened` — an infinity, which compares like zero, and a number that is on the other side
  of zero, or zero itself, or the other infinity;
* `Cell.order_eq_numberOrder_iff` — in all other cases, and only then, the order of the cells is
  that of the numbers.
-/

set_option autoImplicit false

namespace ChartFeed

namespace Decimal

theorem floatOrder_ofInt_zero (n : ℤ) : floatOrder (Float.ofInt n) 0.0 = compare n 0 := by
  have hzero : (0.0 : Float) = Float.ofInt 0 := (ofInt_eq_zero_iff.2 rfl).symm
  rcases lt_trichotomy n 0 with hneg | rfl | hpos
  · rw [compare_lt_iff_lt.2 hneg]
    refine compare_lt_iff_lt.2 (lt_of_le_of_ne ?_ fun h ↦ ?_)
    · rw [hzero]
      exact orderKey_ofInt_mono hneg.le
    · exact hneg.ne (ofInt_eq_zero_iff.1 (orderKey_injective h))
  · rw [hzero]
    exact compare_eq_iff_eq.2 rfl
  · rw [compare_gt_iff_gt.2 hpos]
    refine compare_gt_iff_gt.2 (lt_of_le_of_ne ?_ fun h ↦ ?_)
    · rw [hzero]
      exact orderKey_ofInt_mono hpos.le
    · exact hpos.ne' (ofInt_eq_zero_iff.1 (orderKey_injective h.symm))

theorem value_eq_zero {x : Float} (h : magnitude x = 0) : value x = 0 := by
  rw [value, h, Binary.value_ofMagnitude_zero, neg_zero, ite_self]

theorem value_zero : value 0.0 = 0 := value_eq_zero (by decide +kernel)

theorem isFinite_minusZero : minusZero.isFinite = true := by decide +kernel

theorem value_minusZero : value minusZero = 0 := value_eq_zero (by decide +kernel)

end Decimal

namespace Cell

open Decimal

/-! ## Numbers -/

/-- The number that a cell stands for, if it holds one. -/
def number : Cell → WithBot (WithTop ℚ)
  | .int n => ((n : ℚ) : WithTop ℚ)
  | .float x => if x.isFinite then (value x : WithTop ℚ) else if isNegative x then ⊥ else ⊤
  | _ => ⊥

/-- The cell holds minus zero. -/
def isMinusZero : Cell → Bool
  | .float x => x = minusZero
  | _ => false

/-- The comparison of the numbers of two cells, with minus zero before zero. -/
def numberOrder (a b : Cell) : Ordering :=
  (compare a.number b.number).then (compare b.isMinusZero a.isMinusZero)

/-- An integer and a double with another value, which the integer becomes. -/
def Rounded (a b : Cell) : Prop :=
  ∃ n x, a = .int n ∧ b = .float x ∧ x.isFinite = true ∧ Float.ofInt n = x ∧ value x ≠ n

/-- An infinity and another number that is not on its other side of zero. -/
def Flattened (a b : Cell) : Prop :=
  a.number = ⊤ ∧ (b.number = ⊥ ∨ b.number ≠ ⊤ ∧ b.numberOrder (.int 0) ≠ .lt) ∨
    a.number = ⊥ ∧ (b.number = ⊤ ∨ b.number ≠ ⊥ ∧ b.numberOrder (.int 0) ≠ .gt)

/-- Two numbers that are not compared as the numbers that they are. -/
def Misjudged (a b : Cell) : Prop :=
  a.IsNumber ∧ b.IsNumber ∧ (Rounded a b ∨ Rounded b a ∨ Flattened a b ∨ Flattened b a)

variable {a b : Cell} {n : ℤ} {x y : Float}

theorem compare_coe (q r : ℚ) :
    compare ((q : WithTop ℚ) : WithBot (WithTop ℚ)) (r : WithTop ℚ) = compare q r := by
  rw [← cmp_eq_compare, ← cmp_eq_compare]
  exact (WithBot.coe_strictMono.comp WithTop.coe_strictMono).cmp_map_eq q r

theorem numberOrder_swap (a b : Cell) : b.numberOrder a = (a.numberOrder b).swap := by
  rw [numberOrder, numberOrder, Ordering.swap_then, ← Std.OrientedCmp.eq_swap,
    ← Std.OrientedCmp.eq_swap]

theorem Misjudged.symm (h : Misjudged a b) : Misjudged b a := by
  obtain ⟨ha, hb, h⟩ := h
  refine ⟨hb, ha, ?_⟩
  tauto

/-! ## Finite numbers -/

theorem number_float (h : x.isFinite = true) : number (.float x) = (value x : WithTop ℚ) := by
  rw [number, if_pos h]

theorem order_float_float (hx : x.isFinite = true) (hy : y.isFinite = true) :
    order (.float x) (.float y) = numberOrder (.float x) (.float y) := by
  rw [order, isAbsent_float_of_isFinite hx, isAbsent_float_of_isFinite hy, numberOrder,
    number_float hx, number_float hy, compare_coe]
  show floatOrder (Cell.float x).double (Cell.float y).double = _
  rw [double_float_of_isFinite hx, double_float_of_isFinite hy, floatOrder_eq]
  rfl

theorem order_int_int (m n : ℤ) : order (.int m) (.int n) = numberOrder (.int m) (.int n) := by
  rw [numberOrder, number, number, compare_coe]
  show compare m n = (compare (m : ℚ) n).then .eq
  rw [Ordering.then_eq, ← cmp_eq_compare, ← cmp_eq_compare]
  exact (Int.cast_strictMono.cmp_map_eq m n).symm

theorem order_int_float (hx : x.isFinite = true) :
    order (.int n) (.float x) = floatOrder (Float.ofInt n) x := by
  rw [order, isAbsent_float_of_isFinite hx]
  show floatOrder (Cell.int n).double (Cell.float x).double = _
  rw [double_float_of_isFinite hx]
  rfl

theorem numberOrder_int_float (hx : x.isFinite = true) : numberOrder (.int n) (.float x) =
    (compare (n : ℚ) (value x)).then (compare (decide (x = minusZero)) false) := by
  rw [numberOrder, number_float hx, number, compare_coe]
  rfl

/-- An integer before a double by value is not after it. -/
theorem orderKey_ofInt_le_of_lt (hx : x.isFinite = true) (h : n < value x) :
    orderKey (Float.ofInt n) ≤ orderKey x := by
  by_cases hminus : x = minusZero
  · rw [hminus, value_minusZero] at h
    have hneg : n ≤ -1 := by
      have : (n : ℚ) < 0 := h
      have : n < 0 := by exact_mod_cast this
      omega
    rw [hminus]
    exact (orderKey_ofInt_mono hneg).trans (by decide +kernel)
  · exact orderKey_ofInt_le hx hminus h.le

/-- **An integer and a double** are compared as numbers, unless the integer becomes the double and
is not its value. -/
theorem order_int_float_iff (hx : x.isFinite = true) :
    order (.int n) (.float x) = numberOrder (.int n) (.float x) ↔
      ¬ (Float.ofInt n = x ∧ value x ≠ n) := by
  rw [order_int_float hx, numberOrder_int_float hx]
  rcases lt_trichotomy (n : ℚ) (value x) with hlt | heq | hgt
  · rw [compare_lt_iff_lt.2 hlt, floatOrder]
    show _ = Ordering.lt ↔ _
    rw [compare_lt_iff_lt, lt_iff_le_and_ne, orderKey_injective.ne_iff]
    have := orderKey_ofInt_le_of_lt hx hlt
    have := hlt.ne'
    tauto
  · rw [compare_eq_iff_eq.2 heq]
    refine iff_of_true ?_ fun h ↦ h.2 heq.symm
    by_cases hminus : x = minusZero
    · rw [hminus, value_minusZero] at heq
      obtain rfl : n = 0 := by exact_mod_cast heq
      rw [hminus]
      decide +kernel
    · rw [decide_eq_false hminus, ofInt_eq_of_value_eq hx hminus heq.symm, floatOrder_eq_iff.2 rfl]
      rfl
  · rw [compare_gt_iff_gt.2 hgt, floatOrder]
    show _ = Ordering.gt ↔ _
    rw [compare_gt_iff_gt, lt_iff_le_and_ne, orderKey_injective.ne_iff]
    have := le_orderKey_ofInt hx hgt.le
    have := hgt.ne
    rw [ne_comm]
    tauto

theorem rounded_iff (hx : x.isFinite = true) :
    Rounded (.int n) (.float x) ↔ Float.ofInt n = x ∧ value x ≠ n := by
  constructor
  · rintro ⟨n, x, hn, hx, -, h⟩
    cases hn
    cases hx
    exact h
  · exact fun h ↦ ⟨n, x, rfl, rfl, hx, h⟩

theorem not_rounded_float : ¬ Rounded (.float x) b := by
  rintro ⟨n, y, h, -⟩
  cases h

/-! ## Infinities -/

/-- The cell holds an infinity. -/
def IsInfinite (a : Cell) : Prop := a.IsNumber ∧ (a.number = ⊤ ∨ a.number = ⊥)

/-- The cell holds a number that is not an infinity. -/
def IsFiniteNumber (a : Cell) : Prop := a.IsNumber ∧ a.number ≠ ⊤ ∧ a.number ≠ ⊥

theorem coe_ne (q : ℚ) : ((q : WithTop ℚ) : WithBot (WithTop ℚ)) ≠ ⊤ ∧
    ((q : WithTop ℚ) : WithBot (WithTop ℚ)) ≠ ⊥ :=
  ⟨fun h ↦ WithTop.coe_ne_top (WithBot.coe_injective h), WithBot.coe_ne_bot⟩

theorem isFiniteNumber_iff : a.IsFiniteNumber ↔
    (∃ n, a = .int n) ∨ ∃ x, a = .float x ∧ x.isFinite = true := by
  constructor
  · rintro ⟨ha, htop, hbot⟩
    cases a with
    | int n => exact .inl ⟨n, rfl⟩
    | float x =>
      refine .inr ⟨x, rfl, ?_⟩
      by_contra hx
      rw [number, if_neg hx] at htop hbot
      split at htop <;> simp_all
    | _ => cases ha.1
  · rintro (⟨n, rfl⟩ | ⟨x, rfl, hx⟩)
    · exact ⟨⟨rfl, rfl⟩, coe_ne n⟩
    · refine ⟨⟨rfl, isAbsent_float_of_isFinite hx⟩, ?_⟩
      rw [number_float hx]
      exact coe_ne _

theorem IsNumber.cases (h : a.IsNumber) : a.IsFiniteNumber ∨ a.IsInfinite := by
  by_cases hinfinite : a.number = ⊤ ∨ a.number = ⊥
  · exact .inr ⟨h, hinfinite⟩
  · exact .inl ⟨h, not_or.1 hinfinite⟩

theorem IsInfinite.exists_float (h : a.IsInfinite) : ∃ x, a = .float x ∧ x.isFinite = false := by
  have hfinite : ¬ a.IsFiniteNumber := fun h' ↦ h.2.elim h'.2.1 h'.2.2
  rw [isFiniteNumber_iff] at hfinite
  cases a with
  | int n => exact absurd (.inl ⟨n, rfl⟩) hfinite
  | float x => exact ⟨x, rfl, Bool.eq_false_of_not_eq_true fun hx ↦ hfinite (.inr ⟨x, rfl, hx⟩)⟩
  | _ => cases h.1.1

theorem IsInfinite.isMinusZero (h : a.IsInfinite) : a.isMinusZero = false := by
  obtain ⟨x, rfl, hx⟩ := h.exists_float
  refine decide_eq_false fun hminus ↦ ?_
  rw [hminus, isFinite_minusZero] at hx
  cases hx

theorem IsInfinite.double (h : a.IsInfinite) : a.double = 0.0 := by
  obtain ⟨x, rfl, hx⟩ := h.exists_float
  rw [Cell.double, toFloat?, hx]
  rfl

/-- **Infinities compare like zero.** -/
theorem IsInfinite.order_eq (ha : a.IsInfinite) (hb : b.IsNumber) :
    a.order b = floatOrder 0.0 b.double := by
  rcases order_of_isNumber ha.1 hb with ⟨m, n, rfl, -⟩ | horder
  · obtain ⟨x, hint, -⟩ := ha.exists_float
    cases hint
  · rw [horder, ha.double]

/-- Numbers that are not infinities compare with zero as they ought to. -/
theorem IsFiniteNumber.floatOrder_zero (h : b.IsFiniteNumber) :
    floatOrder b.double 0.0 = b.numberOrder (.int 0) := by
  rcases isFiniteNumber_iff.1 h with ⟨n, rfl⟩ | ⟨x, rfl, hx⟩
  · rw [← order_int_int]
    exact floatOrder_ofInt_zero n
  · rw [double_float_of_isFinite hx, floatOrder_eq, value_zero, decide_eq_false zero_ne_minusZero,
      numberOrder, number_float hx, number, Int.cast_zero, compare_coe]
    rfl

/-- An infinity is compared as a number iff the other number is on its other side of zero. -/
theorem IsInfinite.order_eq_numberOrder_iff (ha : a.IsInfinite) (hb : b.IsNumber) :
    a.order b = a.numberOrder b ↔ ¬ Flattened a b := by
  rw [ha.order_eq hb, numberOrder, ha.isMinusZero, Flattened]
  rcases hb.cases with hfinite | hinfinite
  · have horder : floatOrder 0.0 b.double = (b.numberOrder (.int 0)).swap := by
      rw [← hfinite.floatOrder_zero, ← Std.OrientedCmp.eq_swap]
    rw [horder]
    have hbounds := hfinite.2
    rcases ha.2 with htop | hbot
    · rw [htop, compare_gt_iff_gt.2 hbounds.1.lt_top]
      cases b.numberOrder (.int 0) <;> simp [hbounds]
    · rw [hbot, compare_lt_iff_lt.2 hbounds.2.bot_lt]
      cases b.numberOrder (.int 0) <;> simp [hbounds]
  · rw [hinfinite.double, hinfinite.isMinusZero, floatOrder_eq_iff.2 rfl]
    rcases ha.2 with ha | ha <;> rcases hinfinite.2 with hb | hb <;> rw [ha, hb]
    · simp
    · rw [compare_gt_iff_gt.2 bot_lt_top]
      simp
    · rw [compare_lt_iff_lt.2 bot_lt_top]
      simp
    · simp

/-! ## All numbers -/

theorem not_rounded_of_isInfinite (ha : a.IsInfinite) : ¬ Rounded a b ∧ ¬ Rounded b a := by
  obtain ⟨x, rfl, hx⟩ := ha.exists_float
  refine ⟨not_rounded_float, ?_⟩
  rintro ⟨n, y, -, h, hy, -⟩
  cases h
  exact absurd (hy.symm.trans hx) Bool.noConfusion

theorem not_flattened_of_isFiniteNumber (ha : a.IsFiniteNumber) : ¬ Flattened a b := by
  rintro (⟨h, -⟩ | ⟨h, -⟩)
  · exact ha.2.1 h
  · exact ha.2.2 h

/-- Turned around, the comparison is right iff it is. -/
theorem order_eq_numberOrder_comm : a.order b = a.numberOrder b ↔ b.order a = b.numberOrder a := by
  have hswap : b.order a = (a.order b).swap := Std.OrientedCmp.eq_swap
  rw [hswap, numberOrder_swap a b, Ordering.swap_inj]

/-- An infinity and any number are misjudged iff the infinity is flattened. -/
theorem IsInfinite.misjudged_iff (ha : a.IsInfinite) (hb : b.IsNumber) :
    Misjudged a b ↔ Flattened a b := by
  have hrounded := not_rounded_of_isInfinite (b := b) ha
  have hturned : Flattened b a → Flattened a b := by
    intro h
    rcases hb.cases with hfinite | hinfinite
    · exact absurd h (not_flattened_of_isFiniteNumber hfinite)
    · by_contra hnot
      rw [← ha.order_eq_numberOrder_iff hb, order_eq_numberOrder_comm,
        hinfinite.order_eq_numberOrder_iff ha.1] at hnot
      exact hnot h
  constructor
  · rintro ⟨-, -, h | h | h | h⟩
    · exact absurd h hrounded.1
    · exact absurd h hrounded.2
    · exact h
    · exact hturned h
  · exact fun h ↦ ⟨ha.1, hb, .inr (.inr (.inl h))⟩

/-- Two numbers that are not infinities are misjudged iff one is rounded to the other. -/
theorem IsFiniteNumber.misjudged_iff (ha : a.IsFiniteNumber) (hb : b.IsFiniteNumber) :
    Misjudged a b ↔ Rounded a b ∨ Rounded b a := by
  have hab := not_flattened_of_isFiniteNumber (b := b) ha
  have hba := not_flattened_of_isFiniteNumber (b := a) hb
  have := ha.1
  have := hb.1
  rw [Misjudged]
  tauto

/-- **The order of cells is that of their numbers**, unless they are misjudged. -/
theorem order_eq_numberOrder_iff (ha : a.IsNumber) (hb : b.IsNumber) :
    a.order b = a.numberOrder b ↔ ¬ Misjudged a b := by
  rcases ha.cases with hafinite | hainfinite
  · rcases hb.cases with hbfinite | hbinfinite
    · rw [hafinite.misjudged_iff hbfinite]
      rcases isFiniteNumber_iff.1 hafinite with ⟨m, rfl⟩ | ⟨x, rfl, hx⟩
      · rcases isFiniteNumber_iff.1 hbfinite with ⟨n, rfl⟩ | ⟨y, rfl, hy⟩
        · exact iff_of_true (order_int_int m n) (by simp [Rounded])
        · rw [order_int_float_iff hy, rounded_iff hy, or_iff_left not_rounded_float]
      · rcases isFiniteNumber_iff.1 hbfinite with ⟨n, rfl⟩ | ⟨y, rfl, hy⟩
        · rw [order_eq_numberOrder_comm, order_int_float_iff hx, rounded_iff hx,
            or_iff_right not_rounded_float]
        · rw [or_iff_left not_rounded_float]
          exact iff_of_true (order_float_float hx hy) not_rounded_float
    · rw [order_eq_numberOrder_comm, hbinfinite.order_eq_numberOrder_iff ha,
        ← hbinfinite.misjudged_iff ha]
      exact not_congr ⟨Misjudged.symm, Misjudged.symm⟩
  · rw [hainfinite.order_eq_numberOrder_iff hb, hainfinite.misjudged_iff hb]

/-- Misjudged numbers are different. -/
theorem Misjudged.number_ne (h : Misjudged a b) : a.number ≠ b.number := by
  obtain ⟨-, -, h⟩ := h
  have rounded {c d : Cell} (h : Rounded c d) : c.number ≠ d.number := by
    obtain ⟨n, x, rfl, rfl, hx, -, hne⟩ := h
    rw [number_float hx, number]
    exact fun h ↦ hne (WithTop.coe_injective (WithBot.coe_injective h)).symm
  have flattened {c d : Cell} (h : Flattened c d) : c.number ≠ d.number := by
    rcases h with ⟨hc, hd | hd⟩ | ⟨hc, hd | hd⟩
    · rw [hc, hd]
      exact bot_ne_top.symm
    · exact hc ▸ hd.1.symm
    · rw [hc, hd]
      exact bot_ne_top
    · exact hc ▸ hd.1.symm
  rcases h with h | h | h | h
  · exact rounded h
  · exact (rounded h).symm
  · exact flattened h
  · exact (flattened h).symm

end Cell

end ChartFeed
