import Mathlib
import ChartFeed.Proofs.Decimal.Value
import ChartFeed.Proofs.Table.CellOrder

/-!
# When the order of cells goes on

Two integers are compared as they are, an integer and a double as doubles.  A double can therefore
compare as equal to two integers that are not equal to each other, and then the order of the three
goes up, up and down.  Nothing else can go wrong:

* `Cell.place` — cells of different kinds are ordered by kind, and present cells of one kind that
  hold no numbers by an order of their own;
* `Cell.double`, `Cell.orderKey_le_of_order_isLE` — numbers that are in order are so as doubles, so
  the order goes on except between two integers that become one double;
* `Cell.Blurred` — these cells; `Cell.order_isLE_trans_iff` — the order goes on iff the cells are
  not blurred;
* `Cell.order_laws` — the laws of comparing cells and keys.
-/

set_option autoImplicit false

namespace ChartFeed

instance : Std.TransCmp Instant.compare :=
  inferInstanceAs
    (Std.TransCmp (compareLex (compareOn Instant.seconds) (compareOn Instant.nanos)))

namespace Cell

open Decimal Float.Model

/-! ## Kinds of cells -/

/-- The place of a cell's kind; what counts as absent has the last. -/
def place (a : Cell) : ℕ := if a.isAbsent then 4 else a.kindRank

variable {a b c : Cell}

theorem place_of_present (h : a.isAbsent = false) : a.place = a.kindRank := by
  rw [place, h]
  rfl

theorem kindRank_lt_of_present (h : a.isAbsent = false) : a.kindRank < 4 := by
  cases a with
  | absent => cases h
  | _ => simp only [kindRank]; decide

theorem place_eq_four_iff : a.place = 4 ↔ a.isAbsent = true := by
  rw [place]
  cases h : a.isAbsent
  · exact iff_of_false (kindRank_lt_of_present h).ne Bool.false_ne_true
  · exact iff_of_true rfl rfl

theorem presentOrder_of_kindRank_ne (h : a.kindRank ≠ b.kindRank) :
    a.presentOrder b = compare a.kindRank b.kindRank := by
  cases a <;> cases b <;> first | rfl | exact absurd rfl h

/-- Cells of different places are ordered by them. -/
theorem order_of_place_ne (h : a.place ≠ b.place) : a.order b = compare a.place b.place := by
  rw [order]
  cases ha : a.isAbsent <;> cases hb : b.isAbsent
  · rw [place_of_present ha, place_of_present hb] at h ⊢
    exact presentOrder_of_kindRank_ne h
  · rw [place_of_present ha, place_eq_four_iff.2 hb]
    exact (compare_lt_iff_lt.2 (kindRank_lt_of_present ha)).symm
  · rw [place_of_present hb, place_eq_four_iff.2 ha]
    exact (compare_gt_iff_gt.2 (kindRank_lt_of_present hb)).symm
  · exact absurd ((place_eq_four_iff.2 ha).trans (place_eq_four_iff.2 hb).symm) h

theorem place_le_of_order_isLE (h : (a.order b).isLE) : a.place ≤ b.place := by
  by_cases hne : a.place = b.place
  · exact hne.le
  · rw [order_of_place_ne hne] at h
    exact Nat.isLE_compare.1 h

theorem order_isLE_of_place_lt (h : a.place < b.place) : (a.order b).isLE := by
  rw [order_of_place_ne h.ne]
  exact Nat.isLE_compare.2 h.le

/-! ## Numbers -/

/-- The cell holds a number, finite or not. -/
def IsNumber (a : Cell) : Prop := a.isNumeric = true ∧ a.isAbsent = false

theorem place_eq_one_iff : a.place = 1 ↔ a.IsNumber := by
  rw [place, IsNumber]
  cases a <;> simp [kindRank, isAbsent, isNumeric]

/-- The double by which a number is compared with one of the other kind. -/
def double (a : Cell) : Float := a.toFloat?.getD 0.0

theorem double_float_of_isFinite {x : Float} (h : x.isFinite = true) :
    (Cell.float x).double = x := by
  rw [double, toFloat?, if_pos h]
  rfl

theorem isAbsent_float_of_isFinite {x : Float} (h : x.isFinite = true) :
    isAbsent (.float x) = false := by
  change (UnpackedFloat.unpack Format.binary64 x.toBits.toBitVec).isFinite = true at h
  change (UnpackedFloat.unpack Format.binary64 x.toBits.toBitVec).isNaN = false
  revert h
  generalize UnpackedFloat.unpack Format.binary64 x.toBits.toBitVec = u
  cases u <;> simp [UnpackedFloat.isFinite, UnpackedFloat.isNaN]

/-- Integers are compared as they are, and all other pairs of numbers as doubles. -/
theorem order_of_isNumber (ha : a.IsNumber) (hb : b.IsNumber) :
    (∃ m n, a = .int m ∧ b = .int n ∧ a.order b = compare m n) ∨
      a.order b = floatOrder a.double b.double := by
  rw [order, ha.2, hb.2]
  cases a with
  | int m =>
    cases b with
    | int n => exact .inl ⟨m, n, rfl, rfl, rfl⟩
    | float y => exact .inr rfl
    | _ => cases hb.1
  | float x =>
    cases b with
    | int n => exact .inr rfl
    | float y => exact .inr rfl
    | _ => cases hb.1
  | _ => cases ha.1

/-- Numbers that are in order are so as doubles. -/
theorem orderKey_le_of_order_isLE (ha : a.IsNumber) (hb : b.IsNumber) (h : (a.order b).isLE) :
    orderKey a.double ≤ orderKey b.double := by
  rcases order_of_isNumber ha hb with ⟨m, n, rfl, rfl, horder⟩ | horder
  · rw [horder, Std.isLE_compare] at h
    exact orderKey_ofInt_mono h
  · rw [horder] at h
    exact Std.isLE_compare.1 h

/-- A double between two integers that become it, the greater first. -/
def Blurred (a b c : Cell) : Prop :=
  ∃ m n x, a = .int m ∧ b = .float x ∧ c = .int n ∧ n < m ∧ x.isFinite = true ∧
    Float.ofInt m = x ∧ Float.ofInt n = x

theorem Blurred.order_eq (h : Blurred a b c) :
    a.order b = .eq ∧ b.order c = .eq ∧ a.order c = .gt := by
  obtain ⟨m, n, x, rfl, rfl, rfl, hlt, hfinite, rfl, hn⟩ := h
  rw [order, order, order, isAbsent_float_of_isFinite hfinite]
  have hdouble (k : ℤ) : (Cell.int k).double = Float.ofInt k := rfl
  have hx : (Cell.float (Float.ofInt m)).double = Float.ofInt m := double_float_of_isFinite hfinite
  refine ⟨?_, ?_, compare_gt_iff_gt.2 hlt⟩
  · show floatOrder (Cell.int m).double (Cell.float (Float.ofInt m)).double = .eq
    rw [hx, hdouble, floatOrder_eq_iff]
  · show floatOrder (Cell.float (Float.ofInt m)).double (Cell.int n).double = .eq
    rw [hx, hdouble, hn, floatOrder_eq_iff]

/-- Three numbers are in an order that goes on, unless they are blurred. -/
theorem blurred_of_not_isLE (ha : a.IsNumber) (hb : b.IsNumber) (hc : c.IsNumber)
    (hab : (a.order b).isLE) (hbc : (b.order c).isLE) (h : ¬ (a.order c).isLE) : Blurred a b c := by
  have hab' := orderKey_le_of_order_isLE ha hb hab
  have hbc' := orderKey_le_of_order_isLE hb hc hbc
  rcases order_of_isNumber ha hc with ⟨m, n, rfl, rfl, horder⟩ | horder
  · -- both ends are integers in the wrong order, so all three become one double
    rw [horder, Std.isLE_compare, not_le] at h
    have hnm : orderKey (Float.ofInt n) ≤ orderKey (Float.ofInt m) := orderKey_ofInt_mono h.le
    have hm : Float.ofInt m = b.double :=
      orderKey_injective (le_antisymm hab' (hbc'.trans hnm))
    have hn : Float.ofInt n = b.double :=
      orderKey_injective (le_antisymm (hnm.trans hab') hbc')
    cases b with
    | int k =>
      have hmk : m ≤ k := Std.isLE_compare.1 hab
      have hkn : k ≤ n := Std.isLE_compare.1 hbc
      omega
    | float x =>
      cases hx : x.isFinite
      · have hzero : (Cell.float x).double = 0.0 := by rw [double, toFloat?, hx]; rfl
        rw [hzero, ofInt_eq_zero_iff] at hm hn
        omega
      · rw [double_float_of_isFinite hx] at hm hn
        exact ⟨m, n, x, rfl, rfl, rfl, h, hx, hm, hn⟩
    | _ => cases hb.1
  · rw [horder] at h
    exact absurd (Std.isLE_compare.2 (hab'.trans hbc')) h

/-- Of present cells of one kind that are not numbers the order goes on. -/
theorem presentOrder_isLE_trans (ha : a.isNumeric = false) (hab : a.kindRank = b.kindRank)
    (hbc : b.kindRank = c.kindRank) (h : (a.presentOrder b).isLE) (h' : (b.presentOrder c).isLE) :
    (a.presentOrder c).isLE := by
  cases a with
  | absent => cases b <;> cases hab; cases c <;> cases hbc; rfl
  | bool p =>
    cases b <;> cases hab
    cases c <;> cases hbc
    exact Nat.isLE_compare.2 ((Nat.isLE_compare.1 h).trans (Nat.isLE_compare.1 h'))
  | text s =>
    cases b <;> cases hab
    cases c <;> cases hbc
    exact @Std.TransCmp.isLE_trans _ compare _ s _ _ h h'
  | instant t =>
    cases b <;> cases hab
    cases c <;> cases hbc
    exact @Std.TransCmp.isLE_trans _ Instant.compare _ t _ _ h h'
  | _ => cases ha

/-- Within every kind but the numbers the order goes on. -/
theorem order_isLE_trans_of_place (ha : a.place ≠ 1) (hab : a.place = b.place)
    (hbc : b.place = c.place) (h : (a.order b).isLE) (h' : (b.order c).isLE) :
    (a.order c).isLE := by
  by_cases hfour : a.place = 4
  · rw [order, place_eq_four_iff.1 hfour, place_eq_four_iff.1 ((hab.trans hbc).symm.trans hfour)]
    rfl
  · have present {d : Cell} (hd : a.place = d.place) : d.isAbsent = false := by
      rw [hd, place_eq_four_iff] at hfour
      exact Bool.eq_false_of_not_eq_true hfour
    have hap := present rfl
    have hbp := present hab
    have hcp := present (hab.trans hbc)
    rw [order, hap, hbp] at h
    rw [order, hbp, hcp] at h'
    rw [place_of_present hap, place_of_present hbp] at hab
    rw [place_of_present hbp, place_of_present hcp] at hbc
    rw [order, hap, hcp]
    refine presentOrder_isLE_trans (Bool.eq_false_of_not_eq_true fun hnumeric ↦ ?_) hab hbc h h'
    exact ha (place_eq_one_iff.2 ⟨hnumeric, hap⟩)

/-- **The only way in which the order of cells does not go on.** -/
theorem order_isLE_trans_iff :
    ((a.order b).isLE → (b.order c).isLE → (a.order c).isLE) ↔ ¬ Blurred a b c := by
  constructor
  · intro h hblurred
    obtain ⟨hab, hbc, hac⟩ := hblurred.order_eq
    rw [hab, hbc, hac] at h
    exact Bool.false_ne_true (h rfl rfl)
  · intro h hab hbc
    by_contra hac
    have hplaces := place_le_of_order_isLE hab
    have hplaces' := place_le_of_order_isLE hbc
    by_cases hlt : a.place < c.place
    · exact hac (order_isLE_of_place_lt hlt)
    · by_cases hone : a.place = 1
      · have hnumber {d : Cell} (hd : d.place = 1) := place_eq_one_iff.1 hd
        have hb := hnumber (d := b) (by omega)
        have hc := hnumber (d := c) (by omega)
        exact h (blurred_of_not_isLE (hnumber hone) hb hc hab hbc hac)
      · exact hac (order_isLE_trans_of_place hone (by omega) (by omega) hab hbc)

/-- The order is transitive on the cells of a kind iff no three of them are blurred. -/
theorem transitiveOn_order_iff {kind : Cell → Prop} : TransitiveOn order kind ↔
    ∀ a b c, kind a → kind b → kind c → ¬ Blurred a b c := by
  refine forall_congr' fun a ↦ forall_congr' fun b ↦ forall_congr' fun c ↦ ?_
  refine imp_congr_right fun _ ↦ imp_congr_right fun _ ↦ imp_congr_right fun _ ↦ ?_
  exact order_isLE_trans_iff

/-- Absent cells among those of a kind do no harm. -/
theorem transitiveOn_or_absent {kind : Cell → Prop} (h : TransitiveOn order kind) :
    TransitiveOn order fun cell ↦ kind cell ∨ cell = .absent := by
  refine transitiveOn_order_iff.2 fun a b c ha hb hc hblurred ↦ ?_
  have hnot : kind a → kind b → kind c → False :=
    fun ha hb hc ↦ transitiveOn_order_iff.1 h a b c ha hb hc hblurred
  obtain ⟨m, n, x, rfl, rfl, rfl, -⟩ := hblurred
  exact hnot (ha.resolve_right Cell.noConfusion) (hb.resolve_right Cell.noConfusion)
    (hc.resolve_right Cell.noConfusion)

end Cell

/-! ## Keys -/

namespace Key

theorem order_eq_compareLex (k l : Key) : order k l = List.compareLex Cell.order k l := by
  induction k generalizing l with
  | nil => cases l <;> rfl
  | cons x xs ih =>
    cases l with
    | nil => rfl
    | cons y ys => rw [order, List.compareLex_cons_cons, ih]

/-- Keys of cells of one kind are compared transitively iff the cells are. -/
theorem transitiveOn_forall_mem_iff {kind : Cell → Prop} :
    (TransitiveOn order fun k ↦ ∀ cell ∈ k, kind cell) ↔ TransitiveOn Cell.order kind := by
  constructor
  · intro h a b c ha hb hc hab hbc
    have hsingle (x y : Cell) : order [x] [y] = x.order y := Ordering.then_eq
    have := h [a] [b] [c] (by simpa) (by simpa) (by simpa)
    rw [hsingle, hsingle, hsingle] at this
    exact this hab hbc
  · intro h
    refine (transitiveOn_ofKinds fun _ ↦ h).mono fun k hk i cell hi ↦ ?_
    exact hk cell (List.mem_of_getElem? hi)

end Key

namespace Cell

/-- **The laws of comparing cells and keys.**  A cell equals itself, and turning a comparison around
turns its outcome around; the order goes on except through a double that blurs two integers.  Keys
are compared lexicographically and have the same laws: their order goes on, whatever their lengths,
iff no three of the cells that can stand in them are blurred. -/
theorem order_laws (a b c : Cell) (k l : Key) (kind : Cell → Prop) :
    a.order a = .eq ∧
    b.order a = (a.order b).swap ∧
    (((a.order b).isLE → (b.order c).isLE → (a.order c).isLE) ↔ ¬ Blurred a b c) ∧
    Key.order k l = List.compareLex order k l ∧
    Key.order k k = .eq ∧
    Key.order l k = (Key.order k l).swap ∧
    ((TransitiveOn Key.order fun k ↦ ∀ cell ∈ k, kind cell) ↔
      ∀ a b c, kind a → kind b → kind c → ¬ Blurred a b c) := by
  refine ⟨Std.ReflCmp.compare_self, Std.OrientedCmp.eq_swap, order_isLE_trans_iff,
    Key.order_eq_compareLex k l, Std.ReflCmp.compare_self, Std.OrientedCmp.eq_swap, ?_⟩
  exact Key.transitiveOn_forall_mem_iff.trans transitiveOn_order_iff

/-- A double that equals two neighbouring integers. -/
theorem blurred_order_at_two_pow_53 :
    order (.int 9007199254740993) (.float 9007199254740992.0) = .eq ∧
      order (.float 9007199254740992.0) (.int 9007199254740992) = .eq ∧
      order (.int 9007199254740993) (.int 9007199254740992) = .gt := by
  decide +kernel

end Cell

end ChartFeed
