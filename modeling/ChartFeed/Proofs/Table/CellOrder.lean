import Mathlib.Data.List.Forall2
import Mathlib.Order.Compare
import ChartFeed.Table.Basic

/-!
# Comparing cells and keys

Turning a comparison of cells or keys around turns its outcome around.  That is all that holds of
every cell: integers and doubles compare through doubles, which forget the last digits of large
integers, so three such cells can be in an order that does not go on.

* `Cell.orientedCmp`, `Key.orientedCmp` — turning around;
* `TransitiveOn` — a comparison is transitive on the values that matter.  There it has all the laws
  of `Std.TransCmp`, which are had by passing to the subtype;
* `Key.order_append` — keys of equal length are compared part by part;
* `Key.transitiveOn_ofKinds` — if the comparison is transitive on the cells that can stand at each
  place, then it is on the keys; `Key.transitiveOn_within` — so it is on the keys that take one cell
  from each column if it is on the cells of each column.
-/

set_option autoImplicit false

namespace ChartFeed

/-! ## Turning around -/

instance : Std.OrientedCmp Decimal.floatOrder :=
  inferInstanceAs (Std.OrientedCmp (compareOn Decimal.orderKey))

instance : Std.OrientedCmp Instant.compare :=
  inferInstanceAs
    (Std.OrientedCmp (compareLex (compareOn Instant.seconds) (compareOn Instant.nanos)))

theorem Cell.presentOrder_swap (a b : Cell) : a.presentOrder b = (b.presentOrder a).swap := by
  cases a with
  | absent => cases b <;> rfl
  | bool p =>
    cases b with
    | bool q => exact (Std.OrientedCmp.eq_swap : compare p.toNat q.toNat = _)
    | _ => rfl
  | int m =>
    cases b with
    | int n => exact (Std.OrientedCmp.eq_swap : compare m n = _)
    | float y => exact (Std.OrientedCmp.eq_swap : Decimal.floatOrder (Float.ofInt m) _ = _)
    | _ => rfl
  | float x =>
    cases b with
    | int n => exact (Std.OrientedCmp.eq_swap : Decimal.floatOrder _ (Float.ofInt n) = _)
    | float y => exact (Std.OrientedCmp.eq_swap : Decimal.floatOrder _ _ = _)
    | _ => rfl
  | text s =>
    cases b with
    | text s' => exact (Std.OrientedCmp.eq_swap : compare s s' = _)
    | _ => rfl
  | instant t =>
    cases b with
    | instant t' => exact (Std.OrientedCmp.eq_swap : Instant.compare t t' = _)
    | _ => rfl

instance Cell.orientedCmp : Std.OrientedCmp Cell.order where
  eq_swap {a b} := by
    rw [order, order]
    cases a.isAbsent <;> cases b.isAbsent
    · exact presentOrder_swap a b
    · rfl
    · rfl
    · rfl

instance Key.orientedCmp : Std.OrientedCmp Key.order where
  eq_swap {a b} := by
    induction a generalizing b with
    | nil => cases b <;> rfl
    | cons x xs ih =>
      cases b with
      | nil => rfl
      | cons y ys =>
        rw [order, order, Ordering.swap_then, ← ih, ← Std.OrientedCmp.eq_swap]

/-! ## Transitive where it matters -/

/-- Going up twice is going up, for values of this kind. -/
def TransitiveOn {α : Type} (cmp : α → α → Ordering) (kind : α → Prop) : Prop :=
  ∀ a b c, kind a → kind b → kind c → (cmp a b).isLE → (cmp b c).isLE → (cmp a c).isLE

/-- For the elements of a list it can be tried out. -/
instance {α : Type} (cmp : α → α → Ordering) (xs : List α) :
    Decidable (TransitiveOn cmp (· ∈ xs)) :=
  decidable_of_iff
    (∀ a ∈ xs, ∀ b ∈ xs, ∀ c ∈ xs, (cmp a b).isLE → (cmp b c).isLE → (cmp a c).isLE)
    ⟨fun h a b c ha hb hc ↦ h a ha b hb c hc, fun h a ha b hb c hc ↦ h a b c ha hb hc⟩

namespace TransitiveOn

variable {α : Type} {cmp : α → α → Ordering} [Std.OrientedCmp cmp] {kind : α → Prop}

/-- On its own, the kind has all the laws of an order. -/
theorem transCmp (h : TransitiveOn cmp kind) :
    Std.TransCmp fun a b : { a : α // kind a } ↦ cmp a b where
  eq_swap := Std.OrientedCmp.eq_swap
  isLE_trans {a b c} := h a b c a.2 b.2 c.2

omit [Std.OrientedCmp cmp] in
theorem mono (h : TransitiveOn cmp kind) {kind' : α → Prop} (hsub : ∀ a, kind' a → kind a) :
    TransitiveOn cmp kind' :=
  fun a b c ha hb hc ↦ h a b c (hsub a ha) (hsub b hb) (hsub c hc)

variable (h : TransitiveOn cmp kind) {a b c : α} (ha : kind a) (hb : kind b) (hc : kind c)

include h ha hb hc

theorem congr_left (hab : cmp a b = .eq) : cmp a c = cmp b c :=
  @Std.TransCmp.congr_left _ _ h.transCmp ⟨a, ha⟩ ⟨b, hb⟩ ⟨c, hc⟩ hab

theorem congr_right (hbc : cmp b c = .eq) : cmp a b = cmp a c :=
  @Std.TransCmp.congr_right _ _ h.transCmp ⟨a, ha⟩ ⟨b, hb⟩ ⟨c, hc⟩ hbc

theorem lt_trans (hab : cmp a b = .lt) (hbc : cmp b c = .lt) : cmp a c = .lt :=
  @Std.TransCmp.lt_trans _ _ h.transCmp ⟨a, ha⟩ ⟨b, hb⟩ ⟨c, hc⟩ hab hbc

end TransitiveOn

/-! ## Keys -/

namespace Key

/-- Of equally long beginnings, the first difference decides, and then the rest. -/
theorem order_append {a a' : Key} (h : a.length = a'.length) (b b' : Key) :
    order (a ++ b) (a' ++ b') = (order a a').then (order b b') := by
  induction a generalizing a' with
  | nil => rw [List.eq_nil_of_length_eq_zero h.symm]; rfl
  | cons x xs ih =>
    cases a' with
    | nil => cases h
    | cons y ys =>
      rw [List.cons_append, List.cons_append, order, order, ih (Nat.succ.inj h),
        Ordering.then_assoc]

/-- Keys compare as equal iff their cells do, one by one. -/
theorem order_eq_eq_iff {a b : Key} :
    order a b = .eq ↔ List.Forall₂ (fun x y ↦ Cell.order x y = .eq) a b := by
  induction a generalizing b with
  | nil => cases b <;> simp [order]
  | cons x xs ih =>
    cases b with
    | nil => simp [order]
    | cons y ys => rw [order, Ordering.then_eq_eq, ih, List.forall₂_cons]

/-- Keys that compare as equal do so at every position, also beyond their ends. -/
theorem order_getD_eq {a b : Key} (h : order a b = .eq) (position : Nat) :
    Cell.order (a.getD position .absent) (b.getD position .absent) = .eq := by
  rw [order_eq_eq_iff] at h
  induction h generalizing position with
  | nil => rfl
  | cons hcell _ ih =>
    cases position with
    | zero => exact hcell
    | succ position => exact ih position

/-- The key takes one cell from each column. -/
def Within (columns : List Column) (key : Key) : Prop :=
  List.Forall₂ (fun c cell ↦ cell ∈ c.cells) columns key

theorem Within.append {columns columns' : List Column} {a b : Key} (ha : Within columns a)
    (hb : Within columns' b) : Within (columns ++ columns') (a ++ b) :=
  List.rel_append ha hb

/-- Every cell of the key is of the kind of its place. -/
def OfKinds (kinds : ℕ → Cell → Prop) (key : Key) : Prop :=
  ∀ i cell, key[i]? = some cell → kinds i cell

theorem ofKinds_cons_iff {kinds : ℕ → Cell → Prop} {x : Cell} {xs : Key} :
    OfKinds kinds (x :: xs) ↔ kinds 0 x ∧ OfKinds (fun i ↦ kinds (i + 1)) xs := by
  constructor
  · exact fun h ↦ ⟨h 0 x rfl, fun i ↦ h (i + 1)⟩
  · rintro ⟨hx, hxs⟩ i cell hi
    cases i with
    | zero => exact Option.some.inj hi ▸ hx
    | succ i => exact hxs i cell hi

/-- **Keys inherit a transitive order from their places**, whatever their lengths. -/
theorem transitiveOn_ofKinds {kinds : ℕ → Cell → Prop}
    (h : ∀ i, TransitiveOn Cell.order (kinds i)) : TransitiveOn order (OfKinds kinds) := by
  intro a b c ha hb hc hab hbc
  induction a generalizing kinds b c with
  | nil => cases c <;> rfl
  | cons x xs ih =>
    cases b with
    | nil => cases hab
    | cons y ys =>
      cases c with
      | nil => cases hbc
      | cons z zs =>
        obtain ⟨hx, hxs⟩ := ofKinds_cons_iff.1 ha
        obtain ⟨hy, hys⟩ := ofKinds_cons_iff.1 hb
        obtain ⟨hz, hzs⟩ := ofKinds_cons_iff.1 hc
        rw [order, Ordering.isLE_then_iff_or] at hab hbc ⊢
        rcases hab with hxy | ⟨hxy, hab⟩
        · rcases hbc with hyz | ⟨hyz, -⟩
          · exact .inl ((h 0).lt_trans hx hy hz hxy hyz)
          · exact .inl (((h 0).congr_right hx hy hz hyz).symm.trans hxy)
        · rw [(h 0).congr_left hx hy hz hxy]
          exact hbc.imp id fun ⟨hyz, hbc⟩ ↦
            ⟨hyz, ih (fun i ↦ h (i + 1)) _ _ hxs hys hzs hab hbc⟩

theorem Within.ofKinds {columns : List Column} {key : Key} (h : Within columns key) :
    OfKinds (fun i cell ↦ ∃ c, columns[i]? = some c ∧ cell ∈ c.cells) key := by
  induction h with
  | nil => exact fun i cell hi ↦ nomatch hi
  | cons hcell _ ih => exact ofKinds_cons_iff.2 ⟨⟨_, rfl, hcell⟩, ih⟩

/-- Keys that take one cell from each column are compared transitively if the cells of each column
are. -/
theorem transitiveOn_within {columns : List Column}
    (h : ∀ c ∈ columns, TransitiveOn Cell.order (· ∈ c.cells)) :
    TransitiveOn order (Within columns) := by
  refine (transitiveOn_ofKinds fun i ↦ ?_).mono fun _ ↦ Within.ofKinds
  rintro a b c ⟨column, hi, ha⟩ ⟨_, hi', hb⟩ ⟨_, hi'', hc⟩
  obtain rfl := Option.some.inj (hi.symm.trans hi')
  obtain rfl := Option.some.inj (hi.symm.trans hi'')
  exact h column (List.mem_of_getElem? hi) a b c ha hb hc

end Key

end ChartFeed
