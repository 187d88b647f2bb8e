import ChartFeed.Proofs.Transform.Result

/-!
# Sorted rows are in order

Sorting inserts row by row and only ever asks which of two rows is before the other, so what it
makes is in order only if the order of the rows is transitive.

* `pairwise_sortStably` — by an order with all its laws, what is sorted ascends;
* `RowSort.transCmp_rowOrder` — rows are compared by such an order when the cells of every column to
  sort by are compared transitively.  Absent cells are last whichever way a column is sorted, and do
  no harm;
* `RowSort.pairwise_rowsOf` — then the rows of the sorted table ascend.
-/

set_option autoImplicit false

namespace ChartFeed

/-! ## Insertion -/

section

variable {α : Type} {cmp : α → α → Ordering} [Std.TransCmp cmp]

theorem mem_insertDescending {before : α → α → Bool} {x y : α} {xs : List α} :
    y ∈ insertDescending before x xs ↔ y = x ∨ y ∈ xs := by
  rw [(perm_insertDescending before x xs).mem_iff, List.mem_cons]

/-- Insertion keeps a descending list in order. -/
theorem pairwise_insertDescending {x : α} {xs : List α}
    (h : xs.Pairwise fun a b ↦ (cmp b a).isLE) :
    (insertDescending (fun a b ↦ cmp a b == .lt) x xs).Pairwise fun a b ↦ (cmp b a).isLE := by
  induction xs with
  | nil => exact List.pairwise_singleton ..
  | cons y rest ih =>
    obtain ⟨hy, hrest⟩ := List.pairwise_cons.1 h
    rw [insertDescending]
    split
    · next hbefore =>
      refine List.pairwise_cons.2 ⟨fun z hz ↦ ?_, ih hrest⟩
      rcases mem_insertDescending.1 hz with rfl | hz
      · rw [eq_of_beq hbefore]
        rfl
      · exact hy z hz
    · next hbefore =>
      have hyx : (cmp y x).isLE := by
        rw [beq_iff_eq, ← Std.OrientedCmp.gt_iff_lt] at hbefore
        cases hcmp : cmp y x with
        | gt => exact absurd hcmp hbefore
        | _ => rfl
      refine List.pairwise_cons.2 ⟨List.forall_mem_cons.2 ⟨hyx, fun z hz ↦ ?_⟩, h⟩
      exact Std.TransCmp.isLE_trans (hy z hz) hyx

/-- **What is sorted ascends.** -/
theorem pairwise_sortStably (xs : List α) :
    (sortStably (fun a b ↦ cmp a b == .lt) xs).Pairwise fun a b ↦ (cmp a b).isLE := by
  have hfold (acc : List α) (hacc : acc.Pairwise fun a b ↦ (cmp b a).isLE) :
      (xs.foldl (fun acc x ↦ insertDescending (fun a b ↦ cmp a b == .lt) x acc) acc).Pairwise
        fun a b ↦ (cmp b a).isLE := by
    induction xs generalizing acc with
    | nil => exact hacc
    | cons x rest ih => exact ih _ (pairwise_insertDescending hacc)
  exact List.pairwise_reverse.2 (hfold [] .nil)

end

/-! ## Comparing rows -/

namespace RowSort

theorem cellOrder_of_present (ascending : Bool) {a b : Cell} (ha : a.isAbsent = false)
    (hb : b.isAbsent = false) :
    cellOrder ascending a b = if ascending then a.order b else b.order a := by
  rw [cellOrder, ha, hb]

/-- The direction makes no difference to absent cells. -/
theorem cellOrder_of_absent (ascending : Bool) {a b : Cell}
    (h : a.isAbsent = true ∨ b.isAbsent = true) : cellOrder ascending a b = a.order b := by
  rw [cellOrder, Cell.order]
  rcases h with h | h
  · rw [h]
    cases b.isAbsent <;> rfl
  · rw [h]
    cases a.isAbsent <;> rfl

/-- Upward, cells are compared as they are. -/
theorem cellOrder_true (a b : Cell) : cellOrder true a b = a.order b := by
  by_cases h : a.isAbsent = true ∨ b.isAbsent = true
  · exact cellOrder_of_absent true h
  · rw [not_or, Bool.not_eq_true, Bool.not_eq_true] at h
    exact cellOrder_of_present true h.1 h.2

theorem cellOrder_swap (ascending : Bool) (a b : Cell) :
    cellOrder ascending a b = (cellOrder ascending b a).swap := by
  have hswap (x y : Cell) : x.order y = (y.order x).swap := Std.OrientedCmp.eq_swap
  cases ha : a.isAbsent
  · cases hb : b.isAbsent
    · rw [cellOrder_of_present _ ha hb, cellOrder_of_present _ hb ha]
      cases ascending
      · exact hswap b a
      · exact hswap a b
    · rw [cellOrder_of_absent _ (.inr hb), cellOrder_of_absent _ (.inl hb)]
      exact hswap a b
  · rw [cellOrder_of_absent _ (.inl ha), cellOrder_of_absent _ (.inr ha)]
    exact hswap a b

/-- Whichever way a column is sorted, cells that compare as equal do. -/
theorem cellOrder_eq (ascending : Bool) {a b : Cell} (h : a.order b = .eq) :
    cellOrder ascending a b = .eq := by
  by_cases habsent : a.isAbsent = true ∨ b.isAbsent = true
  · rw [cellOrder_of_absent ascending habsent, h]
  · rw [not_or, Bool.not_eq_true, Bool.not_eq_true] at habsent
    rw [cellOrder_of_present ascending habsent.1 habsent.2, h, Std.OrientedCmp.eq_symm h, ite_self]

/-- What is not after a present cell is present. -/
theorem present_of_cellOrder_isLE {ascending : Bool} {a b : Cell}
    (h : (cellOrder ascending a b).isLE) (hb : b.isAbsent = false) : a.isAbsent = false := by
  rw [cellOrder, hb] at h
  cases ha : a.isAbsent
  · rfl
  · rw [ha] at h
    cases h

theorem order_isLE_of_isAbsent (a : Cell) {b : Cell} (hb : b.isAbsent = true) :
    (a.order b).isLE := by
  rw [Cell.order, hb]
  cases a.isAbsent <;> rfl

variable {kind : Cell → Prop}

/-- Whichever way a column is sorted, its cells are compared transitively if they are upward. -/
theorem transitiveOn_cellOrder (h : TransitiveOn Cell.order kind) (ascending : Bool) :
    TransitiveOn (cellOrder ascending) kind := by
  intro a b c ha hb hc hab hbc
  cases hpc : c.isAbsent
  · have hpb := present_of_cellOrder_isLE hbc hpc
    have hpa := present_of_cellOrder_isLE hab hpb
    rw [cellOrder_of_present _ hpa hpb] at hab
    rw [cellOrder_of_present _ hpb hpc] at hbc
    rw [cellOrder_of_present _ hpa hpc]
    cases ascending
    · exact h c b a hc hb ha hbc hab
    · exact h a b c ha hb hc hab hbc
  · rw [cellOrder_of_absent _ (.inr hpc)]
    exact order_isLE_of_isAbsent a hpc

/-- The cells of the column, and those beyond its last, are of this kind. -/
def CellsOfKind (kind : Cell → Prop) (c : Column) : Prop := ∀ row, kind (c.cellAt row)

theorem cellsOfKind_or_absent {c : Column} (h : ∀ cell ∈ c.cells, kind cell) :
    CellsOfKind (fun cell ↦ kind cell ∨ cell = .absent) c := by
  intro row
  rw [Column.cellAt, List.getD_eq_getElem?_getD]
  cases hcell : c.cells[row]? with
  | none => exact .inr rfl
  | some cell => exact .inl (h cell (List.mem_of_getElem? hcell))

/-- **Rows are compared by an order** if the cells of every column are. -/
theorem transCmp_rowOrder {keys : List (Column × Bool)}
    (h : ∀ key ∈ keys, ∃ kind, TransitiveOn Cell.order kind ∧ CellsOfKind kind key.1) :
    Std.TransCmp (rowOrder keys) := by
  induction keys with
  | nil => exact { eq_swap := rfl, isLE_trans := fun _ _ ↦ rfl }
  | cons key rest ih =>
    obtain ⟨c, ascending⟩ := key
    obtain ⟨⟨kind, hkind, hc⟩, hrest⟩ := List.forall_mem_cons.1 h
    have := ih hrest
    have : Std.TransCmp fun a b ↦ cellOrder ascending (c.cellAt a) (c.cellAt b) :=
      { eq_swap := cellOrder_swap ..
        isLE_trans := transitiveOn_cellOrder hkind ascending _ _ _ (hc _) (hc _) (hc _) }
    exact inferInstanceAs (Std.TransCmp (compareLex
      (fun a b ↦ cellOrder ascending (c.cellAt a) (c.cellAt b)) (rowOrder rest)))

/-- **The rows of a sorted table ascend.** -/
theorem pairwise_rowsOf {s : RowSort} {t : Table} (hkind : TransitiveOn Cell.order kind)
    (h : ∀ name ∈ s.columns.keys, CellsOfKind kind (t.source name)) :
    (s.rowsOf t).Pairwise fun a b ↦ (rowOrder (s.keyColumns t) a b).isLE := by
  have : Std.TransCmp (rowOrder (s.keyColumns t)) := by
    refine transCmp_rowOrder fun key hkey ↦ ⟨kind, hkind, ?_⟩
    obtain ⟨entry, hentry, rfl⟩ := List.mem_map.1 hkey
    exact h entry.1 (List.mem_map_of_mem hentry)
  exact pairwise_sortStably _

end RowSort

end ChartFeed
