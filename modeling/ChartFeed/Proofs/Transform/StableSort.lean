import ChartFeed.Proofs.Table.Transitivity
import ChartFeed.Proofs.Transform.Bounds
import ChartFeed.Proofs.Transform.Sorting

/-!
# Sorting is stable

Insertion leaves rows that the comparison does not tell apart as they were.  The order of a sorted
table is therefore that of a comparison that always decides: by the columns in turn, and then by the
place in the input.

* `Cell.Before`, `RowSort.Precedes` — this order, said without a comparison.  Absent cells come last
  upward and downward, since only present ones are turned around;
* `sortStably_congr` — a sort asks only how an element compares with earlier ones, so comparisons
  that agree there sort alike;
* `RowSort.pairwise_precedes` — with the place as the last thing to compare, the order of rows is
  strict, and sorted rows are in it;
* `RowSort.apply_stably` — a sort rearranges rows, the same way in every column, into this order,
  and there is only one way to do that.
-/

set_option autoImplicit false

namespace ChartFeed

/-! ## Comparisons that agree -/

section

variable {α : Type} {before before' : α → α → Bool} {xs : List α}

theorem insertDescending_congr {x : α} (h : ∀ y ∈ xs, before x y = before' x y) :
    insertDescending before x xs = insertDescending before' x xs := by
  induction xs with
  | nil => rfl
  | cons y rest ih =>
    obtain ⟨hy, hrest⟩ := List.forall_mem_cons.1 h
    rw [insertDescending, insertDescending, hy, ih hrest]

/-- **A sort compares elements with earlier ones only.** -/
theorem sortStably_congr (h : xs.Pairwise fun y x ↦ before x y = before' x y) :
    sortStably before xs = sortStably before' xs := by
  have hfold (acc : List α) (hacc : ∀ y ∈ acc, ∀ x ∈ xs, before x y = before' x y) :
      xs.foldl (fun acc x ↦ insertDescending before x acc) acc =
        xs.foldl (fun acc x ↦ insertDescending before' x acc) acc := by
    induction xs generalizing acc with
    | nil => rfl
    | cons x rest ih =>
      obtain ⟨hx, hrest⟩ := List.pairwise_cons.1 h
      rw [List.foldl_cons, List.foldl_cons,
        insertDescending_congr fun y hy ↦ hacc y hy x (List.mem_cons_self ..)]
      refine ih hrest _ fun y hy z hz ↦ ?_
      rcases mem_insertDescending.1 hy with rfl | hy
      · exact hx z hz
      · exact hacc y hy z (List.mem_cons_of_mem _ hz)
  rw [sortStably, sortStably, hfold [] nofun]

end

/-! ## The order of cells -/

namespace Cell

/-- One cell has to come before another: a present one before an absent one, and of present ones
the smaller or, downward, the greater. -/
def Before (ascending : Bool) (a b : Cell) : Prop :=
  a.isAbsent = false ∧ (b.isAbsent = true ∨ if ascending then a.order b = .lt else b.order a = .lt)

instance (ascending : Bool) (a b : Cell) : Decidable (Before ascending a b) :=
  inferInstanceAs (Decidable (_ ∧ (_ ∨ ite ..)))

end Cell

namespace RowSort

theorem cellOrder_eq_lt_iff {ascending : Bool} {a b : Cell} :
    cellOrder ascending a b = .lt ↔ a.Before ascending b := by
  rw [Cell.Before]
  cases ha : a.isAbsent <;> cases hb : b.isAbsent
  · rw [cellOrder_of_present ascending ha hb]
    cases ascending <;> simp
  · simp [cellOrder, ha, hb]
  · simp [cellOrder, ha, hb]
  · simp [cellOrder, ha, hb]

theorem cellOrder_eq_eq_iff {ascending : Bool} {a b : Cell} :
    cellOrder ascending a b = .eq ↔ a.order b = .eq := by
  refine ⟨fun h ↦ ?_, cellOrder_eq ascending⟩
  by_cases habsent : a.isAbsent = true ∨ b.isAbsent = true
  · rwa [cellOrder_of_absent ascending habsent] at h
  · rw [not_or, Bool.not_eq_true, Bool.not_eq_true] at habsent
    rw [cellOrder_of_present ascending habsent.1 habsent.2] at h
    cases ascending
    · exact Std.OrientedCmp.eq_symm h
    · exact h

/-! ## The order of rows -/

/-- One row has to come before another: by the columns in turn, and if these do not tell them apart
by their places. -/
def Precedes : List (Column × Bool) → Nat → Nat → Prop
  | [], a, b => a < b
  | (c, ascending) :: rest, a, b => (c.cellAt a).Before ascending (c.cellAt b) ∨
    (c.cellAt a).order (c.cellAt b) = .eq ∧ Precedes rest a b

instance decidablePrecedes : (keys : List (Column × Bool)) → (a b : Nat) →
    Decidable (Precedes keys a b)
  | [], a, b => inferInstanceAs (Decidable (a < b))
  | (_, _) :: rest, a, b =>
    have := decidablePrecedes rest a b
    inferInstanceAs (Decidable (_ ∨ _ ∧ Precedes rest a b))

/-- The order of rows, and of those that it does not tell apart the order of their places. -/
def placedOrder (keys : List (Column × Bool)) : Nat → Nat → Ordering :=
  compareLex (rowOrder keys) compare

theorem placedOrder_eq_lt_iff {keys : List (Column × Bool)} {a b : Nat} :
    placedOrder keys a b = .lt ↔ Precedes keys a b := by
  induction keys with
  | nil => exact Nat.compare_eq_lt
  | cons key rest ih =>
    obtain ⟨c, ascending⟩ := key
    have hstep : placedOrder ((c, ascending) :: rest) a b =
        (cellOrder ascending (c.cellAt a) (c.cellAt b)).then (placedOrder rest a b) :=
      Ordering.then_assoc ..
    rw [hstep, Ordering.then_eq_lt, cellOrder_eq_lt_iff, cellOrder_eq_eq_iff, ih, Precedes]

/-- Sorting by the places as well makes no difference. -/
theorem sortedRows_eq (keys : List (Column × Bool)) (count : Nat) :
    sortedRows keys count =
      sortStably (fun a b ↦ placedOrder keys a b == .lt) (List.range count) := by
  refine sortStably_congr (List.pairwise_lt_range.imp fun {b a} hlt ↦ ?_)
  have hplaces : compare a b = .gt := Nat.compare_eq_gt.2 hlt
  show (rowOrder keys a b == .lt) = ((rowOrder keys a b).then (compare a b) == .lt)
  rw [hplaces]
  cases rowOrder keys a b <;> rfl

section

variable {s : RowSort} {t : Table}
  (htransitive : ∀ name ∈ s.columns.keys, TransitiveOn Cell.order (· ∈ (t.source name).cells))

include htransitive

/-- Rows are compared by an order when the cells of each column to sort by are. -/
theorem transCmp_keyColumns : Std.TransCmp (rowOrder (s.keyColumns t)) := by
  refine transCmp_rowOrder fun key hkey ↦ ?_
  obtain ⟨entry, hentry, rfl⟩ := List.mem_map.1 hkey
  have hcells := htransitive entry.1 (List.mem_map_of_mem hentry)
  exact ⟨_, Cell.transitiveOn_or_absent hcells, cellsOfKind_or_absent fun _ hcell ↦ hcell⟩

theorem transCmp_placedOrder : Std.TransCmp (placedOrder (s.keyColumns t)) :=
  have := transCmp_keyColumns htransitive
  inferInstanceAs (Std.TransCmp (compareLex (rowOrder (s.keyColumns t)) compare))

/-- **Sorted rows are in order**, and where the columns do not tell them apart in that of the
input. -/
theorem pairwise_precedes : (s.rowsOf t).Pairwise (Precedes (s.keyColumns t)) := by
  have := transCmp_placedOrder htransitive
  have hsorted : (s.rowsOf t).Pairwise fun a b ↦ (placedOrder (s.keyColumns t) a b).isLE := by
    rw [rowsOf, sortedRows_eq]
    exact pairwise_sortStably _
  have hnodup : (s.rowsOf t).Nodup := (s.perm_rowsOf t).nodup_iff.2 List.nodup_range
  refine (hsorted.and hnodup).imp fun {a b} hab ↦ ?_
  obtain ⟨hle, hne⟩ := hab
  rw [← placedOrder_eq_lt_iff]
  rcases Ordering.isLE_iff_eq_lt_or_eq_eq.1 hle with hlt | heq
  · exact hlt
  · exact absurd (Nat.compare_eq_eq.1 (Ordering.then_eq_eq.1 heq).2) hne

/-- **There is one such order** of the rows. -/
theorem eq_rowsOf {rows : List Nat} (hperm : rows.Perm (List.range t.rowCount))
    (hrows : rows.Pairwise (Precedes (s.keyColumns t))) : rows = s.rowsOf t := by
  have := transCmp_placedOrder htransitive
  refine (hperm.trans (s.perm_rowsOf t).symm).eq_of_pairwise (fun a b _ _ hab hba ↦ ?_) hrows
    (pairwise_precedes htransitive)
  rw [← placedOrder_eq_lt_iff] at hab hba
  rw [Std.OrientedCmp.gt_of_lt hab] at hba
  cases hba

end

/-! ## Sorted tables -/

/-- One table has the rows of another, in an order that is the same for every column; the columns
and their names stay. -/
structure Rearranges (t out : Table) (rows : List Nat) : Prop where
  /-- Every row is taken once, -/
  perm : rows.Perm (List.range t.rowCount)
  /-- and each column has the cells of these rows. -/
  columns : List.Forall₂ (fun c c' : Column ↦
    c'.name = c.name ∧ c'.cells.map some = rows.map fun row ↦ c.cells[row]?) t.columns out.columns

theorem rearranges_takeRows {t : Table} (ht : t.Rectangular) {rows : List Nat}
    (hperm : rows.Perm (List.range t.rowCount)) : Rearranges t (t.takeRows rows) rows := by
  refine ⟨hperm, ?_⟩
  rw [Table.takeRows, List.forall₂_map_right_iff, List.forall₂_same]
  refine fun c hc ↦ ⟨rfl, ?_⟩
  rw [List.map_map]
  refine List.map_congr_left fun row hrow ↦ ?_
  have hlt : row < c.cells.length := by
    rw [ht c hc]
    exact List.mem_range.1 (hperm.subset hrow)
  exact (Column.strictCell_eq hlt).symm

/-- **Sorting is stable, by several columns at once.**  When the columns to sort by are there and
the cells of each are compared transitively, a rectangular table is rearranged, the same way in
every column: each two rows are in the order of the first column that tells them apart, upward or
downward and with absent cells last either way, and in that of the input if none does.  No other
arrangement of the rows is like that. -/
theorem apply_stably {s : RowSort} {t : Table} (ht : t.Rectangular)
    (h : t.HasColumns s.columns.keys)
    (htransitive : ∀ name ∈ s.columns.keys,
      TransitiveOn Cell.order (· ∈ (t.source name).cells)) :
    ∃ rows out, s.apply t = .ok out ∧ Rearranges t out rows ∧
      rows.Pairwise (Precedes (s.keyColumns t)) ∧
        ∀ rows' : List Nat, rows'.Perm (List.range t.rowCount) →
          rows'.Pairwise (Precedes (s.keyColumns t)) → rows' = rows := by
  refine ⟨s.rowsOf t, s.result t, ?_, rearranges_takeRows ht (s.perm_rowsOf t),
    pairwise_precedes htransitive, fun rows' ↦ eq_rowsOf htransitive⟩
  rw [apply_eq, Table.requireAll_eq_ok h]
  rfl

/-- Goods with their prices, of which one has none. -/
def pricedGoods : Table := ⟨[
  ⟨.plain "price", [.absent, .int 2, .float 1.0, .float 2.0, .int 1]⟩,
  ⟨.plain "shop", [.text "b", .text "b", .text "a", .text "b", .absent]⟩,
  ⟨.plain "goods", [.text "p", .text "q", .text "r", .text "s", .text "t"]⟩]⟩

/-- The most expensive goods first, and goods of one price by shop. -/
def dearestFirst : RowSort := ⟨⟨[("price", false), ("shop", true)], by decide⟩⟩

/-- Downward, too, the goods without a price come last; and the two goods of one price and shop stay
as they were. -/
theorem dearestFirst_apply_pricedGoods :
    ∃ out, dearestFirst.apply pricedGoods = .ok out ∧
      Rearranges pricedGoods out [1, 3, 2, 4, 0] := by
  obtain ⟨rows, out, hout, hrearranges, -, hunique⟩ :=
    apply_stably (s := dearestFirst) (t := pricedGoods) (by decide) (by decide) (by decide +kernel)
  have hrows := hunique [1, 3, 2, 4, 0] (by decide) (by decide +kernel)
  exact ⟨out, hout, hrows ▸ hrearranges⟩

end RowSort

end ChartFeed
