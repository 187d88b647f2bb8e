import Mathlib.Data.List.Forall2
import ChartFeed.Proofs.Table.Grouping

/-!
# Grouping twice

Rows may be grouped by some columns first, and the rows of each group by other columns then.  Or
they may be grouped once, by all of the columns.  This file compares the two.

* `rowsWith_append` — the rows of two keys, one after the other, are those of both keys together;
* `rowsOf?_inner_of_eq`, `rowsOf?_inner_of_forall_ne` — so looking up a key in an inner grouping
  finds the rows of the group of both keys, or nothing if there is no such group;
* `exists_parts`, `exists_whole`, `parts_eq` — the groups of both kinds go together, one to one.

The keys of a nested grouping are compared in two parts, those of the other in one.  A key that
stands for a group may differ from that of another row of the group, 1 from 1.0 for example; so all
of this is up to keys that compare as equal, and asks for a transitive order on the cells of each
column.
-/

set_option autoImplicit false

namespace ChartFeed.Grouping

/-! ## Keys in two parts -/

variable {outer inner : List Column} {rows : List Nat} {row : Nat} {k q g : Key}

theorem keyAt_append (outer inner : List Column) (row : Nat) :
    keyAt (outer ++ inner) row = keyAt outer row ++ keyAt inner row :=
  List.map_append

/-- A row has a key in all of the columns when it has one in each part of them. -/
theorem presentKeyAt_append_eq_some_iff : presentKeyAt (outer ++ inner) row = some g ↔
    ∃ k q, presentKeyAt outer row = some k ∧ presentKeyAt inner row = some q ∧ g = k ++ q := by
  simp only [presentKeyAt_eq_some_iff, keyAt_append]
  constructor
  · rintro ⟨rfl, hpresent⟩
    rw [List.any_append, Bool.or_eq_true, not_or] at hpresent
    exact ⟨_, _, ⟨rfl, hpresent.1⟩, ⟨rfl, hpresent.2⟩, rfl⟩
  · rintro ⟨k, q, ⟨rfl, hk⟩, ⟨rfl, hq⟩, rfl⟩
    refine ⟨rfl, ?_⟩
    rw [List.any_append, Bool.or_eq_true, not_or]
    exact ⟨hk, hq⟩

/-- Keys in two parts compare as equal when both parts do. -/
theorem order_append_eq_iff {k' q' : Key} (h : k.length = k'.length) :
    Key.order (k ++ q) (k' ++ q') = .eq ↔ Key.order k k' = .eq ∧ Key.order q q' = .eq := by
  rw [Key.order_append h, Ordering.then_eq_eq]

/-- **The rows of one key among those of another** are the rows of both. -/
theorem rowsWith_append (hk : k.length = outer.length) (q : Key) (rows : List Nat) :
    rowsWith (presentKeyAt (outer ++ inner)) (k ++ q) rows =
      rowsWith (presentKeyAt inner) q (rowsWith (presentKeyAt outer) k rows) := by
  rw [rowsWith, rowsWith, rowsWith, List.filter_filter]
  refine List.filter_congr fun row _ ↦ Bool.eq_iff_iff.2 ?_
  simp only [Bool.and_eq_true, Option.any_eq_true, beq_iff_eq]
  constructor
  · rintro ⟨g, hg, heq⟩
    obtain ⟨k', q', hk', hq', rfl⟩ := presentKeyAt_append_eq_some_iff.1 hg
    obtain ⟨hkeq, hqeq⟩ :=
      (order_append_eq_iff (hk.trans (length_of_presentKeyAt hk').symm)).1 heq
    exact ⟨⟨q', hq', hqeq⟩, k', hk', hkeq⟩
  · rintro ⟨⟨q', hq', hqeq⟩, k', hk', hkeq⟩
    exact ⟨k' ++ q', presentKeyAt_append_eq_some_iff.2 ⟨k', q', hk', hq', rfl⟩,
      (order_append_eq_iff (hk.trans (length_of_presentKeyAt hk').symm)).2 ⟨hkeq, hqeq⟩⟩

/-! ## Groups in groups -/

/-- Rows of columns in which a transitive order compares the cells. -/
structure Ordered (columns : List Column) (rows : List Nat) : Prop where
  rowsIn : RowsIn columns rows
  transitive : ∀ c ∈ columns, TransitiveOn Cell.order (· ∈ c.cells)

namespace Ordered

variable {columns : List Column}

theorem left (h : Ordered (outer ++ inner) rows) : Ordered outer rows :=
  ⟨fun row hrow c hc ↦ h.rowsIn row hrow c (List.mem_append_left _ hc),
    fun c hc ↦ h.transitive c (List.mem_append_left _ hc)⟩

theorem right (h : Ordered (outer ++ inner) rows) : Ordered inner rows :=
  ⟨fun row hrow c hc ↦ h.rowsIn row hrow c (List.mem_append_right _ hc),
    fun c hc ↦ h.transitive c (List.mem_append_right _ hc)⟩

theorem mono (h : Ordered columns rows) {rows' : List Nat} (hsub : rows' ⊆ rows) :
    Ordered columns rows' :=
  ⟨h.rowsIn.mono hsub, h.transitive⟩

theorem transitive_keys (h : Ordered columns rows) :
    TransitiveOn Key.order (Key.Within columns) :=
  Key.transitiveOn_within h.transitive

/-- The keys of the rows take their cells from the columns. -/
theorem within (h : Ordered columns rows) :
    ∀ row ∈ rows, ∀ k, presentKeyAt columns row = some k → Key.Within columns k := by
  intro row hrow k hk
  rw [← (presentKeyAt_eq_some_iff.1 hk).1, Key.Within, keyAt, List.forall₂_map_right_iff,
    List.forall₂_same]
  intro c hc
  have hlt : row < c.cells.length := h.rowsIn row hrow c hc
  rw [Column.cellAt, List.getD_eq_getElem?_getD, List.getElem?_eq_getElem hlt]
  exact List.getElem_mem hlt

theorem within_of_mem_keys (h : Ordered columns rows)
    (hk : k ∈ (ofRows (presentKeyAt columns) rows).keys) : Key.Within columns k := by
  obtain ⟨row, hrow, hkey⟩ := exists_of_mem_keys hk
  exact h.within row hrow k hkey

theorem ascending (h : Ordered columns rows) :
    Ascending (ofRows (presentKeyAt columns) rows).keys :=
  (sorted_ofRows h.transitive_keys h.within).ascending

/-- Every group has the rows with its key. -/
theorem ofRows_eq (h : Ordered columns rows) : ofRows (presentKeyAt columns) rows =
    (ofRows (presentKeyAt columns) rows).keys.map fun k ↦
      (k, rowsWith (presentKeyAt columns) k rows) :=
  ofRows_eq_map h.transitive_keys h.within

/-- A row without absent cells is in a group. -/
theorem exists_key (h : Ordered columns rows) (hrow : row ∈ rows)
    (hk : presentKeyAt columns row = some k) :
    ∃ k' ∈ (ofRows (presentKeyAt columns) rows).keys, Key.order k' k = .eq := by
  obtain ⟨k', hk', heq⟩ := exists_mem_keys h.transitive_keys h.within hrow hk
  exact ⟨k', hk', Std.OrientedCmp.eq_comm.1 heq⟩

/-- The key of a group is as long as that of a row. -/
theorem length_eq (h : Ordered columns rows)
    (hk : k ∈ (ofRows (presentKeyAt columns) rows).keys) (hq : presentKeyAt columns row = some q) :
    k.length = q.length :=
  (h.within_of_mem_keys hk).length_eq.symm.trans (length_of_presentKeyAt hq).symm

/-- Keys that compare as equal have the same rows. -/
theorem rowsWith_congr (h : Ordered columns rows) {k' : Key} (hk : Key.Within columns k)
    (hk' : Key.Within columns k') (heq : Key.order k k' = .eq) :
    rowsWith (presentKeyAt columns) k rows = rowsWith (presentKeyAt columns) k' rows := by
  refine List.filter_congr fun row hrow ↦ ?_
  cases hkey : presentKeyAt columns row with
  | none => rfl
  | some key =>
    rw [Option.any_some, Option.any_some,
      h.transitive_keys.congr_left hk hk' (h.within row hrow key hkey) heq]

end Ordered

/-- The rows of a nested grouping, one outer group after the other. -/
def outerRows (outer : List Column) (rows : List Nat) : List Nat :=
  (ofRows (presentKeyAt outer) rows).flatMap Prod.snd

theorem mem_outerRows_iff (h : Ordered outer rows) : row ∈ outerRows outer rows ↔
    row ∈ rows ∧ ∃ k, presentKeyAt outer row = some k := by
  rw [outerRows, h.ofRows_eq, List.mem_flatMap]
  constructor
  · rintro ⟨x, hx, hrow⟩
    obtain ⟨k, -, rfl⟩ := List.mem_map.1 hx
    obtain ⟨hmem, k', hk', -⟩ := mem_rowsWith_iff.1 hrow
    exact ⟨hmem, k', hk'⟩
  · rintro ⟨hmem, k', hk'⟩
    obtain ⟨k, hk, heq⟩ := h.exists_key hmem hk'
    exact ⟨_, List.mem_map_of_mem hk, mem_rowsWith_iff.2 ⟨hmem, k', hk', heq⟩⟩

section

variable (h : Ordered (outer ++ inner) rows)

include h

theorem ordered_outerRows : Ordered inner (outerRows outer rows) :=
  h.right.mono fun _ hmem ↦ ((mem_outerRows_iff h.left).1 hmem).1

/-- Looking up an inner key in the group of an outer one. -/
theorem rowsOf?_inner (hk : Key.Within outer k) (hq : Key.Within inner q) :
    rowsOf? q (ofRows (presentKeyAt inner) (rowsWith (presentKeyAt outer) k rows)) =
      if rowsWith (presentKeyAt (outer ++ inner)) (k ++ q) rows = [] then none
      else some (rowsWith (presentKeyAt (outer ++ inner)) (k ++ q) rows) := by
  have hgroup : Ordered inner (rowsWith (presentKeyAt outer) k rows) :=
    h.right.mono fun _ hmem ↦ (mem_rowsWith_iff.1 hmem).1
  rw [rowsOf?_ofRows hgroup.transitive_keys hgroup.within hq, rowsWith_append hk.length_eq.symm]

/-- **The rows of an inner group are those of the group of both keys.** -/
theorem rowsOf?_inner_of_eq (hk : Key.Within outer k) (hq : Key.Within inner q)
    (hg : g ∈ (ofRows (presentKeyAt (outer ++ inner)) rows).keys)
    (heq : Key.order (k ++ q) g = .eq) :
    rowsOf? q (ofRows (presentKeyAt inner) (rowsWith (presentKeyAt outer) k rows)) =
      some (rowsWith (presentKeyAt (outer ++ inner)) g rows) := by
  have hsame : rowsWith (presentKeyAt (outer ++ inner)) (k ++ q) rows =
      rowsWith (presentKeyAt (outer ++ inner)) g rows :=
    h.rowsWith_congr (hk.append hq) (h.within_of_mem_keys hg) heq
  have hne : rowsWith (presentKeyAt (outer ++ inner)) g rows ≠ [] := by
    obtain ⟨row, hrow, hkey⟩ := exists_of_mem_keys hg
    exact List.ne_nil_of_mem (mem_rowsWith_iff.2 ⟨hrow, g, hkey, Std.ReflCmp.compare_self⟩)
  rw [rowsOf?_inner h hk hq, hsame, if_neg hne]

/-- **There is no inner group** where there is no group of both keys. -/
theorem rowsOf?_inner_of_forall_ne (hk : Key.Within outer k) (hq : Key.Within inner q)
    (hne : ∀ g ∈ (ofRows (presentKeyAt (outer ++ inner)) rows).keys, Key.order (k ++ q) g ≠ .eq) :
    rowsOf? q (ofRows (presentKeyAt inner) (rowsWith (presentKeyAt outer) k rows)) = none := by
  rw [rowsOf?_inner h hk hq, if_pos]
  refine List.eq_nil_iff_forall_not_mem.2 fun row hmem ↦ ?_
  obtain ⟨hrow, key, hkey, heq⟩ := mem_rowsWith_iff.1 hmem
  obtain ⟨g, hg, hgeq⟩ := h.exists_key hrow hkey
  have hcongr := h.transitive_keys.congr_left (hk.append hq) (h.within row hrow key hkey)
    (h.within_of_mem_keys hg) heq
  exact hne g hg (hcongr.trans (Std.OrientedCmp.eq_comm.1 hgeq))

/-- **Every group is one in a group.** -/
theorem exists_parts (hg : g ∈ (ofRows (presentKeyAt (outer ++ inner)) rows).keys) :
    ∃ k ∈ (ofRows (presentKeyAt outer) rows).keys,
      ∃ q ∈ (ofRows (presentKeyAt inner) (outerRows outer rows)).keys,
        Key.order (k ++ q) g = .eq := by
  obtain ⟨row, hrow, hkey⟩ := exists_of_mem_keys hg
  obtain ⟨k', q', hk', hq', rfl⟩ := presentKeyAt_append_eq_some_iff.1 hkey
  have houter : row ∈ outerRows outer rows := (mem_outerRows_iff h.left).2 ⟨hrow, k', hk'⟩
  obtain ⟨k, hk, hkeq⟩ := h.left.exists_key hrow hk'
  obtain ⟨q, hq, hqeq⟩ := (ordered_outerRows h).exists_key houter hq'
  exact ⟨k, hk, q, hq, (order_append_eq_iff (h.left.length_eq hk hk')).2 ⟨hkeq, hqeq⟩⟩

/-- Every inner key is that of a group in a group. -/
theorem exists_whole (hq : q ∈ (ofRows (presentKeyAt inner) (outerRows outer rows)).keys) :
    ∃ k ∈ (ofRows (presentKeyAt outer) rows).keys,
      ∃ g ∈ (ofRows (presentKeyAt (outer ++ inner)) rows).keys, Key.order (k ++ q) g = .eq := by
  obtain ⟨row, hmem, hqrow⟩ := exists_of_mem_keys hq
  obtain ⟨hrow, k', hk'⟩ := (mem_outerRows_iff h.left).1 hmem
  have hkey : presentKeyAt (outer ++ inner) row = some (k' ++ q) :=
    presentKeyAt_append_eq_some_iff.2 ⟨k', q, hk', hqrow, rfl⟩
  obtain ⟨k, hk, hkeq⟩ := h.left.exists_key hrow hk'
  obtain ⟨g, hg, hgeq⟩ := h.exists_key hrow hkey
  have hwithin : Key.Within (outer ++ inner) (k ++ q) :=
    (h.left.within_of_mem_keys hk).append (h.right.within row hrow q hqrow)
  have heq : Key.order (k ++ q) (k' ++ q) = .eq :=
    (order_append_eq_iff (h.left.length_eq hk hk')).2 ⟨hkeq, Std.ReflCmp.compare_self⟩
  have hcongr := h.transitive_keys.congr_left hwithin (h.within row hrow _ hkey)
    (h.within_of_mem_keys hg) heq
  exact ⟨k, hk, g, hg, hcongr.trans (Std.OrientedCmp.eq_comm.1 hgeq)⟩

/-- The parts of a group's key are determined. -/
theorem parts_eq {k' q' : Key} (hk : Key.Within outer k) (hq : Key.Within inner q)
    (hk' : Key.Within outer k') (hq' : Key.Within inner q')
    (hg : g ∈ (ofRows (presentKeyAt (outer ++ inner)) rows).keys)
    (heq : Key.order (k ++ q) g = .eq) (heq' : Key.order (k' ++ q') g = .eq) :
    Key.order k k' = .eq ∧ Key.order q q' = .eq := by
  have hcongr := h.transitive_keys.congr_left (hk.append hq) (h.within_of_mem_keys hg)
    (hk'.append hq') heq
  exact (order_append_eq_iff (hk.length_eq.symm.trans hk'.length_eq)).1
    (hcongr.trans (Std.OrientedCmp.eq_comm.1 heq'))

end

/-- Ascending keys that compare as equal stand at one place. -/
theorem Ascending.eq_of_order_eq {keys : List Key} (h : Ascending keys) {i j : Nat}
    (hi : i < keys.length) (hj : j < keys.length) (heq : Key.order keys[i] keys[j] = .eq) :
    i = j := by
  have hless := List.pairwise_iff_getElem.1 h
  rcases Nat.lt_trichotomy i j with hij | hij | hij
  · rw [hless i j hi hj hij] at heq
    cases heq
  · exact hij
  · rw [Std.OrientedCmp.gt_of_lt (hless j i hj hi hij)] at heq
    cases heq

end ChartFeed.Grouping
