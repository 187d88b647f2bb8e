import Mathlib.Data.List.Nodup
import ChartFeed.Proofs.Table.NestedGrouping

/-!
# Groups are a partition

Rows are put into groups one by one, each by a search through the keys that are there.  Whatever
the order of cells does to that search, it ends in one place: the row goes to the group it ends at,
or it starts a group.  So no row is lost and none is there twice.

* `perm_flatMap_add`, `perm_flatMap_ofRows` — adding a row adds just this row to the rows of all
  groups together; so the groups have the rows with a key, and every one of them once.
* `sublist_of_mem_ofRows`, `exists_first_of_mem_ofRows` — a group keeps the order of the rows, and
  its key is that of the row that started it.
* `Partitions` — what follows for the rows of some columns; `partitions_ofColumns` proves it.

That the keys ascend is another matter, and does ask for a transitive order (`Ordered.ascending`).
-/

set_option autoImplicit false

namespace ChartFeed.Grouping

variable {key : Key} {row n : Nat} {g : Grouping} {keyOf : Nat → Option Key} {rows : List Nat}
  {columns : List Column}

/-! ## The rows of all groups -/

/-- **One more row** is one more row in the groups. -/
theorem perm_flatMap_add (key : Key) (row : Nat) (g : Grouping) :
    ((add key row g).flatMap Prod.snd).Perm (row :: g.flatMap Prod.snd) := by
  induction g with
  | nil => exact .refl _
  | cons x rest ih =>
    obtain ⟨k, members⟩ := x
    rw [add_cons]
    split
    · exact .refl _
    · show (members ++ [row] ++ rest.flatMap Prod.snd).Perm _
      rw [List.append_assoc]
      exact List.perm_middle
    · show (members ++ (add key row rest).flatMap Prod.snd).Perm _
      exact (ih.append_left members).trans List.perm_middle

/-- **The groups have the rows with a key**, each of them once. -/
theorem perm_flatMap_ofRows (keyOf : Nat → Option Key) (rows : List Nat) :
    ((ofRows keyOf rows).flatMap Prod.snd).Perm (rows.filter fun row ↦ (keyOf row).isSome) := by
  induction rows using List.reverseRecOn with
  | nil => exact .refl _
  | append_singleton rows row ih =>
    rw [ofRows_append_singleton, List.filter_append]
    cases hkey : keyOf row with
    | none => simpa [hkey] using ih
    | some key =>
      have hrow : [row].filter (fun row ↦ (keyOf row).isSome) = [row] := by simp [hkey]
      rw [hrow]
      exact ((perm_flatMap_add ..).trans (ih.cons row)).trans (List.perm_append_singleton ..).symm

/-- What is in lists that have nothing twice and nothing in common is at one place. -/
theorem existsUnique_of_nodup (hnodup : (g.flatMap Prod.snd).Nodup)
    (hrow : row ∈ g.flatMap Prod.snd) : ∃! i : Fin g.length, row ∈ g[i].2 := by
  obtain ⟨x, hx, hmem⟩ := List.mem_flatMap.1 hrow
  obtain ⟨i, hi, rfl⟩ := List.getElem_of_mem hx
  have hdisjoint := List.pairwise_iff_getElem.1 (List.nodup_flatMap.1 hnodup).2
  refine ⟨⟨i, hi⟩, hmem, ?_⟩
  rintro ⟨j, hj⟩ hmem'
  refine Fin.ext ?_
  show j = i
  rcases Nat.lt_trichotomy j i with hji | hji | hij
  · exact absurd hmem (hdisjoint j i hj hi hji hmem')
  · exact hji
  · exact absurd hmem' (hdisjoint i j hi hj hij hmem)

/-! ## The rows of one group -/

/-- A group has its rows in the order of the rows. -/
theorem sublist_of_mem_ofRows : ∀ x ∈ ofRows keyOf rows, x.2.Sublist rows := by
  induction rows using List.reverseRecOn with
  | nil => exact fun x hx ↦ nomatch hx
  | append_singleton rows row ih =>
    have hearlier : ∀ x ∈ ofRows keyOf rows, x.2.Sublist (rows ++ [row]) :=
      fun x hx ↦ (ih x hx).trans (List.sublist_append_left ..)
    rw [ofRows_append_singleton]
    cases hkey : keyOf row with
    | none => exact hearlier
    | some key =>
      -- a group that gets the row had earlier rows only, and so the row comes last in it
      exact forall_mem_add (Q := fun x ↦ x.2.Sublist (rows ++ [row])) hearlier
        (List.sublist_append_right ..) fun x hx _ _ ↦ (ih x hx).append (.refl [row])

/-- The key of a group is that of its first row. -/
theorem exists_first_of_mem_ofRows :
    ∀ x ∈ ofRows keyOf rows, ∃ first rest, x.2 = first :: rest ∧ keyOf first = some x.1 := by
  refine forall_mem_ofRows
    (Q := fun x ↦ ∃ first rest, x.2 = first :: rest ∧ keyOf first = some x.1)
    (fun row _ key hkey ↦ ⟨row, [], rfl, hkey⟩) ?_
  rintro row - key - x - ⟨first, rest, hx, hfirst⟩
  exact ⟨first, rest ++ [row], by rw [hx, List.cons_append], hfirst⟩

/-! ## The rows of some columns -/

/-- The groups hold the rows below a bound that have no absent cell in the columns. -/
structure Partitions (columns : List Column) (n : Nat) (g : Grouping) : Prop where
  /-- Each of these rows is in one group, -/
  existsUnique : ∀ row < n, (∀ c ∈ columns, (c.cellAt row).isAbsent = false) →
    ∃! i : Fin g.length, row ∈ g[i].2
  /-- and no other row is in any. -/
  of_mem : ∀ x ∈ g, ∀ row ∈ x.2, row < n ∧ ∀ c ∈ columns, (c.cellAt row).isAbsent = false
  /-- The rows of a group ascend. -/
  ascending : ∀ x ∈ g, x.2.Pairwise (· < ·)
  /-- The key of a group is that of its first row, -/
  first : ∀ x ∈ g, ∃ row rest, x.2 = row :: rest ∧ x.1 = columns.map fun c ↦ c.cellAt row
  /-- and the cells of the other rows compare as equal to those of the key. -/
  order_eq : ∀ x ∈ g, ∀ row ∈ x.2,
    List.Forall₂ (fun c cell ↦ (c.cellAt row).order cell = .eq) columns x.1

theorem isSome_presentKeyAt_iff : (presentKeyAt columns row).isSome = true ↔
    ∀ c ∈ columns, (c.cellAt row).isAbsent = false := by
  rw [Option.isSome_iff_exists]
  simp [presentKeyAt_eq_some_iff, keyAt]

/-- A row is among those of a group when it is there and has no absent cell. -/
theorem mem_flatMap_iff : row ∈ (ofRows (presentKeyAt columns) (List.range n)).flatMap Prod.snd ↔
    row < n ∧ ∀ c ∈ columns, (c.cellAt row).isAbsent = false := by
  rw [(perm_flatMap_ofRows ..).mem_iff, List.mem_filter, List.mem_range, isSome_presentKeyAt_iff]

theorem partitions_ofRows (columns : List Column) (n : Nat) :
    Partitions columns n (ofRows (presentKeyAt columns) (List.range n)) where
  existsUnique row hlt hpresent := by
    have hnodup : ((ofRows (presentKeyAt columns) (List.range n)).flatMap Prod.snd).Nodup :=
      (perm_flatMap_ofRows ..).nodup_iff.2 (List.nodup_range.filter _)
    exact existsUnique_of_nodup hnodup (mem_flatMap_iff.2 ⟨hlt, hpresent⟩)
  of_mem x hx row hrow := mem_flatMap_iff.1 (List.mem_flatMap.2 ⟨x, hx, hrow⟩)
  ascending x hx := List.pairwise_lt_range.sublist (sublist_of_mem_ofRows x hx)
  first x hx := by
    obtain ⟨row, rest, hrows, hkey⟩ := exists_first_of_mem_ofRows x hx
    exact ⟨row, rest, hrows, (presentKeyAt_eq_some_iff.1 hkey).1.symm⟩
  order_eq x hx row hrow := by
    obtain ⟨key, hkey, heq⟩ := order_eq_of_mem hx hrow
    rw [← (presentKeyAt_eq_some_iff.1 hkey).1, Key.order_eq_eq_iff, keyAt,
      List.forall₂_map_left_iff] at heq
    exact heq

section

variable (hne : columns ≠ []) (hlength : ∀ c ∈ columns, c.cells.length = n)

include hne hlength

theorem rowTotal_of_length : rowTotal columns = n := by
  obtain ⟨c, rest, rfl⟩ := List.exists_cons_of_ne_nil hne
  exact hlength c (List.mem_cons_self ..)

/-- **Grouping is a partition** of the rows without an absent cell. -/
theorem partitions_ofColumns : Partitions columns n (ofColumns columns) := by
  rw [ofColumns_eq, rowTotal_of_length hne hlength]
  exact partitions_ofRows columns n

/-- **The keys ascend** when the order on the cells of each column is transitive. -/
theorem ascending_keys_ofColumns
    (htransitive : ∀ c ∈ columns, TransitiveOn Cell.order (· ∈ c.cells)) :
    Ascending (ofColumns columns).keys := by
  have hrows : RowsIn columns (List.range n) :=
    fun row hrow c hc ↦ hlength c hc ▸ List.mem_range.1 hrow
  rw [ofColumns_eq, rowTotal_of_length hne hlength]
  exact Ordered.ascending ⟨hrows, htransitive⟩

end

end ChartFeed.Grouping
