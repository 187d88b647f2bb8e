import Mathlib
import ChartFeed.Chart.Source
import ChartFeed.Proofs.Table.Columns

/-!
# Pages of a table

The rows that a query asks for are a page of the table: those from its offset on, as many as its
limit says, or all of them when the limit is zero.

* `Table.OnPage` — which rows these are; `Table.limitRows_eq` says that the page has them and no
  others, whether the table is cut or stays whole;
* `Table.pageRows_add` — a page and the one that begins where it ends are one page of both sizes;
* `Table.rows_pages` — so pages of any sizes put the whole table together;
* `Table.slice_eq_sliceWithin` — the end of a page may be computed with numbers that stop at a
  greatest one, as long as no table has more rows;
* `Table.limitRows_paginates` — all of this about the rows of a query.
-/

set_option autoImplicit false

namespace ChartFeed.Table

/-! ## The rows on a page -/

/-- The row is not before the offset, and before the end of the page if it has one. -/
def OnPage (offset limit row : Nat) : Prop := offset ≤ row ∧ (limit = 0 ∨ row < offset + limit)

instance (offset limit row : Nat) : Decidable (OnPage offset limit row) :=
  inferInstanceAs (Decidable (_ ∧ _))

/-- The numbers of the rows on a page, of as many as there are. -/
def pageRows (count offset limit : Nat) : List Nat :=
  (List.range count).filter fun row ↦ OnPage offset limit row

theorem mem_pageRows {count offset limit row : Nat} :
    row ∈ pageRows count offset limit ↔ row < count ∧ OnPage offset limit row := by
  simp [pageRows]

/-- Numbers that ascend are those on the page if they are the same. -/
theorem pageRows_eq {count offset limit : Nat} {rows : List Nat} (hrows : rows.Pairwise (· < ·))
    (h : ∀ row, row ∈ rows ↔ row < count ∧ OnPage offset limit row) :
    pageRows count offset limit = rows := by
  have hpage : (pageRows count offset limit).Pairwise (· < ·) := List.pairwise_lt_range.filter _
  exact eq_of_pairwise_of_mem_iff (fun _ _ ↦ Nat.lt_asymm) hpage hrows fun row ↦
    mem_pageRows.trans (h row).symm

/-- **Two pages are one** when the second begins where the first ends. -/
theorem pageRows_add {a b : Nat} (ha : 0 < a) (hb : 0 < b) (count offset : Nat) :
    pageRows count offset (a + b) = pageRows count offset a ++ pageRows count (offset + a) b := by
  have hascending (offset limit : Nat) : (pageRows count offset limit).Pairwise (· < ·) :=
    List.pairwise_lt_range.filter _
  refine pageRows_eq (List.pairwise_append.2 ⟨hascending .., hascending .., ?_⟩) fun row ↦ ?_
  · intro x hx y hy
    have hxe := (mem_pageRows.1 hx).2
    have hys := (mem_pageRows.1 hy).2
    simp only [OnPage] at hxe hys
    omega
  · simp only [List.mem_append, mem_pageRows, OnPage]
    omega

/-- A page that begins with the table and is not smaller is all of it. -/
theorem pageRows_zero {count limit : Nat} (h : limit = 0 ∨ count ≤ limit) :
    pageRows count 0 limit = List.range count := by
  refine pageRows_eq List.pairwise_lt_range fun row ↦ ?_
  simp only [List.mem_range, OnPage]
  omega

/-! ## The rows of a table -/

variable {t : Table}

/-- A row with the cells of all columns. -/
def row (t : Table) (n : Nat) : List Cell := t.columns.map fun c ↦ c.cellAt n

/-- The rows in their order. -/
def rows (t : Table) : List (List Cell) := (List.range t.rowCount).map t.row

theorem rows_takeRows {ns : List Nat} (h : t.columns ≠ []) :
    (t.takeRows ns).rows = ns.map t.row := by
  have hrow {n : Nat} (hn : n < ns.length) : (t.takeRows ns).row n = t.row ns[n] := by
    rw [row, takeRows, List.map_map, row]
    refine List.map_congr_left fun c _ ↦ ?_
    rw [Function.comp, Column.cellAt, List.getD_eq_getElem _ _ (by simpa using hn),
      List.getElem_map]
  rw [rows, rowCount_takeRows h]
  exact List.ext_getElem (by simp) fun n hn _ ↦ by simp [hrow (by simpa using hn)]

/-! ## Slices -/

/-- **A slice has the rows on the page**, and no others. -/
theorem slice_eq (t : Table) (offset limit : Nat) :
    t.slice offset limit = t.takeRows (pageRows t.rowCount offset limit) := by
  refine congrArg t.takeRows (pageRows_eq List.pairwise_lt_range.drop fun row ↦ ?_).symm
  rw [List.range_eq_range', List.drop_range', List.mem_range'_1, OnPage]
  split <;> omega

/-- A slice whose end is computed with numbers that stop at a greatest one. -/
def sliceWithin (greatest : Nat) (t : Table) (offset limit : Nat) : Table :=
  let stop := if limit = 0 then t.rowCount else min (min (offset + limit) greatest) t.rowCount
  t.takeRows ((List.range stop).drop (min offset stop))

/-- **A sum that is too great is cut in vain**, for the table has fewer rows. -/
theorem slice_eq_sliceWithin {greatest : Nat} (h : t.rowCount ≤ greatest) (offset limit : Nat) :
    t.slice offset limit = t.sliceWithin greatest offset limit := by
  have hstop : min (min (offset + limit) greatest) t.rowCount =
      min (offset + limit) t.rowCount := by
    rw [Nat.min_assoc, Nat.min_eq_right h]
  rw [slice, sliceWithin, hstop]

/-! ## The rows of a query -/

/-- **The rows that a query asks for** are those on its page. -/
theorem limitRows_eq (ht : t.Rectangular) (offset limit : Nat) :
    limitRows t offset limit = t.takeRows (pageRows t.rowCount offset limit) := by
  rw [limitRows]
  split
  · next hwhole =>
    obtain ⟨rfl, hlimit⟩ := hwhole
    rw [pageRows_zero hlimit, ht.takeRows_range]
  · exact t.slice_eq offset limit

theorem rows_limitRows (ht : t.Rectangular) (offset limit : Nat) :
    (limitRows t offset limit).rows = (pageRows t.rowCount offset limit).map t.row := by
  rw [limitRows_eq ht]
  by_cases hcolumns : t.columns = []
  · -- without columns there are no rows
    have hcount : t.rowCount = 0 := by rw [rowCount, hcolumns]
    simp [rows, takeRows, rowCount, hcolumns, pageRows]
  · exact rows_takeRows hcolumns

/-- The rows of pages of these sizes, each of which begins where the one before ends. -/
def pages (t : Table) : Nat → List Nat → List (List Cell)
  | _, [] => []
  | offset, size :: rest => (limitRows t offset size).rows ++ t.pages (offset + size) rest

theorem pages_eq (ht : t.Rectangular) {sizes : List Nat} (hsizes : ∀ size ∈ sizes, 0 < size)
    (hne : sizes ≠ []) (offset : Nat) : t.pages offset sizes =
      (limitRows t offset sizes.sum).rows := by
  induction sizes generalizing offset with
  | nil => exact absurd rfl hne
  | cons size rest ih =>
    obtain ⟨hsize, hrest⟩ := List.forall_mem_cons.1 hsizes
    rw [pages]
    cases rest with
    | nil => simp [pages]
    | cons next rest =>
      have hsum : 0 < (next :: rest).sum :=
        Nat.lt_of_lt_of_le (hrest next List.mem_cons_self) (by simp)
      rw [ih hrest (by simp), List.sum_cons (a := size), rows_limitRows ht, rows_limitRows ht,
        rows_limitRows ht, pageRows_add hsize hsum, List.map_append]

/-- **Pages of any sizes put the table together**, when there are enough. -/
theorem rows_pages (ht : t.Rectangular) {sizes : List Nat} (hsizes : ∀ size ∈ sizes, 0 < size)
    (hsum : t.rowCount ≤ sizes.sum) : t.pages 0 sizes = t.rows := by
  by_cases hnil : sizes = []
  · subst hnil
    rw [pages, rows, Nat.le_zero.1 hsum]
    rfl
  · rw [pages_eq ht hsizes hnil, rows_limitRows ht, pageRows_zero (.inr hsum), rows]

/-- **Pages neither lose nor repeat rows.**  A page has all columns and the rows from its offset to
its end; what two consecutive pages have is on the page of both sizes, and pages of any sizes have
all rows when there are enough of them.  No sum is too great for this. -/
theorem limitRows_paginates (ht : t.Rectangular) :
    (∀ offset limit, (limitRows t offset limit).columns = t.columns.map fun c ↦
        ⟨c.name, ((List.range t.rowCount).filter fun row ↦ OnPage offset limit row).map c.cellAt⟩) ∧
      (∀ offset a b, 0 < a → 0 < b →
        (limitRows t offset a).rows ++ (limitRows t (offset + a) b).rows =
          (limitRows t offset (a + b)).rows) ∧
      (∀ sizes : List Nat, (∀ size ∈ sizes, 0 < size) → t.rowCount ≤ sizes.sum →
        t.pages 0 sizes = t.rows) ∧
      ∀ greatest offset limit, t.rowCount ≤ greatest →
        t.slice offset limit = t.sliceWithin greatest offset limit := by
  refine ⟨fun offset limit ↦ ?_, fun offset a b ha hb ↦ ?_, fun sizes ↦ rows_pages ht,
    fun greatest offset limit h ↦ slice_eq_sliceWithin h offset limit⟩
  · rw [limitRows_eq ht]
    rfl
  · rw [rows_limitRows ht, rows_limitRows ht, rows_limitRows ht, pageRows_add ha hb,
      List.map_append]

/-- Four sales, one of them without a price. -/
def fourSales : Table := ⟨[
  ⟨.plain "shop", [.text "north", .text "north", .text "south", .text "west"]⟩,
  ⟨⟨["price", "net"]⟩, [.int 3, .absent, .int 5, .int 7]⟩]⟩

theorem fourSales_limitRows_paginates :
    fourSales.Rectangular ∧
      (limitRows fourSales 1 2).columns = [
        ⟨.plain "shop", [.text "north", .text "south"]⟩,
        ⟨⟨["price", "net"]⟩, [.absent, .int 5]⟩] ∧
      ((0 < 2 ∧ 0 < uint64Max - 3) ∧
        (limitRows fourSales 1 2).rows ++ (limitRows fourSales 3 (uint64Max - 3)).rows =
          (limitRows fourSales 1 (2 + (uint64Max - 3))).rows) ∧
      ((∀ size ∈ [1, 2, 3], 0 < size) ∧ fourSales.rowCount ≤ [1, 2, 3].sum ∧
        fourSales.pages 0 [1, 2, 3] = fourSales.rows) ∧
      fourSales.rowCount ≤ uint64Max ∧
      fourSales.slice 3 uint64Max = fourSales.sliceWithin uint64Max 3 uint64Max := by
  have ht : fourSales.Rectangular := by decide
  have hsizes : ∀ size ∈ [1, 2, 3], 0 < size := by decide
  have hsum : fourSales.rowCount ≤ [1, 2, 3].sum := by decide
  have hcount : fourSales.rowCount ≤ uint64Max := by decide
  obtain ⟨hcolumns, hadd, hpages, hslice⟩ := limitRows_paginates ht
  exact ⟨ht, (hcolumns 1 2).trans (by decide),
    ⟨⟨by decide, by decide⟩, hadd 1 2 (uint64Max - 3) (by decide) (by decide)⟩,
    ⟨hsizes, hsum, hpages [1, 2, 3] hsizes hsum⟩, hcount, hslice uint64Max 3 uint64Max hcount⟩

end ChartFeed.Table
