import ChartFeed.Proofs.Table.Grouping
import ChartFeed.Proofs.Transform.Result

/-!
# Rows stay within bounds

The columns of a table are separate lists, and looking up a row that a column does not have gives
an absent cell (`Column.cellAt`).  So a transform that looked too far would not fail; it would
quietly compute with cells that nobody wrote.  This file shows that none does.

The transforms are defined a second time, with lookups that have no value where there is no row:
`Column.strictCell`, `strictSlice`.  One lookup that misses leaves the whole transform without a
value.  For each transform a lemma `strictResult_eq` says that on a rectangular table with the
columns that are needed the strict transform has a value, and that it is that of the transform
itself.

The strict definitions look up all that the others do, and where a transform may stop early — at the
first absent cell of a key, at the first column that tells two rows apart — they go on, so that the
statement does not depend on what the cells are.
-/

set_option autoImplicit false

namespace ChartFeed

variable {α β : Type}

/-! ## Runs in which nothing is missing -/

theorem mapM_eq_some {f : α → Option β} {g : α → β} {xs : List α}
    (h : ∀ x ∈ xs, f x = some (g x)) : xs.mapM f = some (xs.map g) := by
  induction xs with
  | nil => rfl
  | cons x rest ih =>
    obtain ⟨hx, hrest⟩ := List.forall_mem_cons.1 h
    rw [List.mapM_cons, hx, ih hrest]
    rfl

/-- Along the way an invariant may be used. -/
theorem foldlM_eq_some {f : β → α → Option β} {g : β → α → β} {xs : List α} {P : β → Prop}
    (h : ∀ b, P b → ∀ x ∈ xs, f b x = some (g b x) ∧ P (g b x)) {b : β} (hb : P b) :
    xs.foldlM f b = some (xs.foldl g b) := by
  induction xs generalizing b with
  | nil => rfl
  | cons x rest ih =>
    obtain ⟨hx, hnext⟩ := h b hb x (List.mem_cons_self ..)
    rw [List.foldlM_cons, hx, List.foldl_cons]
    exact ih (fun b hb y hy ↦ h b hb y (List.mem_cons_of_mem _ hy)) hnext

/-! ## Looking up rows -/

/-- The cell of a row that the column has. -/
def Column.strictCell (c : Column) (row : Nat) : Option Cell := c.cells[row]?

theorem Column.strictCell_eq {c : Column} {row : Nat} (h : row < c.cells.length) :
    c.strictCell row = some (c.cellAt row) := by
  rw [strictCell, cellAt, List.getD_eq_getElem?_getD, List.getElem?_eq_getElem h]
  rfl

/-- The cells of rows that a column has. -/
theorem Column.mapM_strictCell {c : Column} {columns : List Column} {rows : List Nat}
    (h : RowsIn columns rows) (hc : c ∈ columns) :
    rows.mapM c.strictCell = some (rows.map c.cellAt) :=
  mapM_eq_some fun row hrow ↦ strictCell_eq (h row hrow c hc)

/-- The items from one position up to another, both within the list. -/
def strictSlice (xs : List α) (start stop : Nat) : Option (List α) :=
  if start ≤ stop ∧ stop ≤ xs.length then some ((xs.take stop).drop start) else none

/-- The given rows in the given order, in every column. -/
def Table.strictTakeRows (t : Table) (rows : List Nat) : Option Table :=
  (t.columns.mapM fun c : Column ↦
    (rows.mapM c.strictCell).map fun cells ↦ { c with cells := cells }).map Table.mk

theorem Table.strictTakeRows_eq {t : Table} {rows : List Nat} (h : RowsIn t.columns rows) :
    t.strictTakeRows rows = some (t.takeRows rows) := by
  rw [strictTakeRows, mapM_eq_some fun c hc ↦ by rw [Column.mapM_strictCell h hc]; rfl]
  rfl

/-! ## Grouping -/

namespace Key

/-- Changes what stands under a key, when the change may have no value. -/
def strictUpdate (start : α) (change : α → Option α) (key : Key) :
    List (Key × α) → Option (List (Key × α))
  | [] => (change start).map fun b ↦ [(key, b)]
  | (k, a) :: rest =>
    match Key.order key k with
    | .lt => (change start).map fun b ↦ (key, b) :: (k, a) :: rest
    | .eq => (change a).map fun b ↦ (k, b) :: rest
    | .gt => (strictUpdate start change key rest).map fun found ↦ (k, a) :: found

theorem strictUpdate_eq {strictChange : α → Option α} {change : α → α}
    (h : ∀ a, strictChange a = some (change a)) (start : α) (key : Key) (cells : List (Key × α)) :
    strictUpdate start strictChange key cells = some (update start change key cells) := by
  induction cells with
  | nil => simp [strictUpdate, update, h]
  | cons x rest ih =>
    obtain ⟨k, a⟩ := x
    rw [strictUpdate, update]
    cases Key.order key k with
    | lt => simp [h]
    | eq => simp [h]
    | gt => simp [ih]

end Key

namespace Grouping

/-- The cells of a row in some columns. -/
def strictKeyAt (columns : List Column) (row : Nat) : Option Key :=
  columns.mapM fun c ↦ c.strictCell row

/-- Adds rows to the groups of their cells in some columns, or of what these stand for. -/
def strictAddRows (columns : List Column) (keyOf : Key → Option Key) (rows : List Nat)
    (g : Grouping) : Option Grouping :=
  rows.foldlM (fun g row ↦ do
    let cells ← strictKeyAt columns row
    match keyOf cells with
    | some key => return add key row g
    | none => return g) g

/-- Groups rows by their cells in some columns, or by what these stand for. -/
def strictOfRows (columns : List Column) (keyOf : Key → Option Key) (rows : List Nat) :
    Option Grouping :=
  strictAddRows columns keyOf rows []

/-- The key made of some cells, when all are present. -/
def presentKey (cells : Key) : Option Key := if cells.any Cell.isAbsent then none else some cells

/-- Groups all rows of some columns. -/
def strictOfColumns (columns : List Column) : Option Grouping :=
  strictOfRows columns presentKey (List.range (rowTotal columns))

variable {columns : List Column} {rows : List Nat}

theorem strictAddRows_eq (h : RowsIn columns rows) (keyOf : Key → Option Key) (g : Grouping) :
    strictAddRows columns keyOf rows g =
      some (addRows (fun row ↦ keyOf (keyAt columns row)) rows g) := by
  refine foldlM_eq_some (P := fun _ ↦ True) (fun g _ row hrow ↦ ⟨?_, trivial⟩) trivial
  have hcells : strictKeyAt columns row = some (keyAt columns row) :=
    mapM_eq_some fun c hc ↦ Column.strictCell_eq (h row hrow c hc)
  rw [hcells]
  cases hkey : keyOf (keyAt columns row) <;> simp [hkey]

theorem strictOfRows_eq (h : RowsIn columns rows) (keyOf : Key → Option Key) :
    strictOfRows columns keyOf rows = some (ofRows (fun row ↦ keyOf (keyAt columns row)) rows) :=
  strictAddRows_eq h keyOf []

theorem strictOfColumns_eq (h : RowsIn columns (List.range (rowTotal columns))) :
    strictOfColumns columns = some (ofColumns columns) := by
  rw [ofColumns_eq]
  exact strictOfRows_eq h _

end Grouping

/-! ## Summaries -/

namespace Summary

/-- The column of the keys' cells at a position. -/
def strictKeyColumn (keys : List Key) (name : String) (position : Nat) : Option Column :=
  (keys.mapM fun key ↦ key[position]?).map fun cells ↦ ⟨.plain name, cells⟩

/-- The columns of the keys' cells. -/
def strictKeyColumns (keys : List Key) (names : List String) : Option (List Column) :=
  names.zipIdx.mapM fun x ↦ strictKeyColumn keys x.1 x.2

/-- The aggregate of a group of rows. -/
def strictAggregate (m : Measure) (source : Column) (rows : List Nat) : Option Cell :=
  (rows.mapM source.strictCell).map m.of

/-- The column of an aggregate. -/
def strictValueColumn (groups : Grouping) (t : Table) (a : Aggregate) : Option Column :=
  (groups.mapM fun group ↦ strictAggregate a.measure (t.source a.column) group.2).map
    fun cells ↦ ⟨.plain a.name, cells⟩

/-- The groups of a table's rows. -/
def strictRowGroups (s : Summary) (t : Table) : Option Grouping :=
  if s.groupby.isEmpty then some [([], List.range t.rowCount)]
  else Grouping.strictOfColumns (s.groupby.map t.source)

/-- The summary of a table that has the columns it needs. -/
def strictResult (s : Summary) (t : Table) : Option Table := do
  let groups ← s.strictRowGroups t
  let keyed ← strictKeyColumns groups.keys s.groupby
  let valued ← s.aggregates.mapM (strictValueColumn groups t)
  return ⟨keyed ++ valued⟩

theorem strictKeyColumns_eq {keys : List Key} {names : List String}
    (h : ∀ key ∈ keys, key.length = names.length) :
    strictKeyColumns keys names = some (keyColumns keys names) := by
  refine mapM_eq_some fun x hx ↦ ?_
  have hposition : x.2 < names.length := by simpa using (List.mem_zipIdx hx).2.1
  have hcells : keys.mapM (fun key ↦ key[x.2]?) =
      some (keys.map fun key ↦ key.getD x.2 .absent) := by
    refine mapM_eq_some fun key hkey ↦ ?_
    have hlt : x.2 < key.length := (h key hkey).symm ▸ hposition
    rw [List.getD_eq_getElem?_getD, List.getElem?_eq_getElem hlt]
    rfl
  rw [strictKeyColumn, hcells]
  rfl

theorem strictAggregate_eq {source : Column} {rows : List Nat} (m : Measure)
    (h : RowsIn [source] rows) :
    strictAggregate m source rows = some (aggregateRows m source rows) := by
  rw [strictAggregate, Column.mapM_strictCell h (List.mem_singleton_self _)]
  rfl

end Summary

/-! ## Rows of a rectangular table -/

namespace Table

variable {t : Table} {names : List String}

theorem Rectangular.rowTotal_eq (ht : t.Rectangular) (h : t.HasColumns names) (hne : names ≠ []) :
    Grouping.rowTotal (names.map t.source) = t.rowCount := by
  obtain ⟨name, rest, rfl⟩ := List.exists_cons_of_ne_nil hne
  exact ht.length_source h (List.mem_cons_self ..)

/-- The rows that are grouped are rows of the table. -/
theorem Rectangular.range_rowTotal_subset (ht : t.Rectangular) (h : t.HasColumns names) :
    List.range (Grouping.rowTotal (names.map t.source)) ⊆ List.range t.rowCount := by
  by_cases hne : names = []
  · subst hne
    exact List.nil_subset _
  · rw [ht.rowTotal_eq h hne]
    exact fun _ ↦ id

theorem Rectangular.strictOfColumns_eq (ht : t.Rectangular) (h : t.HasColumns names) :
    Grouping.strictOfColumns (names.map t.source) =
      some (Grouping.ofColumns (names.map t.source)) :=
  Grouping.strictOfColumns_eq (ht.rowsIn h (ht.range_rowTotal_subset h))

/-- The groups of a rectangular table's rows have rows of the table, and keys as long as there are
columns. -/
theorem Rectangular.of_mem_ofColumns (ht : t.Rectangular) (h : t.HasColumns names)
    {x : Key × List Nat} (hx : x ∈ Grouping.ofColumns (names.map t.source)) :
    x.2 ⊆ List.range t.rowCount ∧ x.1.length = names.length := by
  rw [Grouping.ofColumns_eq] at hx
  refine ⟨List.Subset.trans (Grouping.rows_subset_of_mem_ofRows hx) (ht.range_rowTotal_subset h),
    ?_⟩
  obtain ⟨row, -, hkey⟩ := Grouping.exists_of_mem_keys (List.mem_map_of_mem hx)
  rw [Grouping.length_of_presentKeyAt hkey, List.length_map]

end Table

namespace Summary

variable {s : Summary} {t : Table}

theorem rowGroups_of_isEmpty (h : s.groupby.isEmpty = true) :
    s.rowGroups t = [([], List.range t.rowCount)] := by
  rw [rowGroups, groups, List.isEmpty_map, if_pos h]

theorem rowGroups_of_not_isEmpty (h : ¬ s.groupby.isEmpty = true) :
    s.rowGroups t = Grouping.ofColumns (s.groupby.map t.source) := by
  rw [rowGroups, groups, List.isEmpty_map, if_neg h]

theorem strictRowGroups_eq (ht : t.Rectangular) (h : t.HasColumns s.groupby) :
    s.strictRowGroups t = some (s.rowGroups t) := by
  rw [strictRowGroups]
  split
  · next hempty => rw [rowGroups_of_isEmpty hempty]
  · next hempty => rw [rowGroups_of_not_isEmpty hempty, ht.strictOfColumns_eq h]

theorem of_mem_rowGroups (ht : t.Rectangular) (h : t.HasColumns s.groupby) {x : Key × List Nat}
    (hx : x ∈ s.rowGroups t) : x.2 ⊆ List.range t.rowCount ∧ x.1.length = s.groupby.length := by
  by_cases hempty : s.groupby.isEmpty = true
  · rw [rowGroups_of_isEmpty hempty] at hx
    cases List.mem_singleton.1 hx
    exact ⟨fun _ ↦ id, (List.length_eq_zero_iff.2 (List.isEmpty_iff.1 hempty)).symm⟩
  · rw [rowGroups_of_not_isEmpty hempty] at hx
    exact ht.of_mem_ofColumns h hx

/-- **Summaries look up rows of the table only.** -/
theorem strictResult_eq (ht : t.Rectangular) (h : t.HasColumns s.needed) :
    s.strictResult t = some (s.result t) := by
  obtain ⟨hgroupby, hsources⟩ := Table.hasColumns_append.1 h
  have hkeys : ∀ key ∈ (s.rowGroups t).keys, key.length = s.groupby.length := by
    intro key hkey
    obtain ⟨x, hx, rfl⟩ := List.mem_map.1 hkey
    exact (of_mem_rowGroups ht hgroupby hx).2
  have hvalued : s.aggregates.mapM (strictValueColumn (s.rowGroups t) t) =
      some (s.aggregates.map (valueColumn (s.rowGroups t) t)) := by
    refine mapM_eq_some fun a ha ↦ ?_
    have hcells : (s.rowGroups t).mapM (fun group ↦
        strictAggregate a.measure (t.source a.column) group.2) =
          some ((s.rowGroups t).map fun group ↦
            aggregateRows a.measure (t.source a.column) group.2) := by
      refine mapM_eq_some fun group hgroup ↦ strictAggregate_eq _ ?_
      have hsource : t.HasColumns [a.column] :=
        List.forall_mem_singleton.2 (hsources _ (List.mem_map_of_mem ha))
      exact ht.rowsIn hsource (of_mem_rowGroups ht hgroupby hgroup).1
    rw [strictValueColumn, hcells]
    rfl
  rw [strictResult, strictRowGroups_eq ht hgroupby]
  simp only [Option.bind_eq_bind, Option.bind_some, strictKeyColumns_eq hkeys, hvalued]
  rfl

end Summary

/-! ## Pivots -/

namespace Pivot

/-- What the cells of a row stand for, unless one is absent and not filled. -/
def filledKey (fill : Option Cell) (cells : Key) : Option Key := cells.mapM (keyCell fill)

theorem keyAt_eq (fill : Option Cell) (columns : List Column) (row : Nat) :
    keyAt fill columns row = filledKey fill (Grouping.keyAt columns row) := by
  induction columns with
  | nil => rfl
  | cons c rest ih =>
    have hcells : Grouping.keyAt (c :: rest) row = c.cellAt row :: Grouping.keyAt rest row := rfl
    rw [keyAt, ih, hcells, filledKey, filledKey, List.mapM_cons]
    cases keyCell fill (c.cellAt row) with
    | none => rfl
    | some cell => exact Option.map_eq_bind

/-- What the cells of a row in the pivot columns stand for. -/
def cellsKey (p : Pivot) : Key → Option Key := filledKey (p.keyFill.map Cell.text)

theorem rowKey_eq (p : Pivot) (t : Table) : p.rowKey t =
    fun row ↦ p.cellsKey (Grouping.keyAt (p.columns.map t.source) row) :=
  funext fun _ ↦ keyAt_eq ..

/-- The rows of the output, each with the pivot's combinations within it. -/
def strictCellGroups (p : Pivot) (t : Table) (groups : Grouping) : Option (List (Key × Grouping)) :=
  groups.foldlM (fun cells group ↦
    Key.strictUpdate [] (Grouping.strictAddRows (p.columns.map t.source) p.cellsKey group.2) group.1
      cells) []

/-- All combinations of the pivot's cells. -/
def strictDistinctKeys (p : Pivot) (t : Table) (groups : Grouping) : Option (List Key) :=
  (Grouping.strictOfRows (p.columns.map t.source) p.cellsKey (groups.flatMap Prod.snd)).map
    Grouping.keys

/-- The cells of a column of the output, before they are filled. -/
def strictRawCells (m : Measure) (source : Column) (key : Key) (groups : List (Key × Grouping)) :
    Option (List Cell) :=
  groups.mapM fun group ↦
    match group.2.rowsOf? key with
    | some rows => Summary.strictAggregate m source rows
    | none => some .absent

/-- A column of the output, unless it is empty and dropped. -/
def strictOutputColumn (p : Pivot) (groups : List (Key × Grouping)) (a : Aggregate × Column)
    (key : Key) : Option (Option Column) :=
  (strictRawCells a.1.measure a.2 key groups).map fun cells ↦
    if p.dropEmpty && cells.all Cell.isAbsent then none
    else some ⟨p.outputName a.1.name key, fillCells p.cellFill cells⟩

/-- The pivot of a table that has the columns it needs. -/
def strictResult (p : Pivot) (t : Table) : Option Table := do
  let rows ← Grouping.strictOfColumns (p.index.map t.source)
  let groups ← p.strictCellGroups t rows
  let keys ← p.strictDistinctKeys t rows
  let keyed ← Summary.strictKeyColumns (groups.map Prod.fst) p.index
  let combined := p.combinations (p.aggregates.map fun a ↦ (a, t.source a.column)) keys
  let valued ← combined.mapM fun x ↦ p.strictOutputColumn groups x.1 x.2
  return ⟨keyed ++ valued.filterMap id⟩

theorem strictRawCells_eq {source : Column} {key : Key} {groups : List (Key × Grouping)}
    (m : Measure) (h : ∀ group ∈ groups, ∀ x ∈ group.2, RowsIn [source] x.2) :
    strictRawCells m source key groups = some (rawCells m source key groups) := by
  refine mapM_eq_some fun group hgroup ↦ ?_
  cases hrows : group.2.rowsOf? key with
  | none => simp [hrows]
  | some rows =>
    obtain ⟨k, hk, -⟩ := Grouping.mem_of_rowsOf? hrows
    simp [hrows, Summary.strictAggregate_eq m (h group hgroup _ hk)]

/-- The pivot columns of the rows of a group are looked up within the table. -/
theorem strictAddRows_eq {p : Pivot} {t : Table} (ht : t.Rectangular) (h : t.HasColumns p.columns)
    {rows : List Nat} (hrows : rows ⊆ List.range t.rowCount) (g : Grouping) :
    Grouping.strictAddRows (p.columns.map t.source) p.cellsKey rows g =
      some (Grouping.addRows (p.rowKey t) rows g) := by
  rw [Grouping.strictAddRows_eq (ht.rowsIn h hrows), rowKey_eq]

/-- **Pivots look up rows of the table only.** -/
theorem strictResult_eq {p : Pivot} {t : Table} (ht : t.Rectangular) (h : t.HasColumns p.needed) :
    p.strictResult t = some (p.result t) := by
  obtain ⟨hkeys, hsources⟩ := Table.hasColumns_append.1 h
  obtain ⟨hindex, hcolumns⟩ := Table.hasColumns_append.1 hkeys
  have hmembers : ∀ x ∈ p.rowGroups t, x.2 ⊆ List.range t.rowCount ∧ x.1.length = p.index.length :=
    fun x hx ↦ ht.of_mem_ofColumns hindex hx
  have hgroups : p.strictCellGroups t (p.rowGroups t) =
      some (cellGroups (p.rowKey t) (p.rowGroups t)) := by
    refine foldlM_eq_some (P := fun _ ↦ True) (fun cells _ group hgroup ↦ ⟨?_, trivial⟩) trivial
    exact Key.strictUpdate_eq (strictAddRows_eq ht hcolumns (hmembers group hgroup).1) ..
  have hdistinct : p.strictDistinctKeys t (p.rowGroups t) =
      some (distinctKeys (p.rowKey t) (p.rowGroups t)) := by
    have hall : (p.rowGroups t).flatMap Prod.snd ⊆ List.range t.rowCount := fun row hrow ↦ by
      obtain ⟨x, hx, hmem⟩ := List.mem_flatMap.1 hrow
      exact (hmembers x hx).1 hmem
    rw [strictDistinctKeys, Grouping.strictOfRows, strictAddRows_eq ht hcolumns hall,
      distinctKeys_eq, Option.map_some]
    rfl
  have hgathered : ∀ x ∈ (p.rowGroups t).gathered,
      x.2 ⊆ List.range t.rowCount ∧ x.1.length = p.index.length :=
    Grouping.forall_mem_gathered hmembers fun x hx y hy ↦
      ⟨List.append_subset.2 ⟨hy.1, (hmembers x hx).1⟩, hy.2⟩
  have hkeyed : Summary.strictKeyColumns (p.outputKeys t) p.index =
      some (Summary.keyColumns (p.outputKeys t) p.index) := by
    refine Summary.strictKeyColumns_eq fun key hkey ↦ ?_
    rw [outputKeys_eq] at hkey
    obtain ⟨x, hx, rfl⟩ := List.mem_map.1 hkey
    exact (hgathered x hx).2
  have hvalued : (p.combined t).mapM (fun x ↦
      p.strictOutputColumn (cellGroups (p.rowKey t) (p.rowGroups t)) x.1 x.2) =
        some ((p.combined t).map fun x ↦
          p.outputColumn (cellGroups (p.rowKey t) (p.rowGroups t)) x.1 x.2) := by
    refine mapM_eq_some fun x hx ↦ ?_
    obtain ⟨a, ha, hsource⟩ := List.mem_map.1 (mem_combinations hx).1
    have hneeded : t.HasColumns [a.column] :=
      List.forall_mem_singleton.2 (hsources _ (List.mem_map_of_mem ha))
    have hwithin : ∀ group ∈ cellGroups (p.rowKey t) (p.rowGroups t), ∀ y ∈ group.2,
        RowsIn [x.1.2] y.2 := by
      intro group hgroup y hy
      rw [cellGroups_eq] at hgroup
      obtain ⟨outer, houter, rfl⟩ := List.mem_map.1 hgroup
      rw [← hsource]
      exact ht.rowsIn hneeded (List.Subset.trans (Grouping.rows_subset_of_mem_ofRows hy)
        (hgathered outer houter).1)
    rw [strictOutputColumn, strictRawCells_eq _ hwithin]
    rfl
  have hrows : Grouping.strictOfColumns (p.index.map t.source) = some (p.rowGroups t) :=
    ht.strictOfColumns_eq hindex
  rw [combined] at hvalued
  rw [outputKeys] at hkeyed
  simp only [strictResult, Option.bind_eq_bind, Option.bind_some, hrows, hgroups, hdistinct, hkeyed,
    hvalued]
  rw [List.filterMap_map]
  rfl

end Pivot

/-! ## Sorting -/

/-- Inserts an element by a comparison that may have no value. -/
def strictInsert (before : α → α → Option Bool) (x : α) : List α → Option (List α)
  | [] => some [x]
  | y :: rest => do
    if ← before x y then return y :: (← strictInsert before x rest) else return x :: y :: rest

/-- Sorts by a comparison that may have no value. -/
def strictSort (before : α → α → Option Bool) (xs : List α) : Option (List α) :=
  (xs.foldlM (fun acc x ↦ strictInsert before x acc) []).map List.reverse

theorem strictInsert_eq {strictBefore : α → α → Option Bool} {before : α → α → Bool} {x : α}
    {ys : List α} (h : ∀ y ∈ ys, strictBefore x y = some (before x y)) :
    strictInsert strictBefore x ys = some (insertDescending before x ys) := by
  induction ys with
  | nil => rfl
  | cons y rest ih =>
    obtain ⟨hy, hrest⟩ := List.forall_mem_cons.1 h
    rw [strictInsert, insertDescending, hy]
    cases before x y with
    | false => rfl
    | true => simp [ih hrest]

theorem strictSort_eq {strictBefore : α → α → Option Bool} {before : α → α → Bool} {xs : List α}
    (h : ∀ x ∈ xs, ∀ y ∈ xs, strictBefore x y = some (before x y)) :
    strictSort strictBefore xs = some (sortStably before xs) := by
  -- what has been sorted so far is among the elements
  have hfold : xs.foldlM (fun acc x ↦ strictInsert strictBefore x acc) [] =
      some (xs.foldl (fun acc x ↦ insertDescending before x acc) []) := by
    refine foldlM_eq_some (P := fun acc ↦ acc ⊆ xs) (fun acc hacc x hx ↦ ⟨?_, ?_⟩)
      (List.nil_subset _)
    · exact strictInsert_eq fun y hy ↦ h x hx y (hacc hy)
    · exact List.Subset.trans (perm_insertDescending before x acc).subset
        (List.cons_subset.2 ⟨hx, hacc⟩)
  rw [strictSort, hfold]
  rfl

namespace RowSort

/-- Compares two rows by all of the columns. -/
def strictRowOrder (keys : List (Column × Bool)) (a b : Nat) : Option Ordering :=
  match keys with
  | [] => some .eq
  | (c, ascending) :: rest => do
    let cell ← c.strictCell a
    let other ← c.strictCell b
    return (cellOrder ascending cell other).then (← strictRowOrder rest a b)

theorem strictRowOrder_eq {keys : List (Column × Bool)} {a b : Nat}
    (h : RowsIn (keys.map Prod.fst) [a, b]) :
    strictRowOrder keys a b = some (rowOrder keys a b) := by
  induction keys with
  | nil => rfl
  | cons key rest ih =>
    obtain ⟨c, ascending⟩ := key
    have hrow (row : Nat) (hmem : row ∈ [a, b]) : c.strictCell row = some (c.cellAt row) :=
      Column.strictCell_eq (h row hmem c (List.mem_cons_self ..))
    have hrest : RowsIn (rest.map Prod.fst) [a, b] :=
      fun row hmem d hd ↦ h row hmem d (List.mem_cons_of_mem _ hd)
    simp [strictRowOrder, rowOrder, hrow, ih hrest]

/-- The sorted table, when it has the columns to sort by. -/
def strictResult (s : RowSort) (t : Table) : Option Table :=
  (strictSort (fun a b ↦ (strictRowOrder (s.keyColumns t) a b).map (· == .lt))
    (List.range t.rowCount)).bind t.strictTakeRows

/-- **Sorting looks up rows of the table only.** -/
theorem strictResult_eq {s : RowSort} {t : Table} (ht : t.Rectangular)
    (h : t.HasColumns s.columns.keys) : s.strictResult t = some (s.result t) := by
  have hkeys : (s.keyColumns t).map Prod.fst = s.columns.keys.map t.source := by
    rw [keyColumns, OrderedMap.keys, Dict.keys, List.map_map, List.map_map]
    rfl
  have hsort : strictSort (fun a b ↦ (strictRowOrder (s.keyColumns t) a b).map (· == .lt))
      (List.range t.rowCount) = some (s.rowsOf t) := by
    refine strictSort_eq fun a ha b hb ↦ ?_
    have hrows : RowsIn ((s.keyColumns t).map Prod.fst) [a, b] := by
      rw [hkeys]
      exact ht.rowsIn h (List.cons_subset.2 ⟨ha, List.cons_subset.2 ⟨hb, List.nil_subset _⟩⟩)
    rw [strictRowOrder_eq hrows]
    rfl
  have htake : RowsIn t.columns (s.rowsOf t) := fun row hrow c hc ↦ by
    rw [ht c hc]
    exact List.mem_range.1 ((s.perm_rowsOf t).subset hrow)
  rw [strictResult, hsort, Option.bind_some, Table.strictTakeRows_eq htake]
  rfl

end RowSort

/-! ## Columns computed from columns -/

namespace RollingMode

/-- The present values of the window that ends in a row. -/
def strictPresentAt (values : List (Option Float)) (size row : Nat) : Option (List Float) :=
  (strictSlice values (row + 1 - size) (row + 1)).map fun window ↦ window.filterMap id

/-- The cells of a column. -/
def strictCells (mode : RollingMode) (values : List (Option Float)) : Option (List Cell) :=
  match mode with
  | .total => some (totals 0.0 values)
  | .windowed s w => (List.range values.length).mapM fun row ↦
    (strictPresentAt values w.size row).map (s.cell w.minimum)

/-- **Windows lie within the column.** -/
theorem strictCells_eq (mode : RollingMode) (values : List (Option Float)) :
    mode.strictCells values = some (mode.cells values) := by
  cases mode with
  | total => rfl
  | windowed s w =>
    refine mapM_eq_some fun row hrow ↦ ?_
    have hwithin : row + 1 - w.size ≤ row + 1 ∧ row + 1 ≤ values.length :=
      ⟨Nat.sub_le .., List.mem_range.1 hrow⟩
    rw [strictPresentAt, strictSlice, if_pos hwithin]
    rfl

theorem length_totals (before : Float) (values : List (Option Float)) :
    (totals before values).length = values.length := by
  induction values generalizing before with
  | nil => rfl
  | cons value rest ih => cases value <;> exact congrArg Nat.succ (ih _)

theorem length_cells (mode : RollingMode) (values : List (Option Float)) :
    (mode.cells values).length = values.length := by
  cases mode with
  | total => exact length_totals ..
  | windowed s w => rw [cells, List.length_map, List.length_range]

end RollingMode

namespace Difference

/-- The difference in one row, when the row that it is compared with is one of the column. -/
def strictDifferenceAt (values : List (Option Float)) (periods : Int) (row : Nat) : Option Cell :=
  match partner row periods with
  | none => some .absent
  | some place =>
    if 0 ≤ place ∧ place < values.length then do
      let value ← values[row]?
      let other ← values[place.toNat]?
      match value, other with
      | some a, some b => return .ofFloat? (some (a - b))
      | _, _ => return .absent
    else some .absent

/-- The differences in all rows. -/
def strictDifferences (periods : Int) (values : List (Option Float)) : Option (List Cell) :=
  (List.range values.length).mapM (strictDifferenceAt values periods)

theorem valueAt_of_lt {values : List (Option Float)} {row : Int} (h : 0 ≤ row)
    (hlt : row.toNat < values.length) : valueAt values row = values[row.toNat] := by
  rw [valueAt, if_neg (Int.not_lt.2 h), List.getElem?_eq_getElem hlt]
  rfl

/-- **Both rows of a difference are in the column**, or there is none. -/
theorem strictDifferences_eq (periods : Int) (values : List (Option Float)) :
    strictDifferences periods values = some (differences periods values) := by
  refine mapM_eq_some fun row hrow ↦ ?_
  have hlt : row < values.length := List.mem_range.1 hrow
  rw [strictDifferenceAt, differenceAt]
  cases partner row periods with
  | none => cases valueAt values row <;> rfl
  | some place =>
    rw [Option.bind_some]
    dsimp only
    split
    · next hplace =>
      have hother : place.toNat < values.length := by omega
      rw [List.getElem?_eq_getElem hlt, List.getElem?_eq_getElem hother,
        valueAt_of_lt hplace.1 hother, valueAt_of_lt (Int.natCast_nonneg row) hlt]
      simp only [Int.toNat_natCast, Option.bind_eq_bind, Option.bind_some]
      cases values[row] <;> cases values[place.toNat] <;> rfl
    · next hplace =>
      have hnone : valueAt values place = none := by
        rw [valueAt]
        split
        · rfl
        · rw [List.getElem?_eq_none (by omega)]
          rfl
      rw [hnone]
      cases valueAt values row <;> rfl

theorem length_differences (periods : Int) (values : List (Option Float)) :
    (differences periods values).length = values.length := by
  rw [differences, List.length_map, List.length_range]

end Difference

theorem Running.length_accumulate (how : Accumulation) (before : Option Float)
    (values : List (Option Float)) : (accumulate how before values).length = values.length := by
  induction values generalizing before with
  | nil => rfl
  | cons value rest ih => cases value <;> exact congrArg Nat.succ (ih _)

namespace Table

variable {t : Table} {mapping : List (String × String)}

/-- The new cells under their names. -/
def strictComputed (t : Table) (compute : List (Option Float) → Option (List Cell))
    (mapping : List (String × String)) : Option (List (String × List Cell)) :=
  mapping.mapM fun names ↦
    (compute (t.source names.1).numbers).map fun cells ↦ (names.2, cells)

theorem strictComputed_eq {strictCompute : List (Option Float) → Option (List Cell)}
    {compute : List (Option Float) → List Cell}
    (h : ∀ values, strictCompute values = some (compute values)) :
    t.strictComputed strictCompute mapping = some (t.computed compute mapping) :=
  mapM_eq_some fun names _ ↦ by rw [h, Option.map_some]

/-- Columns of numbers are as long as the table. -/
theorem Rectangular.length_numbers {names : List String} {name : String} (ht : t.Rectangular)
    (h : t.HasColumns names) (hname : name ∈ names) :
    (t.source name).numbers.length = t.rowCount := by
  rw [Column.numbers, List.length_map, ht.length_source h hname]

theorem Rectangular.length_computed (ht : t.Rectangular) {compute : List (Option Float) → List Cell}
    (hcompute : ∀ values, (compute values).length = values.length)
    (h : t.HasColumns (mapping.map Prod.fst)) :
    ∀ a ∈ t.computed compute mapping, a.2.length = t.rowCount := by
  intro a ha
  obtain ⟨names, hnames, rfl⟩ := List.mem_map.1 ha
  exact (hcompute _).trans (ht.length_numbers h (List.mem_map_of_mem hnames))

end Table

namespace Contribution

/-- The total of a row over several columns. -/
def strictRowTotal (series : List (List (Option Float))) (row : Nat) : Option Float :=
  (series.mapM fun values ↦ values[row]?).map fun values ↦ Statistics.sum (values.filterMap id)

/-- The shares of all columns that take part. -/
def strictShares (orientation : Orientation) (rows : Nat) (series : List (List (Option Float))) :
    Option (List (List Cell)) :=
  match orientation with
  | .column => some (series.map columnShares)
  | .row => ((List.range rows).mapM (strictRowTotal series)).map fun totals ↦
    series.map (rowShares totals)

/-- The table with the shares, when it has the columns that are named. -/
def strictResult (c : Contribution) (t : Table) : Option Table :=
  (strictShares c.orientation t.rowCount (c.series t)).map fun shares ↦
    t.upsertAll (((c.targetNames t).map Prod.snd).zip shares)

variable {orientation : Orientation} {rows : Nat} {series : List (List (Option Float))}

theorem strictRowTotal_eq {row : Nat} (h : ∀ values ∈ series, row < values.length) :
    strictRowTotal series row = some (rowTotal series row) := by
  have hvalues : series.mapM (fun values ↦ values[row]?) =
      some (series.map fun values ↦ (values[row]?).join) :=
    mapM_eq_some fun values hvalues ↦ by
      rw [List.getElem?_eq_getElem (h values hvalues), Option.join_some]
  rw [strictRowTotal, hvalues, Option.map_some, List.filterMap_map, rowTotal]
  rfl

theorem strictShares_eq (h : ∀ values ∈ series, values.length = rows) :
    strictShares orientation rows series = some (shares orientation rows series) := by
  cases orientation with
  | column => rfl
  | row =>
    have htotals : (List.range rows).mapM (strictRowTotal series) =
        some ((List.range rows).map (rowTotal series)) :=
      mapM_eq_some fun row hrow ↦
        strictRowTotal_eq fun values hvalues ↦ (h values hvalues).symm ▸ List.mem_range.1 hrow
    rw [strictShares, htotals]
    rfl

theorem length_of_mem_shares (h : ∀ values ∈ series, values.length = rows) {cells : List Cell}
    (hcells : cells ∈ shares orientation rows series) : cells.length = rows := by
  cases orientation with
  | column =>
    obtain ⟨values, hvalues, rfl⟩ := List.mem_map.1 hcells
    rw [columnShares, List.length_map, h values hvalues]
  | row =>
    obtain ⟨values, hvalues, rfl⟩ := List.mem_map.1 hcells
    simp [rowShares, h values hvalues]

variable {c : Contribution} {t : Table}

theorem length_of_mem_series (ht : t.Rectangular) (h : t.HasColumns c.named) :
    ∀ values ∈ c.series t, values.length = t.rowCount := by
  intro values hvalues
  obtain ⟨names, hnames, rfl⟩ := List.mem_map.1 hvalues
  exact ht.length_numbers (hasColumns_targetNames h) (List.mem_map_of_mem hnames)

/-- **Totals of rows are taken of rows of the table.** -/
theorem strictResult_eq (ht : t.Rectangular) (h : t.HasColumns c.named) :
    c.strictResult t = some (c.result t) := by
  rw [strictResult, strictShares_eq (length_of_mem_series ht h)]
  rfl

end Contribution

end ChartFeed
