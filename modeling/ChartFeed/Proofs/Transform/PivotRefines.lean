import ChartFeed.Proofs.Table.NestedGrouping
import ChartFeed.Proofs.Transform.Bounds

/-!
# Pivots are summaries, laid out

A summary by the columns of a pivot's index and by its pivot columns has the same aggregates as the
pivot.  It has them one below the other, where the pivot has them side by side.  This file proves
it, for pivots that neither fill nor drop anything.

* `Pivot.place` — which column has an aggregate of a combination of the pivot's cells;
* `Pivot.Refines` — everything that is to be said about a pivot, a summary and the combinations:
  what their rows and columns are, in which order they stand, and which cells are the same;
* `Pivot.refines_result` — for every rectangular table that has the columns, if the order of cells
  is transitive in each column of the index and in each pivot column.

The rows are compared by `ChartFeed.Proofs.Table.NestedGrouping`; what is left here is to find the
places.
-/

set_option autoImplicit false

namespace ChartFeed

/-! ## Explicit operators -/

namespace AggregateSpec

theorem measure_of_isSome {spec : AggregateSpec} (h : spec.operator.isSome)
    (default default' : Option Measure) : spec.measure default = spec.measure default' := by
  obtain ⟨written, hwritten⟩ := Option.isSome_iff_exists.1 h
  simp only [measure, hwritten]

/-- Aggregates with operators of their own do not ask for the default. -/
theorem resolveAll_of_isSome {specs : List (String × AggregateSpec)}
    (h : ∀ entry ∈ specs, entry.2.operator.isSome) (default default' : Option Measure) :
    resolveAll default specs = resolveAll default' specs := by
  induction specs with
  | nil => rfl
  | cons entry rest ih =>
    obtain ⟨name, spec⟩ := entry
    obtain ⟨hspec, hrest⟩ := List.forall_mem_cons.1 h
    rw [resolveAll, resolveAll, resolve, resolve, measure_of_isSome hspec default default',
      ih hrest]

end AggregateSpec

/-! ## Cells by place -/

theorem Column.cellAt_of_cells_eq {c : Column} {keys : List Key} {f : Key → Cell}
    (h : c.cells = keys.map f) {i : Nat} (hi : i < keys.length) : c.cellAt i = f keys[i] := by
  rw [cellAt, h, List.getD_eq_getElem?_getD, List.getElem?_map, List.getElem?_eq_getElem hi]
  rfl

namespace Summary

variable {keys : List Key} {names : List String}

theorem keyAt_keyColumns {i : Nat} (hi : i < keys.length)
    (hlength : keys[i].length = names.length) :
    Grouping.keyAt (keyColumns keys names) i = keys[i] := by
  refine List.ext_getElem ?_ fun n hn hn' ↦ ?_
  · rw [Grouping.length_keyAt, length_keyColumns, hlength]
  · simp [Grouping.keyAt, keyColumns, keyColumn, Column.cellAt, hi, hn']

end Summary

namespace Table

/-- The cell in a column and a row, by their places. -/
def cell (t : Table) (column row : Nat) : Cell :=
  ((t.columns[column]?).map fun c ↦ c.cellAt row).getD .absent

/-- The cells of a row in the first columns. -/
def leadingKey (t : Table) (width row : Nat) : Key := Grouping.keyAt (t.columns.take width) row

variable {keys : List Key} {names : List String} {more : List Column}

/-- A table that begins with keys has them in its first columns. -/
theorem leadingKey_keyColumns {i : Nat} (hi : i < keys.length)
    (hlength : keys[i].length = names.length) :
    leadingKey ⟨Summary.keyColumns keys names ++ more⟩ names.length i = keys[i] := by
  have htake : (Summary.keyColumns keys names ++ more).take names.length =
      Summary.keyColumns keys names := by
    rw [← Summary.length_keyColumns keys names, List.take_left]
  rw [leadingKey, htake, Summary.keyAt_keyColumns hi hlength]

theorem rowCount_keyColumns (h : names ≠ []) :
    rowCount ⟨Summary.keyColumns keys names ++ more⟩ = keys.length := by
  cases names with
  | nil => exact absurd rfl h
  | cons name rest => exact List.length_map ..

/-- The columns behind the keys. -/
theorem cell_keyColumns {column row : Nat} {c : Column} (h : more[column]? = some c) :
    cell ⟨Summary.keyColumns keys names ++ more⟩ (names.length + column) row = c.cellAt row := by
  have hright : (Summary.keyColumns keys names ++ more)[names.length + column]? = some c := by
    rw [← Summary.length_keyColumns keys names, List.getElem?_append_right (Nat.le_add_right ..),
      Nat.add_sub_cancel_left, h]
  rw [cell, hright]
  rfl

end Table

/-! ## The columns of a pivot -/

namespace Pivot

/-- Behind the index, the place of an aggregate of a combination of the pivot's cells. -/
def place (p : Pivot) (keyCount a q : Nat) : Nat :=
  if p.keyFirst then q * p.aggregates.length + a else a * keyCount + q

theorem getElem?_flatMap_map {α β γ : Type} (f : α → β → γ) (xs : List α) (ys : List β) {a b : Nat}
    (ha : a < xs.length) (hb : b < ys.length) :
    (xs.flatMap fun x ↦ ys.map (f x))[a * ys.length + b]? = some (f xs[a] ys[b]) := by
  induction xs generalizing a with
  | nil => exact absurd ha (Nat.not_lt_zero a)
  | cons x rest ih =>
    have hlength : (ys.map (f x)).length = ys.length := List.length_map ..
    rw [List.flatMap_cons]
    cases a with
    | zero =>
      rw [Nat.zero_mul, Nat.zero_add, List.getElem?_append_left (hlength ▸ hb)]
      simp [hb]
    | succ a =>
      have hle : ys.length ≤ (a + 1) * ys.length + b := by rw [Nat.succ_mul]; omega
      have hsub : (a + 1) * ys.length + b - ys.length = a * ys.length + b := by
        rw [Nat.succ_mul]; omega
      rw [List.getElem?_append_right (hlength ▸ hle), hlength, hsub]
      exact ih (Nat.lt_of_succ_lt_succ ha)

variable {p : Pivot} {as : List (Aggregate × Column)} {keys : List Key}

theorem length_combinations (p : Pivot) (as : List (Aggregate × Column)) (keys : List Key) :
    (p.combinations as keys).length = as.length * keys.length := by
  rw [combinations]
  split <;> simp [List.length_flatMap, Nat.mul_comm]

theorem getElem?_combinations (has : as.length = p.aggregates.length) {a q : Nat}
    (ha : a < as.length) (hq : q < keys.length) :
    (p.combinations as keys)[p.place keys.length a q]? = some (as[a], keys[q]) := by
  rw [combinations, place]
  split
  · rw [← has]
    exact getElem?_flatMap_map (fun key a ↦ (a, key)) keys as hq ha
  · exact getElem?_flatMap_map Prod.mk as keys ha hq

/-- Nothing is filled and nothing is dropped. -/
structure Plain (p : Pivot) : Prop where
  keyFill : p.keyFill = none
  cellFill : p.cellFill = none
  dropEmpty : p.dropEmpty = false

/-- The summary by the index and the pivot columns. -/
def summary (p : Pivot) : Summary := ⟨p.index ++ p.columns, p.aggregates⟩

/-- The columns of the index. -/
def indexColumns (p : Pivot) (t : Table) : List Column := p.index.map t.source

/-- The pivot columns. -/
def pivotColumns (p : Pivot) (t : Table) : List Column := p.columns.map t.source

/-- All combinations of the pivot's cells that occur. -/
def pivotKeys (p : Pivot) (t : Table) : List Key := distinctKeys (p.rowKey t) (p.rowGroups t)

/-- The column of an aggregate of a combination. -/
theorem getElem?_combined {t : Table} {a q : Nat} (ha : a < p.aggregates.length)
    (hq : q < (p.pivotKeys t).length) :
    (p.combined t)[p.place (p.pivotKeys t).length a q]? =
      some ((p.aggregates[a], t.source p.aggregates[a].column), (p.pivotKeys t)[q]) := by
  have hlength : (p.aggregates.map fun a ↦ (a, t.source a.column)).length = p.aggregates.length :=
    List.length_map ..
  have hcombined := getElem?_combinations (p := p) hlength (hlength.symm ▸ ha) hq
  rwa [List.getElem_map] at hcombined

theorem filledKey_none (cells : Key) : filledKey none cells = Grouping.presentKey cells := by
  induction cells with
  | nil => rfl
  | cons c rest ih =>
    rw [filledKey] at ih ⊢
    rw [List.mapM_cons, ih, keyCell, Grouping.presentKey, Grouping.presentKey, List.any_cons]
    cases c.isAbsent <;> cases rest.any Cell.isAbsent <;> rfl

/-- Without anything to fill them with, rows with an absent cell take no part. -/
theorem rowKey_eq_presentKeyAt (hp : p.Plain) (t : Table) :
    p.rowKey t = Grouping.presentKeyAt (p.pivotColumns t) := by
  rw [rowKey_eq, cellsKey, hp.keyFill]
  exact funext fun row ↦ filledKey_none _

/-- The cell of an aggregate for the rows of a combination, if there are any. -/
def aggregateOf (m : Measure) (source : Column) : Option (List Nat) → Cell
  | some rows => Summary.aggregateRows m source rows
  | none => .absent

/-- The column of an aggregate and a combination, when it is neither filled nor dropped. -/
def plainColumn (p : Pivot) (t : Table) (x : (Aggregate × Column) × Key) : Column :=
  ⟨p.outputName x.1.1.name x.2,
    rawCells x.1.1.measure x.1.2 x.2 (cellGroups (p.rowKey t) (p.rowGroups t))⟩

theorem valueColumns_eq_map (hdrop : p.dropEmpty = false) (hfill : p.cellFill = none) (t : Table) :
    p.valueColumns t = (p.combined t).map (p.plainColumn t) := by
  -- no column is dropped, so filtering is mapping
  have hcolumn (x : (Aggregate × Column) × Key) :
      p.outputColumn (cellGroups (p.rowKey t) (p.rowGroups t)) x.1 x.2 =
        some (p.plainColumn t x) := by
    simp [outputColumn, plainColumn, hdrop, hfill, fillCells]
  rw [valueColumns, ← List.filterMap_eq_map']
  exact List.filterMap_congr fun x _ ↦ hcolumn x

theorem result_eq (hp : p.Plain) (t : Table) :
    p.result t = ⟨Summary.keyColumns (p.outputKeys t) p.index ++
      (p.combined t).map (p.plainColumn t)⟩ := by
  rw [result, valueColumns_eq_map hp.dropEmpty hp.cellFill]

/-! ## What is to be said -/

/-- A row of the pivot and a combination of the pivot's cells together have the key that a row of
the summary has. -/
def SameGroup (p : Pivot) (P G : Table) (keys : List Key) (i q j : Nat) : Prop :=
  Key.order (P.leadingKey p.index.length i ++ keys.getD q [])
    (G.leadingKey (p.index.length + p.columns.length) j) = .eq

/-- `P` is a pivot of `t`, `G` is the summary by the same columns, and `keys` are the combinations
of the pivot's cells. -/
structure Refines (p : Pivot) (t P G : Table) (keys : List Key) : Prop where
  /-- The rows of the pivot ascend by their keys. -/
  rows_ascending : Grouping.Ascending ((List.range P.rowCount).map (P.leadingKey p.index.length))
  /-- The key of a row is that of a row of the table without absent cells in the index. -/
  exists_source : ∀ i < P.rowCount, ∃ r < t.rowCount,
    Grouping.presentKeyAt (p.indexColumns t) r = some (P.leadingKey p.index.length i)
  /-- Every such row of the table has its key among the rows. -/
  exists_row : ∀ r < t.rowCount, ∀ k, Grouping.presentKeyAt (p.indexColumns t) r = some k →
    ∃ i < P.rowCount, Key.order (P.leadingKey p.index.length i) k = .eq
  /-- The combinations ascend. -/
  keys_ascending : Grouping.Ascending keys
  /-- Every combination occurs. -/
  exists_group : ∀ q < keys.length, ∃ i < P.rowCount, ∃ j < G.rowCount, p.SameGroup P G keys i q j
  /-- There is a column for each of the index, and for each aggregate and combination. -/
  length_columns : P.columns.length = p.index.length + p.aggregates.length * keys.length
  index_names : (P.columns.take p.index.length).map Column.name = p.index.map ColumnName.plain
  /-- The columns of the aggregates stand in their places. -/
  value_name : ∀ a (ha : a < p.aggregates.length) q (hq : q < keys.length),
    (P.columns[p.index.length + p.place keys.length a q]?).map Column.name =
      some (p.outputName p.aggregates[a].name keys[q])
  /-- The summary has the columns of the keys, and one for each aggregate. -/
  summary_names : G.columns.map Column.name =
    (p.index ++ p.columns ++ p.aggregates.map Aggregate.name).map ColumnName.plain
  /-- **The pivot has the cells of the summary.** -/
  cell_eq : ∀ i < P.rowCount, ∀ a < p.aggregates.length, ∀ q < keys.length, ∀ j < G.rowCount,
    p.SameGroup P G keys i q j → P.cell (p.index.length + p.place keys.length a q) i =
      G.cell (p.index.length + p.columns.length + a) j
  /-- Where the summary has no row the pivot has no value. -/
  cell_absent : ∀ i < P.rowCount, ∀ a < p.aggregates.length, ∀ q < keys.length,
    (∀ j < G.rowCount, ¬ p.SameGroup P G keys i q j) →
      P.cell (p.index.length + p.place keys.length a q) i = .absent
  /-- **Every row of the summary is in one place of the pivot.** -/
  existsUnique : ∀ j < G.rowCount,
    ∃! x : Nat × Nat, x.1 < P.rowCount ∧ x.2 < keys.length ∧ p.SameGroup P G keys x.1 x.2 j

/-! ## Finding the places -/

/-- Places of keys, from the keys. -/
theorem exists_places {keys keys' : List Key} {P : Key → Key → Prop}
    (hkeys : ∃ k ∈ keys, ∃ k' ∈ keys', P k k') :
    ∃ (i : Nat) (hi : i < keys.length) (j : Nat) (hj : j < keys'.length), P keys[i] keys'[j] := by
  obtain ⟨k, hk, k', hk', h⟩ := hkeys
  obtain ⟨i, hi, rfl⟩ := List.getElem_of_mem hk
  obtain ⟨j, hj, rfl⟩ := List.getElem_of_mem hk'
  exact ⟨i, hi, j, hj, h⟩

/-- A table with all that a pivot refers to, and in which a transitive order compares the cells that
it groups by. -/
structure Suits (p : Pivot) (t : Table) : Prop where
  plain : p.Plain
  index_ne_nil : p.index ≠ []
  rectangular : t.Rectangular
  hasColumns : t.HasColumns p.needed
  transitive : ∀ name ∈ p.index ++ p.columns, TransitiveOn Cell.order (· ∈ (t.source name).cells)

namespace Suits

variable {t : Table} (h : p.Suits t)

include h

theorem hasColumns_index : t.HasColumns p.index :=
  (Table.hasColumns_append.1 (Table.hasColumns_append.1 h.hasColumns).1).1

theorem ordered :
    Grouping.Ordered (p.indexColumns t ++ p.pivotColumns t) (List.range t.rowCount) := by
  rw [indexColumns, pivotColumns, ← List.map_append]
  refine ⟨h.rectangular.rowsIn (Table.hasColumns_append.1 h.hasColumns).1 (fun _ ↦ id),
    fun c hc ↦ ?_⟩
  obtain ⟨name, hname, rfl⟩ := List.mem_map.1 hc
  exact h.transitive name hname

theorem rowGroups_eq : p.rowGroups t =
    Grouping.ofRows (Grouping.presentKeyAt (p.indexColumns t)) (List.range t.rowCount) := by
  rw [rowGroups, Grouping.ofColumns_eq,
    h.rectangular.rowTotal_eq h.hasColumns_index h.index_ne_nil]
  rfl

theorem summary_rowGroups_eq : p.summary.rowGroups t =
    Grouping.ofRows (Grouping.presentKeyAt (p.indexColumns t ++ p.pivotColumns t))
      (List.range t.rowCount) := by
  have hne : p.index ++ p.columns ≠ [] := List.append_ne_nil_of_left_ne_nil h.index_ne_nil _
  have hcolumns : t.HasColumns (p.index ++ p.columns) := (Table.hasColumns_append.1 h.hasColumns).1
  have hempty : ¬ p.summary.groupby.isEmpty = true := fun e ↦ hne (List.isEmpty_iff.1 e)
  rw [Summary.rowGroups_of_not_isEmpty hempty, summary, Grouping.ofColumns_eq,
    h.rectangular.rowTotal_eq hcolumns hne, List.map_append]
  rfl

theorem pivotKeys_eq : p.pivotKeys t =
    (Grouping.ofRows (Grouping.presentKeyAt (p.pivotColumns t))
      (Grouping.outerRows (p.indexColumns t) (List.range t.rowCount))).keys := by
  rw [pivotKeys, distinctKeys_eq, rowKey_eq_presentKeyAt h.plain, h.rowGroups_eq]
  rfl

/-! ### Rows -/

theorem within_rowKey {k : Key} (hk : k ∈ (p.rowGroups t).keys) :
    Key.Within (p.indexColumns t) k := by
  rw [h.rowGroups_eq] at hk
  exact h.ordered.left.within_of_mem_keys hk

theorem within_pivotKey {q : Key} (hq : q ∈ p.pivotKeys t) : Key.Within (p.pivotColumns t) q := by
  rw [h.pivotKeys_eq] at hq
  exact (Grouping.ordered_outerRows h.ordered).within_of_mem_keys hq

theorem within_summaryKey {g : Key} (hg : g ∈ (p.summary.rowGroups t).keys) :
    Key.Within (p.indexColumns t ++ p.pivotColumns t) g := by
  rw [h.summary_rowGroups_eq] at hg
  exact h.ordered.within_of_mem_keys hg

theorem ascending_rowKeys : Grouping.Ascending (p.rowGroups t).keys := by
  rw [h.rowGroups_eq]
  exact h.ordered.left.ascending

theorem ascending_pivotKeys : Grouping.Ascending (p.pivotKeys t) := by
  rw [h.pivotKeys_eq]
  exact (Grouping.ordered_outerRows h.ordered).ascending

/-- The groups of the index do not change when they are put under their keys once more. -/
theorem gathered_rowGroups : (p.rowGroups t).gathered = p.rowGroups t :=
  Grouping.gathered_eq_self h.ascending_rowKeys

theorem outputKeys_eq : p.outputKeys t = (p.rowGroups t).keys := by
  rw [Pivot.outputKeys_eq, h.gathered_rowGroups]

theorem rowCount_result : (p.result t).rowCount = (p.rowGroups t).keys.length := by
  rw [result_eq h.plain, Table.rowCount_keyColumns h.index_ne_nil, h.outputKeys_eq]

theorem leadingKey_result {i : Nat} (hi : i < (p.rowGroups t).keys.length) :
    (p.result t).leadingKey p.index.length i = (p.rowGroups t).keys[i] := by
  rw [result_eq h.plain, h.outputKeys_eq]
  refine Table.leadingKey_keyColumns hi ?_
  rw [← (h.within_rowKey (List.getElem_mem hi)).length_eq, indexColumns, List.length_map]

theorem rowCount_summary :
    (p.summary.result t).rowCount = (p.summary.rowGroups t).keys.length :=
  Table.rowCount_keyColumns (List.append_ne_nil_of_left_ne_nil h.index_ne_nil _)

theorem leadingKey_summary {j : Nat} (hj : j < (p.summary.rowGroups t).keys.length) :
    (p.summary.result t).leadingKey (p.index.length + p.columns.length) j =
      (p.summary.rowGroups t).keys[j] := by
  rw [← List.length_append]
  refine Table.leadingKey_keyColumns hj ?_
  rw [← (h.within_summaryKey (List.getElem_mem hj)).length_eq]
  simp [indexColumns, pivotColumns, summary]

variable {i q j a : Nat} (hi : i < (p.rowGroups t).keys.length) (hq : q < (p.pivotKeys t).length)
  (hj : j < (p.summary.rowGroups t).keys.length) (ha : a < p.aggregates.length)

theorem sameGroup_iff : p.SameGroup (p.result t) (p.summary.result t) (p.pivotKeys t) i q j ↔
    Key.order ((p.rowGroups t).keys[i] ++ (p.pivotKeys t)[q])
      (p.summary.rowGroups t).keys[j] = .eq := by
  rw [SameGroup, h.leadingKey_result hi, h.leadingKey_summary hj, List.getD_eq_getElem?_getD,
    List.getElem?_eq_getElem hq, Option.getD_some]

/-! ### Cells -/

/-- The cells of a column aggregate the rows of groups in groups. -/
theorem rawCells_eq (m : Measure) (source : Column) (key : Key) :
    rawCells m source key (cellGroups (p.rowKey t) (p.rowGroups t)) =
      (p.rowGroups t).keys.map fun k ↦ aggregateOf m source (Grouping.rowsOf? key
        (Grouping.ofRows (Grouping.presentKeyAt (p.pivotColumns t))
          (Grouping.rowsWith (Grouping.presentKeyAt (p.indexColumns t)) k
            (List.range t.rowCount)))) := by
  have hgroups : p.rowGroups t = (p.rowGroups t).keys.map fun k ↦
      (k, Grouping.rowsWith (Grouping.presentKeyAt (p.indexColumns t)) k
        (List.range t.rowCount)) := by
    rw [h.rowGroups_eq]
    exact h.ordered.left.ofRows_eq
  rw [rowKey_eq_presentKeyAt h.plain, cellGroups_eq, h.gathered_rowGroups]
  -- the keys on the right stay as they are
  conv_lhs => rw [hgroups]
  rw [rawCells, List.map_map, List.map_map]
  rfl

/-- **A cell of the pivot** aggregates the rows of a group in a group. -/
theorem cell_result : (p.result t).cell (p.index.length + p.place (p.pivotKeys t).length a q) i =
    aggregateOf p.aggregates[a].measure (t.source p.aggregates[a].column)
      (Grouping.rowsOf? (p.pivotKeys t)[q]
        (Grouping.ofRows (Grouping.presentKeyAt (p.pivotColumns t))
          (Grouping.rowsWith (Grouping.presentKeyAt (p.indexColumns t)) (p.rowGroups t).keys[i]
            (List.range t.rowCount)))) := by
  have hcolumn : ((p.combined t).map (p.plainColumn t))[p.place (p.pivotKeys t).length a q]? =
      some (p.plainColumn t ((p.aggregates[a], t.source p.aggregates[a].column),
        (p.pivotKeys t)[q])) := by
    rw [List.getElem?_map, getElem?_combined ha hq, Option.map_some]
  rw [result_eq h.plain, Table.cell_keyColumns hcolumn]
  exact Column.cellAt_of_cells_eq (c := p.plainColumn t _) (h.rawCells_eq ..) hi

/-- **A cell of the summary** aggregates the rows of a group. -/
theorem cell_summary :
    (p.summary.result t).cell (p.index.length + p.columns.length + a) j =
      Summary.aggregateRows p.aggregates[a].measure (t.source p.aggregates[a].column)
        (Grouping.rowsWith (Grouping.presentKeyAt (p.indexColumns t ++ p.pivotColumns t))
          (p.summary.rowGroups t).keys[j] (List.range t.rowCount)) := by
  have hgroups : p.summary.rowGroups t = (p.summary.rowGroups t).keys.map fun k ↦
      (k, Grouping.rowsWith (Grouping.presentKeyAt (p.indexColumns t ++ p.pivotColumns t)) k
        (List.range t.rowCount)) := by
    rw [h.summary_rowGroups_eq]
    exact h.ordered.ofRows_eq
  have hcolumn : (p.summary.aggregates.map
      (Summary.valueColumn (p.summary.rowGroups t) t))[a]? =
        some (Summary.valueColumn (p.summary.rowGroups t) t p.aggregates[a]) := by
    rw [List.getElem?_map]
    exact congrArg _ (List.getElem?_eq_getElem ha)
  have hcells : (Summary.valueColumn (p.summary.rowGroups t) t p.aggregates[a]).cells =
      (p.summary.rowGroups t).keys.map fun k ↦
        Summary.aggregateRows p.aggregates[a].measure (t.source p.aggregates[a].column)
          (Grouping.rowsWith (Grouping.presentKeyAt (p.indexColumns t ++ p.pivotColumns t)) k
            (List.range t.rowCount)) := by
    rw [Summary.valueColumn]
    conv_lhs => rw [hgroups]
    rw [List.map_map]
    rfl
  rw [← List.length_append, Summary.result]
  exact (Table.cell_keyColumns hcolumn).trans (Column.cellAt_of_cells_eq hcells hj)

/-! ### Groups -/

/-- The rows of a combination in a row of the pivot are those of a row of the summary. -/
theorem rowsOf?_of_eq (heq : Key.order ((p.rowGroups t).keys[i] ++ (p.pivotKeys t)[q])
      (p.summary.rowGroups t).keys[j] = .eq) :
    Grouping.rowsOf? (p.pivotKeys t)[q]
      (Grouping.ofRows (Grouping.presentKeyAt (p.pivotColumns t))
        (Grouping.rowsWith (Grouping.presentKeyAt (p.indexColumns t)) (p.rowGroups t).keys[i]
          (List.range t.rowCount))) =
      some (Grouping.rowsWith (Grouping.presentKeyAt (p.indexColumns t ++ p.pivotColumns t))
        (p.summary.rowGroups t).keys[j] (List.range t.rowCount)) := by
  refine Grouping.rowsOf?_inner_of_eq h.ordered (h.within_rowKey (List.getElem_mem hi))
    (h.within_pivotKey (List.getElem_mem hq)) ?_ heq
  rw [← h.summary_rowGroups_eq]
  exact List.getElem_mem hj

/-- Or there are none, if the summary has no row for them. -/
theorem rowsOf?_of_forall_ne (hne : ∀ g ∈ (p.summary.rowGroups t).keys,
      Key.order ((p.rowGroups t).keys[i] ++ (p.pivotKeys t)[q]) g ≠ .eq) :
    Grouping.rowsOf? (p.pivotKeys t)[q]
      (Grouping.ofRows (Grouping.presentKeyAt (p.pivotColumns t))
        (Grouping.rowsWith (Grouping.presentKeyAt (p.indexColumns t)) (p.rowGroups t).keys[i]
          (List.range t.rowCount))) = none := by
  rw [h.summary_rowGroups_eq] at hne
  exact Grouping.rowsOf?_inner_of_forall_ne h.ordered (h.within_rowKey (List.getElem_mem hi))
    (h.within_pivotKey (List.getElem_mem hq)) hne

/-- Every combination occurs in a row of the pivot. -/
theorem exists_whole : ∃ (i : Nat) (hi : i < (p.rowGroups t).keys.length) (j : Nat)
    (hj : j < (p.summary.rowGroups t).keys.length),
      Key.order ((p.rowGroups t).keys[i] ++ (p.pivotKeys t)[q])
        (p.summary.rowGroups t).keys[j] = .eq := by
  refine exists_places (P := fun k g ↦ Key.order (k ++ (p.pivotKeys t)[q]) g = .eq) ?_
  have hmem : (p.pivotKeys t)[q] ∈ p.pivotKeys t := List.getElem_mem hq
  -- the place of the key depends on the list that is rewritten, so only the key is kept
  generalize (p.pivotKeys t)[q] = key at hmem
  rw [h.pivotKeys_eq] at hmem
  rw [h.rowGroups_eq, h.summary_rowGroups_eq]
  exact Grouping.exists_whole h.ordered hmem

/-- Every row of the summary belongs to a row of the pivot and a combination. -/
theorem exists_parts : ∃ (i : Nat) (hi : i < (p.rowGroups t).keys.length) (q : Nat)
    (hq : q < (p.pivotKeys t).length),
      Key.order ((p.rowGroups t).keys[i] ++ (p.pivotKeys t)[q])
        (p.summary.rowGroups t).keys[j] = .eq := by
  refine exists_places
    (P := fun k q ↦ Key.order (k ++ q) (p.summary.rowGroups t).keys[j] = .eq) ?_
  have hmem : (p.summary.rowGroups t).keys[j] ∈ (p.summary.rowGroups t).keys :=
    List.getElem_mem hj
  generalize (p.summary.rowGroups t).keys[j] = key at hmem
  rw [h.summary_rowGroups_eq] at hmem
  rw [h.rowGroups_eq, h.pivotKeys_eq]
  exact Grouping.exists_parts h.ordered hmem

/-- They are determined. -/
theorem parts_eq {i' q' : Nat} (hi' : i' < (p.rowGroups t).keys.length)
    (hq' : q' < (p.pivotKeys t).length)
    (heq : Key.order ((p.rowGroups t).keys[i] ++ (p.pivotKeys t)[q])
      (p.summary.rowGroups t).keys[j] = .eq)
    (heq' : Key.order ((p.rowGroups t).keys[i'] ++ (p.pivotKeys t)[q'])
      (p.summary.rowGroups t).keys[j] = .eq) : i = i' ∧ q = q' := by
  have hg := List.getElem_mem hj
  generalize (p.summary.rowGroups t).keys[j] = key at heq heq' hg
  rw [h.summary_rowGroups_eq] at hg
  obtain ⟨hrow, hcombination⟩ := Grouping.parts_eq h.ordered
    (h.within_rowKey (List.getElem_mem hi)) (h.within_pivotKey (List.getElem_mem hq))
    (h.within_rowKey (List.getElem_mem hi')) (h.within_pivotKey (List.getElem_mem hq')) hg heq heq'
  exact ⟨h.ascending_rowKeys.eq_of_order_eq hi hi' hrow,
    h.ascending_pivotKeys.eq_of_order_eq hq hq' hcombination⟩

end Suits

/-- **A pivot has what the summary by its columns has**, laid out by the pivot's cells. -/
theorem refines_result {t : Table} (h : p.Suits t) :
    p.Refines t (p.result t) (p.summary.result t) (p.pivotKeys t) where
  rows_ascending := by
    have hkeys : (List.range (p.result t).rowCount).map
        ((p.result t).leadingKey p.index.length) = (p.rowGroups t).keys := by
      refine List.ext_getElem (by simp [h.rowCount_result]) fun i hi hi' ↦ ?_
      rw [List.getElem_map, List.getElem_range, h.leadingKey_result hi']
    rw [hkeys]
    exact h.ascending_rowKeys
  exists_source i hi := by
    rw [h.rowCount_result] at hi
    have hmem := List.getElem_mem hi
    rw [← h.leadingKey_result hi, h.rowGroups_eq] at hmem
    obtain ⟨r, hr, hkey⟩ := Grouping.exists_of_mem_keys hmem
    exact ⟨r, List.mem_range.1 hr, hkey⟩
  exists_row r hr k hk := by
    obtain ⟨k', hk', heq⟩ := h.ordered.left.exists_key (List.mem_range.2 hr) hk
    rw [← h.rowGroups_eq] at hk'
    obtain ⟨i, hi, rfl⟩ := List.getElem_of_mem hk'
    refine ⟨i, h.rowCount_result ▸ hi, ?_⟩
    rw [h.leadingKey_result hi]
    exact heq
  keys_ascending := h.ascending_pivotKeys
  exists_group q hq := by
    obtain ⟨i, hi, j, hj, heq⟩ := h.exists_whole hq
    exact ⟨i, h.rowCount_result ▸ hi, j, h.rowCount_summary ▸ hj,
      (h.sameGroup_iff hi hq hj).2 heq⟩
  length_columns := by
    rw [result_eq h.plain, List.length_append, Summary.length_keyColumns, List.length_map, combined,
      length_combinations, List.length_map]
    rfl
  index_names := by
    rw [result_eq h.plain, ← Summary.length_keyColumns (p.outputKeys t) p.index, List.take_left,
      Summary.names_keyColumns]
  value_name a ha q hq := by
    rw [result_eq h.plain, ← Summary.length_keyColumns (p.outputKeys t) p.index,
      List.getElem?_append_right (Nat.le_add_right ..), Nat.add_sub_cancel_left, List.getElem?_map,
      getElem?_combined ha hq]
    rfl
  summary_names := by
    rw [Summary.result, List.map_append, Summary.names_keyColumns, List.map_append, List.map_map,
      List.map_map]
    rfl
  cell_eq i hi a ha q hq j hj hsame := by
    rw [h.rowCount_result] at hi
    rw [h.rowCount_summary] at hj
    have heq := (h.sameGroup_iff hi hq hj).1 hsame
    rw [h.cell_result hi hq ha, h.cell_summary hj ha, h.rowsOf?_of_eq hi hq hj heq]
    rfl
  cell_absent i hi a ha q hq hnone := by
    rw [h.rowCount_result] at hi
    rw [h.rowCount_summary] at hnone
    have hne : ∀ g ∈ (p.summary.rowGroups t).keys,
        Key.order ((p.rowGroups t).keys[i] ++ (p.pivotKeys t)[q]) g ≠ .eq := by
      intro g hg heq
      obtain ⟨j, hj, rfl⟩ := List.getElem_of_mem hg
      exact hnone j hj ((h.sameGroup_iff hi hq hj).2 heq)
    rw [h.cell_result hi hq ha, h.rowsOf?_of_forall_ne hi hq hne]
    rfl
  existsUnique j hj := by
    rw [h.rowCount_summary] at hj
    obtain ⟨i, hi, q, hq, heq⟩ := h.exists_parts hj
    refine ⟨(i, q), ⟨h.rowCount_result ▸ hi, hq, (h.sameGroup_iff hi hq hj).2 heq⟩, ?_⟩
    rintro ⟨i', q'⟩ ⟨hi', hq', hsame⟩
    rw [h.rowCount_result] at hi'
    have heq' := (h.sameGroup_iff hi' hq' hj).1 hsame
    obtain ⟨rfl, rfl⟩ := h.parts_eq hi hq hj hi' hq' heq heq'
    rfl

/-- **Pivots are summaries, laid out.**  For options that neither fill nor drop anything, with an
operator for every aggregate, the summary with the same aggregates by the columns of the index and
the pivot columns can be asked for as well.  On a table in whose columns the order of cells is
transitive, both report the same missing columns, or the pivot is the summary laid out. -/
theorem refines_summary_of_ofOptions {index columns : List String}
    {aggregates : OrderedMap AggregateSpec} {keyFirst : Bool} {t : Table}
    (hp : ofOptions ⟨index, columns, aggregates, none, none, false, keyFirst⟩ = .ok p)
    (hoperators : ∀ entry ∈ aggregates.entries, entry.2.operator.isSome) (ht : t.Rectangular)
    (horder : ∀ name ∈ index ++ columns,
      TransitiveOn Cell.order (· ∈ (t.source name).cells)) :
    ∃ s, Summary.ofOptions ⟨index ++ columns, aggregates⟩ = .ok s ∧
      ((∃ e, p.apply t = .error e ∧ s.apply t = .error e) ∨
        ∃ P G keys, p.apply t = .ok P ∧ s.apply t = .ok G ∧ p.Refines t P G keys) := by
  obtain ⟨as, hindex, -, has, hplain⟩ := ofOptions_eq_ok hp
  have hpivot : p = ⟨index, columns, as, none, none, false, keyFirst⟩ := hplain
  subst hpivot
  refine ⟨⟨index ++ columns, as⟩, ?_, ?_⟩
  · rw [Summary.ofOptions, AggregateSpec.resolveAll_of_isSome hoperators none (some .sum), has]
    rfl
  · rw [apply_eq, Summary.apply_eq]
    have hneeded : Summary.needed ⟨index ++ columns, as⟩ =
        needed ⟨index, columns, as, none, none, false, keyFirst⟩ := rfl
    rw [hneeded]
    cases hall : t.requireAll (needed ⟨index, columns, as, none, none, false, keyFirst⟩) with
    | error e => exact .inl ⟨e, rfl, rfl⟩
    | ok u =>
      exact .inr ⟨_, _, _, rfl, rfl, refines_result
        ⟨⟨rfl, rfl, rfl⟩, hindex, ht, Table.requireAll_eq_ok_iff.1 hall, horder⟩⟩

/-- A count of sales. -/
def salesCount : OrderedMap AggregateSpec := ⟨[("n", ⟨some "sales", some "count", []⟩)], by decide⟩

/-- Sales by day and region, of which one has no region. -/
def regionalSales : Table := ⟨[
  ⟨.plain "day", [.text "monday", .text "tuesday", .text "monday"]⟩,
  ⟨.plain "region", [.text "north", .absent, .text "south"]⟩,
  ⟨.plain "sales", [.int 5, .int 7, .int 9]⟩]⟩

/-- They are texts, and so their order is transitive. -/
theorem transitiveOn_regionalSales : ∀ name ∈ ["day", "region"],
    TransitiveOn Cell.order (· ∈ (regionalSales.source name).cells) := by
  have hcells : ∀ name ∈ ["day", "region"], ∀ a ∈ (regionalSales.source name).cells,
      ∀ b ∈ (regionalSales.source name).cells, ∀ c ∈ (regionalSales.source name).cells,
        (a.order b).isLE → (b.order c).isLE → (a.order c).isLE := by
    decide +kernel
  exact fun name hname a b c ha hb hc ↦ hcells name hname a ha b hb c hc

/-- Sales of each day by region are laid out as the sales of each day and region. -/
theorem salesCount_refines_regionalSales :
    ∃ p s P G keys, ofOptions ⟨["day"], ["region"], salesCount, none, none, false, true⟩ = .ok p ∧
      Summary.ofOptions ⟨["day", "region"], salesCount⟩ = .ok s ∧ regionalSales.Rectangular ∧
      p.apply regionalSales = .ok P ∧ s.apply regionalSales = .ok G ∧
      p.Refines regionalSales P G keys := by
  have hp : ofOptions ⟨["day"], ["region"], salesCount, none, none, false, true⟩ =
      .ok ⟨["day"], ["region"], [⟨"n", "sales", .count⟩], none, none, false, true⟩ := by
    decide +kernel
  have ht : regionalSales.Rectangular := by decide
  obtain ⟨s, hs, herror | ⟨P, G, keys, hP, hG, hrefines⟩⟩ :=
    refines_summary_of_ofOptions hp (by decide) ht transitiveOn_regionalSales
  · obtain ⟨e, he, -⟩ := herror
    have hfound : (apply ⟨["day"], ["region"], [⟨"n", "sales", .count⟩], none, none, false, true⟩
        regionalSales).isOk = true := by decide +kernel
    rw [he] at hfound
    cases hfound
  · exact ⟨_, s, P, G, keys, hp, hs, ht, hP, hG, hrefines⟩

end Pivot

end ChartFeed
