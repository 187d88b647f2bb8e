import ChartFeed.Proofs.Transform.Overflow
import ChartFeed.Proofs.Transform.Windows

/-!
# Windows that reach back to the first row

A window may have as many rows as the table, or more.  In each row it covers that row and all rows
before it, so a rolling statistic is a summary of the first rows of the table.  The two go different
ways to it: a window is cut out of the numbers of a column, while a summary looks up the cells of a
group row by row; and each of them says for itself what becomes of rows without numbers.

* `RollingStatistic.measure?` — the measure of groups that a statistic of windows agrees with.
* `RollingStatistic.cell_one_eq` — they agree on any cells, numbers or not, when one number is
  enough for a window to have a value.
* `Summary.apply_first` — what a summary without grouping columns makes of the first rows.
* `Rolling.fullWindow_eq_summary` — every row of a rolling column is a summary of the rows so far,
  and the last row is one of the whole table, for all statistics that requests name by one word in
  both transforms.
-/

set_option autoImplicit false

namespace ChartFeed

/-! ## Statistics of windows and of groups -/

namespace RollingStatistic

/-- The measure of groups that computes the same.  Counts of a window leave out cells that are not
numbers, and its variances divide by one fewer, so they have none. -/
def measure? : RollingStatistic → Option Measure
  | .sum => some .sum
  | .mean => some .mean
  | .least => some .least
  | .greatest => some .greatest
  | .median => some .median
  | .count | .deviation | .variance | .quantile _ => none

variable {s : RollingStatistic} {m : Measure}

theorem ne_count_of_measure? (h : s.measure? = some m) : s ≠ .count ∧ m ≠ .count := by
  cases s <;> cases h <;> exact ⟨nofun, nofun⟩

theorem ofNumbers_eq (h : s.measure? = some m) (xs : List Float) :
    s.ofNumbers xs = m.ofNumbers xs := by
  cases s <;> cases h <;> rfl

/-- **A window and a group with the same cells have the same value**, when one number is enough for
the window. -/
theorem cell_one_eq (h : s.measure? = some m) (cells : List Cell) :
    s.cell 1 (cells.filterMap Cell.toFloat?) = m.of cells := by
  obtain ⟨hs, hm⟩ := ne_count_of_measure? h
  rw [Measure.of_eq hm]
  split
  · next hnil =>
    rw [hnil]
    exact cell_of_lt hs Nat.zero_lt_one
  · next hne =>
    rw [cell_of_le hs (List.length_pos_iff.2 hne) hne, ofNumbers_eq h]

end RollingStatistic

namespace RollingMode

/-- A window with more rows than there are so far has all of them. -/
theorem presentAt_of_le {values : List (Option Float)} {size row : Nat} (h : row + 1 ≤ size) :
    presentAt values size row = (values.take (row + 1)).filterMap id := by
  rw [presentAt, Nat.sub_eq_zero_of_le h, List.drop_zero]

/-- **A row of a full window** has the value of the cells so far. -/
theorem getElem?_cells_of_le {s : RollingStatistic} {m : Measure} (hs : s.measure? = some m)
    {w : RollingWindow} (hminimum : w.minimum = 1) {c : Column} {row : Nat}
    (hrow : row < c.cells.length) (hsize : row + 1 ≤ w.size) :
    ((windowed s w).cells c.numbers)[row]? = some (m.of (c.cells.take (row + 1))) := by
  have hlength : c.numbers.length = c.cells.length := List.length_map ..
  have hpresent : presentAt c.numbers w.size row =
      (c.cells.take (row + 1)).filterMap Cell.toFloat? := by
    rw [presentAt_of_le hsize, Column.numbers, ← List.map_take, List.filterMap_map]
    rfl
  rw [cells, List.getElem?_map, List.getElem?_range (hlength ▸ hrow), Option.map_some, hpresent,
    hminimum, RollingStatistic.cell_one_eq hs]

end RollingMode

/-! ## Summaries of the first rows -/

namespace Summary

variable {u : Summary} {t : Table}

/-- Without grouping columns there is one group, which has all rows. -/
theorem columns_result_of_groupby_nil (hgroupby : u.groupby = []) (t : Table) :
    (u.result t).columns = u.aggregates.map fun a ↦
      ⟨.plain a.name, [aggregateRows a.measure (t.source a.column) (List.range t.rowCount)]⟩ := by
  have hgroups : u.rowGroups t = [([], List.range t.rowCount)] :=
    rowGroups_of_isEmpty (List.isEmpty_iff.2 hgroupby)
  rw [result, hgroupby, hgroups]
  rfl

/-- **A summary of the first rows** has one row, with the measures of the cells in them. -/
theorem apply_first (ht : t.Rectangular) (hgroupby : u.groupby = []) (h : t.HasColumns u.needed)
    (hnames : (u.aggregates.map Aggregate.name).Nodup) {n : Nat} (hn : n ≤ t.rowCount) :
    ∃ out, u.apply (t.takeRows (List.range n)) = .ok out ∧ ∀ a ∈ u.aggregates,
      out.column? a.name =
        some ⟨.plain a.name, [a.measure.of ((t.source a.column).cells.take n)]⟩ := by
  refine ⟨_, apply_eq_ok_iff.2 ⟨Table.hasColumns_takeRows_iff.2 h, rfl⟩, fun a ha ↦ ?_⟩
  have hsources := (Table.hasColumns_append.1 h).2
  have hsource : a.column ∈ u.aggregates.map Aggregate.column := List.mem_map_of_mem ha
  have hlength : n ≤ (t.source a.column).cells.length := by
    rwa [ht.length_source hsources hsource]
  have hcolumns : t.columns ≠ [] := List.ne_nil_of_mem (hsources.source_mem hsource)
  have hcells : aggregateRows a.measure ((t.takeRows (List.range n)).source a.column)
      (List.range (t.takeRows (List.range n)).rowCount) =
        a.measure.of ((t.source a.column).cells.take n) := by
    have htaken := Table.source_takeRows hsources hsource (List.range n)
    rw [Column.map_cellAt_range hlength] at htaken
    have hall : n ≤ ((t.takeRows (List.range n)).source a.column).cells.length := by
      rw [htaken, List.length_take, Nat.min_eq_left hlength]
    rw [Table.rowCount_takeRows hcolumns, List.length_range, aggregateRows,
      Column.map_cellAt_range hall, htaken, List.take_take, Nat.min_self]
  refine Table.column?_eq_of_mem ?_ ?_ rfl
  · rw [columns_result_of_groupby_nil hgroupby, List.map_map]
    have hplain : Function.Injective ColumnName.plain := fun _ _ h ↦ by
      simpa [ColumnName.plain] using h
    have hplainNames := hnames.map hplain
    rwa [List.map_map] at hplainNames
  · rw [columns_result_of_groupby_nil hgroupby, ← hcells]
    exact List.mem_map_of_mem (f := fun a : Aggregate ↦ (_ : Column)) ha

/-- The aggregate that options mean by a name, when a word names its operator. -/
theorem mem_aggregates_of_operator? {a : Options} (h : ofOptions a = .ok u) {name : String}
    {spec : AggregateSpec} (hspec : (name, spec) ∈ a.aggregates.entries) {word : String}
    (hword : spec.operator.map AggregateSpec.plainName = some word) {m : Measure}
    (hm : AggregateSpec.operator? word = some (some m)) :
    ⟨name, spec.column.getD name, m⟩ ∈ u.aggregates := by
  obtain ⟨as, has, rfl⟩ := map_eq_ok.1 h
  obtain ⟨b, hb, hresolve⟩ := AggregateSpec.exists_of_mem_resolveAll has hspec
  obtain ⟨m', hmeasure, rfl⟩ := AggregateSpec.resolve_eq_ok hresolve
  obtain ⟨chosen, hnamed, hsettle⟩ := AggregateSpec.measure_eq_settle hmeasure
  obtain ⟨written, hwritten, rfl⟩ := Option.map_eq_some_iff.1 hword
  rw [hwritten, AggregateSpec.named, hm] at hnamed
  cases hnamed
  rwa [AggregateSpec.withoutStray_eq_ok hsettle]

/-- No name of an aggregate repeats. -/
theorem nodup_names_of_ofOptions {a : Options} (h : ofOptions a = .ok u) :
    (u.aggregates.map Aggregate.name).Nodup := by
  obtain ⟨as, has, rfl⟩ := map_eq_ok.1 h
  exact (AggregateSpec.names_of_resolveAll has).symm ▸ a.aggregates.nodup

end Summary

/-! ## Windows with all rows -/

namespace Rolling

/-- The words that name a statistic of windows and the same measure of groups. -/
def sharedWords : List String := ["sum", "mean", "min", "max", "median"]

/-- **A shared word means the same** to both transforms. -/
theorem measure?_of_mem_sharedWords {word : String} (hword : word ∈ sharedWords)
    {type : RollingType} (htype : (word, type) ∈ RollingOptions.types) :
    ∃ s m, type = .plain s ∧ s.measure? = some m ∧
      AggregateSpec.operator? word = some (some m) := by
  have hnodup : (Dict.keys RollingOptions.types).Nodup := by decide
  have hget := Dict.get?_of_mem hnodup htype
  simp only [sharedWords, List.mem_cons, List.not_mem_nil, or_false] at hword
  rcases hword with rfl | rfl | rfl | rfl | rfl <;> cases hget <;> exact ⟨_, _, rfl, rfl, rfl⟩

/-- Options for a statistic of windows that reach back to the first row of a table, each with a
value as soon as there is a number in it. -/
structure FullWindow (word : String) (o : RollingOptions) (t : Table) : Prop where
  type : (word, o.type) ∈ RollingOptions.types
  window : ∃ size, o.window = some size ∧ t.rowCount ≤ size
  minimum : o.minimum = some 1
  typeOptions : o.typeOptions.getD [] = []
  columns : t.HasColumns o.columns.keys

variable {word : String} {o : RollingOptions} {t : Table}

/-- What options for full windows mean. -/
theorem FullWindow.exists_ofOptions (h : FullWindow word o t) (hrows : 0 < t.rowCount)
    {s : RollingStatistic} (hs : o.type = .plain s) :
    ∃ w, ofOptions o = .ok ⟨o.columns, .windowed s w⟩ ∧ t.rowCount ≤ w.size ∧ w.minimum = 1 := by
  obtain ⟨size, hsize, hle⟩ := h.window
  have hpos : 0 < size := Nat.lt_of_lt_of_le hrows hle
  refine ⟨⟨size, 1, hpos, hpos⟩, ?_, hle, rfl⟩
  have hwindow : o.rollingWindow = .ok ⟨size, 1, hpos, hpos⟩ := by
    simp only [RollingOptions.rollingWindow, hsize, h.minimum]
    rw [dif_pos hpos, dif_pos (Nat.succ_le_of_lt hpos)]
  rw [ofOptions, RollingOptions.mode, h.typeOptions, hs, hwindow]
  rfl

/-- **A full window is a summary of the rows so far.**  Take a word that names a statistic in both
transforms, rolling options with it whose windows have room for all rows and need one number, and a
summary without grouping columns.  Both can be applied, and a rolling column has one cell for each
row of the table.  Next to an aggregate of the same source with the same operator, the last cell of
the column is the cell that the summary makes of the table, and the cell in any row is the one that
it makes of the table sliced down to the rows so far. -/
theorem fullWindow_eq_summary (hword : word ∈ sharedWords) (ho : FullWindow word o t)
    (ht : t.Rectangular) (hrows : 0 < t.rowCount) {a : Summary.Options} {u : Summary}
    (hu : Summary.ofOptions a = .ok u) (hgroupby : a.groupby = [])
    (hneeded : t.HasColumns u.needed) :
    ∃ r out whole, ofOptions o = .ok r ∧ r.apply t = .ok out ∧ u.apply t = .ok whole ∧
      ∀ dest source, (dest, source) ∈ storedSources o.columns.entries →
        ∀ name spec, (name, spec) ∈ a.aggregates.entries →
          spec.operator.map AggregateSpec.plainName = some word → spec.column.getD name = source →
            ∃ cells last, out.column? dest = some ⟨.plain dest, cells⟩ ∧
              cells.length = t.rowCount ∧ cells.getLast? = some last ∧
              whole.column? name = some ⟨.plain name, [last]⟩ ∧
              ∀ row (_ : row < cells.length), ∃ first,
                u.apply (t.slice 0 (row + 1)) = .ok first ∧
                  first.column? name = some ⟨.plain name, [cells[row]]⟩ := by
  obtain ⟨s, m, hs, hm, hoperator⟩ := measure?_of_mem_sharedWords hword ho.type
  obtain ⟨w, hr, hsize, hminimum⟩ := ho.exists_ofOptions hrows hs
  obtain ⟨out, hout, hstored⟩ := Table.exists_assign ho.columns (RollingMode.windowed s w).cells
  have hnone : u.groupby = [] := by
    obtain ⟨as, -, rfl⟩ := map_eq_ok.1 hu
    exact hgroupby
  have hnames := Summary.nodup_names_of_ofOptions hu
  obtain ⟨whole, hwhole, hlast⟩ := Summary.apply_first ht hnone hneeded hnames (Nat.le_refl _)
  rw [ht.takeRows_range] at hwhole
  refine ⟨_, out, whole, hr, hout, hwhole, ?_⟩
  rintro dest source hdest name spec hspec hwritten rfl
  have hmem := Summary.mem_aggregates_of_operator? hu hspec hwritten hoperator
  have hsource : spec.column.getD name ∈ o.columns.keys :=
    List.mem_map_of_mem (f := Prod.fst) (mem_of_mem_storedSources hdest)
  have hlength : (t.source (spec.column.getD name)).cells.length = t.rowCount :=
    ht.length_source ho.columns hsource
  -- the cell in each row is the measure of the cells so far
  have hcell {row : Nat} (hrow : row < t.rowCount) :=
    RollingMode.getElem?_cells_of_le hm hminimum (hlength.symm ▸ hrow)
      (Nat.le_trans (Nat.succ_le_of_lt hrow) hsize)
  have hcells : ((RollingMode.windowed s w).cells
      (t.source (spec.column.getD name)).numbers).length = t.rowCount := by
    rw [RollingMode.length_cells, Column.numbers, List.length_map, hlength]
  have hend : t.rowCount - 1 + 1 = t.rowCount := Nat.sub_add_cancel hrows
  refine ⟨_, _, hstored dest _ hdest, hcells, ?_, hlast _ hmem, fun row hrow ↦ ?_⟩
  · rw [List.getLast?_eq_getElem?, hcells, hcell (Nat.sub_lt hrows Nat.zero_lt_one), hend]
  · have hle : row + 1 ≤ t.rowCount := Nat.succ_le_of_lt (hcells ▸ hrow)
    obtain ⟨first, hfirst, hcolumn⟩ := Summary.apply_first ht hnone hneeded hnames hle
    refine ⟨first, ?_, ?_⟩
    · rwa [Table.slice_zero (Nat.succ_pos row) hle]
    · have hget := hcell (hcells ▸ hrow)
      rw [List.getElem?_eq_getElem hrow] at hget
      rw [Option.some.inj hget]
      exact hcolumn _ hmem

/-- A text, no value, a truth value and a number. -/
def mixedReadings : Table :=
  ⟨[⟨.plain "reading", [.text "n/a", .absent, .bool true, .int 3]⟩]⟩

/-- Means of as many rows as there are readings. -/
def meanOfReadings : RollingOptions :=
  ⟨⟨[("reading", "so far")], by decide⟩, .plain .mean, some 4, none, some 1⟩

/-- The mean of all readings. -/
def meanReading : Summary.Options := ⟨[], ⟨[("reading", ⟨none, some "mean", []⟩)], by decide⟩⟩

/-- The mean so far ends with the mean of all readings, and starts with that of the first. -/
theorem fullWindow_eq_summary_mixedReadings :
    ∃ r out u whole, "mean" ∈ sharedWords ∧ FullWindow "mean" meanOfReadings mixedReadings ∧
      mixedReadings.Rectangular ∧ 0 < mixedReadings.rowCount ∧
      Summary.ofOptions meanReading = .ok u ∧ meanReading.groupby = [] ∧
      mixedReadings.HasColumns u.needed ∧ ofOptions meanOfReadings = .ok r ∧
      r.apply mixedReadings = .ok out ∧ u.apply mixedReadings = .ok whole ∧
      whole = ⟨[⟨.plain "reading", [.float 2.0]⟩]⟩ ∧
      ∃ first cells, u.apply (mixedReadings.slice 0 1) = .ok first ∧
        out.column? "so far" = some ⟨.plain "so far", cells⟩ ∧ cells.getLast? = some (.float 2.0) ∧
        first.column? "reading" = some ⟨.plain "reading", cells.take 1⟩ := by
  have hword : "mean" ∈ sharedWords := by decide
  have hwindow : FullWindow "mean" meanOfReadings mixedReadings :=
    ⟨by decide, ⟨4, rfl, by decide⟩, rfl, rfl, by decide⟩
  have hu : Summary.ofOptions meanReading = .ok ⟨[], [⟨"reading", "reading", .mean⟩]⟩ := by
    decide +kernel
  obtain ⟨r, out, whole, hr, hout, hwhole, hall⟩ :=
    fullWindow_eq_summary hword hwindow (by decide) (by decide) hu rfl (by decide)
  have hvalue : whole = ⟨[⟨.plain "reading", [.float 2.0]⟩]⟩ := by
    have hcomputed : Summary.apply ⟨[], [⟨"reading", "reading", .mean⟩]⟩ mixedReadings =
        .ok ⟨[⟨.plain "reading", [.float 2.0]⟩]⟩ := by
      decide +kernel
    exact Except.ok.inj (hwhole.symm.trans hcomputed)
  obtain ⟨cells, last, hcells, hlength, hlast, hsame, hrows⟩ :=
    hall "so far" "reading" (by decide) "reading" ⟨none, some "mean", []⟩ (by decide)
      (by decide +kernel) rfl
  have hpos : 0 < cells.length := by
    rw [hlength]
    decide
  obtain ⟨first, hfirst, hcolumn⟩ := hrows 0 hpos
  refine ⟨r, out, _, whole, hword, hwindow, by decide, by decide, hu, rfl, by decide, hr, hout,
    hwhole, hvalue, first, cells, hfirst, hcells, ?_, ?_⟩
  · rw [hvalue] at hsame
    cases hsame
    exact hlast
  · rwa [List.take_one, List.head?_eq_getElem?, List.getElem?_eq_getElem hpos]

end Rolling

end ChartFeed
