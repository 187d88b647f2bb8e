import ChartFeed.Proofs.Decimal.Value
import ChartFeed.Proofs.Table.Regrouping
import ChartFeed.Proofs.Transform.Counts
import ChartFeed.Proofs.Transform.Reordering

/-!
# Summaries do not depend on the order of rows

Some measures read the cells of a group in the order of its rows, and their rounding depends on it.
Counts do not, and neither do the median and percentiles, which put the numbers in order first.

* `Statistics.sorted_eq_of_perm` — there is one way to put doubles in order.
* `Measure.of_eq_of_perm` — so these measures are the same for rearranged cells.
* `Summary.result_takeRows` — a summary of rows that are taken from a table has the groups of these
  rows in the table.
* `Summary.agree_of_perm` — with such measures only, and grouping columns whose cells are compared
  transitively, summaries of rearranged rows agree.
-/

set_option autoImplicit false

namespace ChartFeed

/-! ## Doubles in order -/

namespace Statistics

open Decimal (orderKey)

theorem perm_insertSorted (x : Float) (xs : List Float) : (insertSorted x xs).Perm (x :: xs) := by
  induction xs with
  | nil => exact .refl _
  | cons y rest ih =>
    rw [insertSorted]
    split
    · exact .refl _
    · exact (ih.cons y).trans (.swap x y rest)

theorem perm_sorted (xs : List Float) : (sorted xs).Perm xs := by
  induction xs with
  | nil => exact .refl _
  | cons x rest ih => exact (perm_insertSorted x (sorted rest)).trans (ih.cons x)

theorem pairwise_insertSorted {x : Float} {xs : List Float}
    (h : xs.Pairwise fun a b ↦ orderKey a ≤ orderKey b) :
    (insertSorted x xs).Pairwise fun a b ↦ orderKey a ≤ orderKey b := by
  induction xs with
  | nil => exact List.pairwise_singleton ..
  | cons y rest ih =>
    obtain ⟨hy, hrest⟩ := List.pairwise_cons.1 h
    rw [insertSorted]
    split
    · next hlt =>
      refine List.pairwise_cons.2 ⟨List.forall_mem_cons.2 ⟨hlt.le, fun z hz ↦ ?_⟩, h⟩
      exact hlt.le.trans (hy z hz)
    · next hge =>
      refine List.pairwise_cons.2 ⟨fun z hz ↦ ?_, ih hrest⟩
      rcases List.mem_cons.1 ((perm_insertSorted x rest).mem_iff.1 hz) with rfl | hz
      · exact not_lt.1 hge
      · exact hy z hz

theorem pairwise_sorted (xs : List Float) :
    (sorted xs).Pairwise fun a b ↦ orderKey a ≤ orderKey b := by
  induction xs with
  | nil => exact .nil
  | cons x rest ih => exact pairwise_insertSorted ih

variable {xs ys : List Float}

/-- **There is one way to put doubles in order**, since only equal doubles have the same place. -/
theorem sorted_eq_of_perm (h : xs.Perm ys) : sorted xs = sorted ys := by
  have hperm : (sorted xs).Perm (sorted ys) :=
    (perm_sorted xs).trans (h.trans (perm_sorted ys).symm)
  exact hperm.eq_of_pairwise
    (fun a b _ _ hab hba ↦ Decimal.orderKey_injective (le_antisymm hab hba))
    (pairwise_sorted xs) (pairwise_sorted ys)

theorem quantile_eq_of_perm (h : xs.Perm ys) (p : Float) : quantile xs p = quantile ys p := by
  have hempty : xs.isEmpty = ys.isEmpty := h.isEmpty_eq
  rw [quantile, quantile, hempty, h.length_eq, sorted_eq_of_perm h]

end Statistics

/-! ## Measures -/

namespace Measure

/-- Measures that do not depend on the order of cells. -/
def OrderFree : Measure → Prop
  | .count | .median | .percentile _ => True
  | .sum | .mean | .least | .greatest | .product | .deviation | .variance => False

theorem ofNumbers_eq_of_perm {m : Measure} (hm : m.OrderFree) {xs ys : List Float}
    (h : xs.Perm ys) : m.ofNumbers xs = m.ofNumbers ys := by
  cases m with
  | count => rfl
  | median => exact Statistics.quantile_eq_of_perm h _
  | percentile q => exact Statistics.quantile_eq_of_perm h _
  | sum | mean | least | greatest | product | deviation | variance => cases hm

/-- **Rearranged cells have the same measure.** -/
theorem of_eq_of_perm {m : Measure} (hm : m.OrderFree) {cells cells' : List Cell}
    (h : cells.Perm cells') : m.of cells = m.of cells' := by
  by_cases hcount : m = .count
  · subst hcount
    have hlength := (h.filter fun c ↦ !c.isAbsent).length_eq
    rw [Measure.of, Measure.of, hlength]
  · have hnumbers : (cells.filterMap Cell.toFloat?).Perm (cells'.filterMap Cell.toFloat?) :=
      h.filterMap _
    have hnone : cells.filterMap Cell.toFloat? = [] ↔ cells'.filterMap Cell.toFloat? = [] := by
      rw [← List.isEmpty_iff, hnumbers.isEmpty_eq, List.isEmpty_iff]
    rw [of_eq hcount, of_eq hcount, ofNumbers_eq_of_perm hm hnumbers]
    simp only [hnone]

end Measure

namespace AggregateSpec

/-- The names of measures that do not depend on the order of cells. -/
def orderFreeWords : List String := ["count", "median", "percentile"]

/-- What these names mean does not depend on the order of cells. -/
theorem orderFree_of_measure {spec : AggregateSpec} {m : Measure} {word : String}
    (hspec : spec.operator.map plainName = some word) (hword : word ∈ orderFreeWords)
    (h : spec.measure none = .ok m) : m.OrderFree := by
  obtain ⟨written, hwritten, rfl⟩ := Option.map_eq_some_iff.1 hspec
  obtain ⟨chosen, hnamed, hsettle⟩ := measure_eq_settle h
  rw [hwritten, named] at hnamed
  have hchosen : chosen = some .count ∨ chosen = some .median ∨ chosen = none := by
    simp only [orderFreeWords, List.mem_cons, List.not_mem_nil, or_false] at hword
    rcases hword with h | h | h <;> rw [h] at hnamed <;> cases hnamed
    · exact .inl rfl
    · exact .inr (.inl rfl)
    · exact .inr (.inr rfl)
  rcases hchosen with rfl | rfl | rfl
  · rw [← withoutStray_eq_ok hsettle]
    trivial
  · rw [← withoutStray_eq_ok hsettle]
    trivial
  · obtain ⟨m', hpercentile, hstray⟩ := bind_eq_ok.1 hsettle
    rw [← withoutStray_eq_ok hstray]
    rw [percentile] at hpercentile
    split at hpercentile
    · cases hpercentile
    · split at hpercentile <;> cases hpercentile
      trivial

end AggregateSpec

/-! ## Tables with other rows -/

namespace Table

variable {t : Table} {rows : List Nat}

theorem cellAt_source_takeRows (t : Table) (name : String) {row : Nat} (hrow : row < rows.length) :
    ((t.takeRows rows).source name).cellAt row = (t.source name).cellAt (rows.getD row 0) := by
  rw [source, source, column?_takeRows]
  cases t.column? name with
  | none => rfl
  | some c =>
    show (rows.map c.cellAt).getD row .absent = c.cellAt (rows.getD row 0)
    rw [List.getD_eq_getElem _ _ (by rwa [List.length_map]), List.getElem_map,
      List.getD_eq_getElem _ _ hrow]

theorem missing_takeRows (t : Table) (rows : List Nat) (names : List String) :
    (t.takeRows rows).missing names = t.missing names := by
  simp only [missing, column?_takeRows, Option.isNone_map]

/-- A rearranged table has as many rows. -/
theorem rowCount_takeRows_of_perm (h : rows.Perm (List.range t.rowCount)) :
    (t.takeRows rows).rowCount = rows.length := by
  by_cases hcolumns : t.columns = []
  · have hlength : rows.length = t.rowCount := by rw [h.length_eq, List.length_range]
    rw [hlength, takeRows, rowCount, rowCount, hcolumns]
    rfl
  · exact rowCount_takeRows hcolumns rows

theorem rowCount_eq_of_forall₂ {t' : Table}
    (h : List.Forall₂ (fun c c' ↦ c.cells.length = c'.cells.length) t.columns t'.columns) :
    t.rowCount = t'.rowCount := by
  obtain ⟨columns⟩ := t
  obtain ⟨columns'⟩ := t'
  change List.Forall₂ _ columns columns' at h
  cases h with
  | nil => rfl
  | cons hfirst _ => exact hfirst

end Table

/-! ## Summaries -/

namespace Summary

variable {u : Summary} {t : Table} {rows : List Nat}

/-- The groups of some rows of a table. -/
def groupsAmong (u : Summary) (t : Table) (rows : List Nat) : Grouping :=
  if u.groupby.isEmpty then [([], rows)]
  else Grouping.ofRows (Grouping.presentKeyAt (u.groupby.map t.source)) rows

/-- A rectangular table has the groups of all its rows. -/
theorem rowGroups_eq_groupsAmong (ht : t.Rectangular) (h : t.HasColumns u.groupby) :
    u.rowGroups t = u.groupsAmong t (List.range t.rowCount) := by
  rw [groupsAmong]
  split
  · next hempty => exact rowGroups_of_isEmpty hempty
  · next hempty =>
    have hne : u.groupby ≠ [] := fun hnil ↦ hempty (List.isEmpty_iff.2 hnil)
    rw [rowGroups_of_not_isEmpty hempty, Grouping.ofColumns_eq, ht.rowTotal_eq h hne]

/-- The rows in the groups are among those that are grouped. -/
theorem rows_subset_of_mem_groupsAmong {x : Key × List Nat} (h : x ∈ u.groupsAmong t rows) :
    x.2 ⊆ rows := by
  rw [groupsAmong] at h
  split at h
  · rw [List.mem_singleton.1 h]
    exact List.Subset.refl _
  · exact Grouping.rows_subset_of_mem_ofRows h

/-- **The groups of rows that are taken** are the groups of these rows, under new numbers. -/
theorem groupsAmong_takeRows (u : Summary) (t : Table) (rows : List Nat) :
    u.groupsAmong t rows = (u.groupsAmong (t.takeRows rows) (List.range rows.length)).map
      (Grouping.renumber fun row ↦ rows.getD row 0) := by
  have hrows : (List.range rows.length).map (fun row ↦ rows.getD row 0) = rows :=
    List.ext_getElem (by simp) fun i _ hi ↦ by simp [hi]
  rw [groupsAmong, groupsAmong]
  split
  · rw [List.map_singleton, Grouping.renumber, hrows]
  · conv_lhs => rw [← hrows]
    rw [Grouping.ofRows_map]
    refine congrArg _ (Grouping.ofRows_congr fun row hrow ↦ ?_)
    have hcells : Grouping.keyAt (u.groupby.map t.source) (rows.getD row 0) =
        Grouping.keyAt (u.groupby.map (t.takeRows rows).source) row := by
      rw [Grouping.keyAt, Grouping.keyAt, List.map_map, List.map_map]
      exact List.map_congr_left fun name _ ↦
        (Table.cellAt_source_takeRows t name (List.mem_range.1 hrow)).symm
    simp only [Grouping.presentKeyAt, hcells]

/-- The summary of some rows of a table. -/
def resultAmong (u : Summary) (t : Table) (rows : List Nat) : Table :=
  ⟨keyColumns (u.groupsAmong t rows).keys u.groupby ++
    u.aggregates.map (valueColumn (u.groupsAmong t rows) t)⟩

theorem result_eq_resultAmong (ht : t.Rectangular) (h : t.HasColumns u.groupby) :
    u.result t = u.resultAmong t (List.range t.rowCount) := by
  rw [result, resultAmong, rowGroups_eq_groupsAmong ht h]

/-- **A summary of rows that are taken** is the summary of these rows. -/
theorem result_takeRows (h : t.HasColumns u.groupby)
    (hcount : (t.takeRows rows).rowCount = rows.length) :
    u.result (t.takeRows rows) = u.resultAmong t rows := by
  have hvalues (a : Aggregate) :
      valueColumn (u.groupsAmong (t.takeRows rows) (List.range rows.length)) (t.takeRows rows) a =
        valueColumn (u.groupsAmong t rows) t a := by
    rw [groupsAmong_takeRows u t rows, valueColumn, valueColumn, List.map_map]
    refine congrArg (Column.mk _) (List.map_congr_left fun x hx ↦ congrArg a.measure.of ?_)
    show x.2.map _ = (x.2.map fun row ↦ rows.getD row 0).map _
    rw [List.map_map]
    exact List.map_congr_left fun row hrow ↦ Table.cellAt_source_takeRows t _
      (List.mem_range.1 (rows_subset_of_mem_groupsAmong hx hrow))
  have hkeys : (u.groupsAmong t rows).keys =
      (u.groupsAmong (t.takeRows rows) (List.range rows.length)).keys := by
    rw [groupsAmong_takeRows, Grouping.keys_renumber]
  rw [result_eq_resultAmong (t.rectangular_takeRows rows) (Table.hasColumns_takeRows_iff.2 h),
    hcount, resultAmong, resultAmong, hkeys, List.map_congr_left fun a _ ↦ hvalues a]

/-! ## Rows in another order -/

/-- Two summaries have the same rows, with cells in the grouping columns that compare as equal, and
the same aggregates. -/
structure Agree (u : Summary) (out out' : Table) : Prop where
  rowCount_eq : out.rowCount = out'.rowCount
  /-- The grouping columns come first. -/
  names_eq : out.columns.map Column.name =
    u.groupby.map ColumnName.plain ++ u.aggregates.map fun a ↦ .plain a.name
  keys : List.Forall₂ (fun c c' ↦ c.name = c'.name ∧
      List.Forall₂ (fun x y ↦ Cell.order x y = .eq) c.cells c'.cells)
    (out.columns.take u.groupby.length) (out'.columns.take u.groupby.length)
  values : out.columns.drop u.groupby.length = out'.columns.drop u.groupby.length

/-- Grouping columns of keys that compare as equal. -/
theorem forall₂_keyColumns {ks ks' : List Key} (names : List String)
    (h : List.Forall₂ (fun k k' ↦ Key.order k k' = .eq) ks ks') :
    List.Forall₂ (fun c c' ↦ c.name = c'.name ∧
        List.Forall₂ (fun x y ↦ Cell.order x y = .eq) c.cells c'.cells)
      (keyColumns ks names) (keyColumns ks' names) := by
  rw [keyColumns, keyColumns, List.forall₂_map_left_iff, List.forall₂_map_right_iff,
    List.forall₂_same]
  rintro ⟨name, position⟩ -
  refine ⟨rfl, ?_⟩
  simp only [keyColumn]
  rw [List.forall₂_map_left_iff, List.forall₂_map_right_iff]
  exact h.imp fun k k' hk ↦ Key.order_getD_eq hk position

/-- The groups of rearranged rows, also when there are no grouping columns. -/
theorem forall₂_groupsAmong (ht : t.Rectangular) (h : t.HasColumns u.groupby)
    (htransitive : ∀ name ∈ u.groupby, TransitiveOn Cell.order (· ∈ (t.source name).cells))
    (hrows : rows.Perm (List.range t.rowCount)) :
    List.Forall₂ (fun x x' ↦ Key.order x.1 x'.1 = .eq ∧ x.2.Perm x'.2)
      (u.groupsAmong t (List.range t.rowCount)) (u.groupsAmong t rows) := by
  rw [groupsAmong, groupsAmong]
  split
  · exact .cons ⟨rfl, hrows.symm⟩ .nil
  · have hordered : Grouping.Ordered (u.groupby.map t.source) (List.range t.rowCount) :=
      ⟨ht.rowsIn h (List.Subset.refl _), List.forall_mem_map.2 htransitive⟩
    exact hordered.forall₂_ofRows hrows.symm

/-- An aggregate that does not depend on the order of cells has the same column. -/
theorem valueColumn_eq_of_forall₂ {a : Aggregate} (ha : a.measure.OrderFree) {g g' : Grouping}
    (h : List.Forall₂ (fun x x' ↦ Key.order x.1 x'.1 = .eq ∧ x.2.Perm x'.2) g g') :
    valueColumn g t a = valueColumn g' t a := by
  have hcells : List.Forall₂ (· = ·)
      (g.map fun group ↦ aggregateRows a.measure (t.source a.column) group.2)
      (g'.map fun group ↦ aggregateRows a.measure (t.source a.column) group.2) := by
    rw [List.forall₂_map_left_iff, List.forall₂_map_right_iff]
    exact h.imp fun x x' hx ↦ Measure.of_eq_of_perm ha (hx.2.map _)
  rw [List.forall₂_eq_eq_eq] at hcells
  rw [valueColumn, valueColumn, hcells]

/-- **Summaries of rearranged rows agree**, when no measure depends on the order of cells. -/
theorem agree_resultAmong (ht : t.Rectangular) (h : t.HasColumns u.groupby)
    (htransitive : ∀ name ∈ u.groupby, TransitiveOn Cell.order (· ∈ (t.source name).cells))
    (hmeasures : ∀ a ∈ u.aggregates, a.measure.OrderFree)
    (hrows : rows.Perm (List.range t.rowCount)) :
    u.Agree (u.resultAmong t (List.range t.rowCount)) (u.resultAmong t rows) := by
  have hgroups := forall₂_groupsAmong ht h htransitive hrows
  have hkeys := forall₂_keyColumns u.groupby
    (List.forall₂_map_left_iff.2 (List.forall₂_map_right_iff.2 (hgroups.imp fun _ _ hx ↦ hx.1)))
  have hvalues := List.map_congr_left fun a ha ↦
    valueColumn_eq_of_forall₂ (t := t) (hmeasures a ha) hgroups
  refine ⟨?_, ?_, ?_, ?_⟩
  · refine Table.rowCount_eq_of_forall₂ ?_
    rw [resultAmong, resultAmong, hvalues]
    exact List.rel_append (hkeys.imp fun _ _ hc ↦ hc.2.length_eq)
      (List.forall₂_same.2 fun _ _ ↦ rfl)
  · rw [resultAmong, List.map_append, names_keyColumns, List.map_map]
    rfl
  · rw [resultAmong, resultAmong, List.take_left' (length_keyColumns ..),
      List.take_left' (length_keyColumns ..)]
    exact hkeys
  · rw [resultAmong, resultAmong, List.drop_left' (length_keyColumns ..),
      List.drop_left' (length_keyColumns ..)]
    exact hvalues

/-- **The order of rows does not matter** to a summary whose operators are counts, medians and
percentiles, when the cells of each grouping column are compared transitively.  Rearrange the rows
of a table in any way.  If the columns are there, both tables have summaries and these agree: they
have the same number of rows, keys that compare as equal row by row, and the same aggregates.  If
not, the same columns are reported missing. -/
theorem agree_of_perm {o : Options} (hu : ofOptions o = .ok u)
    (hwords : ∀ name spec, (name, spec) ∈ o.aggregates.entries →
      ∃ word ∈ AggregateSpec.orderFreeWords,
        spec.operator.map AggregateSpec.plainName = some word)
    (ht : t.Rectangular) (hrows : rows.Perm (List.range t.rowCount))
    (htransitive : ∀ name ∈ o.groupby, TransitiveOn Cell.order (· ∈ (t.source name).cells)) :
    (t.HasColumns u.needed → ∃ out out', u.apply t = .ok out ∧
      u.apply (t.takeRows rows) = .ok out' ∧ u.Agree out out') ∧
    (¬ t.HasColumns u.needed → u.apply t = .error (.missingColumns (t.missing u.needed)) ∧
      u.apply (t.takeRows rows) = .error (.missingColumns (t.missing u.needed))) := by
  obtain ⟨as, has, rfl⟩ := map_eq_ok.1 hu
  have hmeasures : ∀ a ∈ as, a.measure.OrderFree := by
    intro a ha
    obtain ⟨name, spec, hspec, hresolve⟩ := AggregateSpec.exists_spec_of_mem_resolveAll has ha
    obtain ⟨m, hm, rfl⟩ := AggregateSpec.resolve_eq_ok hresolve
    obtain ⟨word, hword, hwritten⟩ := hwords name spec hspec
    exact AggregateSpec.orderFree_of_measure hwritten hword hm
  refine ⟨fun h ↦ ?_, fun h ↦ ?_⟩
  · obtain ⟨hgroupby, -⟩ := Table.hasColumns_append.1 h
    refine ⟨_, _, apply_eq_ok_iff.2 ⟨h, rfl⟩,
      apply_eq_ok_iff.2 ⟨Table.hasColumns_takeRows_iff.2 h, rfl⟩, ?_⟩
    rw [result_eq_resultAmong ht hgroupby,
      result_takeRows hgroupby (Table.rowCount_takeRows_of_perm hrows)]
    exact agree_resultAmong ht hgroupby htransitive hmeasures hrows
  · have hmissing : t.missing (needed ⟨o.groupby, as⟩) ≠ [] :=
      fun hnil ↦ h (Table.missing_eq_nil_iff.1 hnil)
    have hreport {t' : Table} (hsame : t'.missing (needed ⟨o.groupby, as⟩) =
        t.missing (needed ⟨o.groupby, as⟩)) : apply ⟨o.groupby, as⟩ t' =
          .error (.missingColumns (t.missing (needed ⟨o.groupby, as⟩))) := by
      rw [apply_eq, Table.requireAll_eq_error_iff.2 ⟨hsame ▸ hmissing, rfl⟩, hsame]
      rfl
    exact ⟨hreport rfl, hreport (Table.missing_takeRows t rows _)⟩

/-- Visits by day.  The days are 1, once as an integer and once as a double, and 2. -/
def visitsByDay : Table := ⟨[
  ⟨.plain "day", [.int 1, .int 2, .float 1.0]⟩,
  ⟨.plain "visits", [.int 7, .text "closed", .float 2.5]⟩]⟩

/-- The visits of each day, counted and the one in the middle. -/
def visits : Options := ⟨["day"], ⟨[
  ("days", ⟨some "visits", some "count", []⟩),
  ("middle", ⟨some "visits", some "median", []⟩)], by decide⟩⟩

/-- Backwards the first day is 1.0; its middle is what it was. -/
theorem agree_visitsByDay :
    ∃ u out out', ofOptions visits = .ok u ∧
      (∀ name spec, (name, spec) ∈ visits.aggregates.entries →
        ∃ word ∈ AggregateSpec.orderFreeWords,
          spec.operator.map AggregateSpec.plainName = some word) ∧
      visitsByDay.Rectangular ∧ [2, 1, 0].Perm (List.range visitsByDay.rowCount) ∧
      (∀ name ∈ visits.groupby, TransitiveOn Cell.order (· ∈ (visitsByDay.source name).cells)) ∧
      u.apply visitsByDay = .ok out ∧ u.apply (visitsByDay.takeRows [2, 1, 0]) = .ok out' ∧
      u.Agree out out' ∧
      out.columns.map Column.cells =
        [[.int 1, .int 2], [.int 2, .int 1], [.float 4.75, .absent]] ∧
      out'.columns.map Column.cells =
        [[.float 1.0, .int 2], [.int 2, .int 1], [.float 4.75, .absent]] := by
  have hu : ofOptions visits =
      .ok ⟨["day"], [⟨"days", "visits", .count⟩, ⟨"middle", "visits", .median⟩]⟩ := by
    decide +kernel
  have hwords : ∀ name spec, (name, spec) ∈ visits.aggregates.entries →
      ∃ word ∈ AggregateSpec.orderFreeWords,
        spec.operator.map AggregateSpec.plainName = some word := by
    intro name spec hspec
    rcases List.mem_cons.1 hspec with h | hspec
    · cases h
      exact ⟨"count", by decide, by decide +kernel⟩
    · cases List.mem_singleton.1 hspec
      exact ⟨"median", by decide, by decide +kernel⟩
  have hrows : [2, 1, 0].Perm (List.range visitsByDay.rowCount) := by decide
  have htransitive : ∀ name ∈ visits.groupby,
      TransitiveOn Cell.order (· ∈ (visitsByDay.source name).cells) := by
    decide +kernel
  obtain ⟨out, out', hout, hout', hagree⟩ :=
    (agree_of_perm hu hwords (by decide) hrows htransitive).1 (by decide)
  refine ⟨_, out, out', hu, hwords, by decide, hrows, htransitive, hout, hout', hagree, ?_, ?_⟩
  · obtain ⟨-, rfl⟩ := apply_eq_ok_iff.1 hout
    decide +kernel
  · obtain ⟨-, rfl⟩ := apply_eq_ok_iff.1 hout'
    decide +kernel

end Summary

end ChartFeed
