import ChartFeed.Proofs.Transform.Counts
import ChartFeed.Proofs.Transform.KeyOrder
import ChartFeed.Proofs.Transform.PivotRefines

/-!
# Pivots without pivot columns

Without pivot columns a pivot has nothing to lay out: each row of its output is a group of the
index, and each aggregate has one column.  That is what the summary by the index has, too.

The two find their columns in different ways.  A summary goes through its aggregates.  A pivot goes
through its aggregates and the combinations of cells that occur, and the one combination there can
be, of no cells, occurs only if some row is in a group.

They find their rows in different ways, too.  A summary has a row for each group.  A pivot puts the
groups under their keys once more, and where the order of cells is not transitive, two groups may
turn out to have keys that compare as equal.

* `Grouping.ofRows_eq_nil_iff` — when there are no groups;
* `Pivot.result_eq_summary`, `Pivot.result_of_groups_nil` — with a group the results are the same,
  if the keys ascend, and without any the pivot has the columns of the index only;
* `Pivot.flat_eq_summary_iff` — so the two agree exactly when some row has its cells in the index,
  if the order of cells is transitive in each of its columns.
-/

set_option autoImplicit false

namespace ChartFeed

/-! ## No groups -/

namespace Grouping

variable {keyOf : Nat → Option Key} {rows : List Nat}

/-- There are no groups when no row has a key. -/
theorem ofRows_eq_nil_iff : ofRows keyOf rows = [] ↔ ∀ row ∈ rows, keyOf row = none := by
  constructor
  · intro h row hrow
    have hperm := perm_flatMap_ofRows keyOf rows
    rw [h] at hperm
    have hnone := List.filter_eq_nil_iff.1 (List.nil_perm.1 hperm) row hrow
    exact Option.not_isSome_iff_eq_none.1 hnone
  · intro h
    refine List.eq_nil_iff_forall_not_mem.2 fun x hx ↦ ?_
    obtain ⟨row, hrow, hkey⟩ := exists_of_mem_keys (List.mem_map_of_mem hx)
    cases (h row hrow).symm.trans hkey

theorem flatMap_ofRows_ne_nil (h : ofRows keyOf rows ≠ []) :
    (ofRows keyOf rows).flatMap Prod.snd ≠ [] := by
  obtain ⟨x, hx⟩ := List.exists_mem_of_ne_nil _ h
  obtain ⟨row, hrow⟩ := List.exists_mem_of_ne_nil _ (rows_ne_nil_of_mem_ofRows x hx)
  exact List.ne_nil_of_mem (List.mem_flatMap.2 ⟨x, hx, hrow⟩)

end Grouping

namespace Summary

/-- A column without rows. -/
def emptyColumn (name : String) : Column := ⟨.plain name, []⟩

theorem keyColumns_nil (names : List String) : keyColumns [] names = names.map emptyColumn := by
  have hnames : names.zipIdx.map Prod.fst = names := List.zipIdx_map_fst ..
  conv_rhs => rw [← hnames, List.map_map]
  rfl

theorem result_of_groups_nil {s : Summary} {t : Table} (h : s.rowGroups t = []) :
    s.result t = ⟨(s.groupby ++ s.aggregates.map Aggregate.name).map emptyColumn⟩ := by
  rw [result, h, List.map_append, List.map_map]
  exact congrArg (fun columns ↦ Table.mk (columns ++ _)) (keyColumns_nil _)

end Summary

/-! ## No pivot columns -/

namespace Pivot

variable {p : Pivot} {t : Table}

/-- The summary by the index. -/
def flatSummary (p : Pivot) : Summary := ⟨p.index, p.aggregates⟩

theorem rowGroups_flatSummary (hindex : p.index ≠ []) (t : Table) :
    p.flatSummary.rowGroups t = p.rowGroups t :=
  Summary.rowGroups_of_not_isEmpty fun hempty ↦ hindex (List.isEmpty_iff.1 hempty)

/-- In a rectangular table there are no groups when no row has its cells in the index. -/
theorem rowGroups_eq_nil_iff (hindex : p.index ≠ []) (ht : t.Rectangular)
    (h : t.HasColumns p.index) :
    p.rowGroups t = [] ↔ ∀ row < t.rowCount, Summary.presentIn t p.index row = false := by
  rw [rowGroups, Grouping.ofColumns_eq, Grouping.ofRows_eq_nil_iff, ht.rowTotal_eq h hindex]
  simp only [List.mem_range, ← Summary.isSome_presentKeyAt_eq, Option.isSome_eq_false_iff,
    Option.isNone_iff_eq_none]

section

variable (hcolumns : p.columns = [])

include hcolumns

theorem needed_flatSummary : p.flatSummary.needed = p.needed := by
  rw [needed, hcolumns, List.append_nil]
  rfl

theorem rowKey_of_columns_nil (t : Table) : p.rowKey t = fun _ ↦ some [] := by
  rw [rowKey, hcolumns]
  rfl

/-- The combination of no cells occurs when there is a group. -/
theorem pivotKeys_of_columns_nil (hgroups : p.rowGroups t ≠ []) : p.pivotKeys t = [[]] := by
  have hrows : (p.rowGroups t).flatMap Prod.snd ≠ [] := by
    rw [rowGroups, Grouping.ofColumns_eq] at hgroups ⊢
    exact Grouping.flatMap_ofRows_ne_nil hgroups
  rw [pivotKeys, distinctKeys_eq, rowKey_of_columns_nil hcolumns, Grouping.ofRows_blank hrows]
  rfl

/-- Each cell aggregates the rows of a group. -/
theorem rawCells_of_columns_nil (t : Table) (m : Measure) (source : Column) :
    rawCells m source [] (cellGroups (p.rowKey t) (p.rowGroups t)) =
      (p.rowGroups t).gathered.map fun group ↦ Summary.aggregateRows m source group.2 := by
  have hnonempty : ∀ group ∈ p.rowGroups t, group.2 ≠ [] := by
    rw [rowGroups, Grouping.ofColumns_eq]
    exact Grouping.rows_ne_nil_of_mem_ofRows
  rw [rowKey_of_columns_nil hcolumns, cellGroups_eq, rawCells, List.map_map]
  refine List.map_congr_left fun group hgroup ↦ ?_
  have hrows : group.2 ≠ [] := Grouping.rows_ne_nil_of_mem_gathered hnonempty group hgroup
  simp only [Function.comp_apply, Grouping.ofRows_blank hrows, Grouping.rowsOf?, Key.order]

theorem plainColumn_of_columns_nil (t : Table) (a : Aggregate) :
    p.plainColumn t ((a, t.source a.column), []) =
      Summary.valueColumn (p.rowGroups t).gathered t a := by
  rw [plainColumn, outputName, hcolumns, rawCells_of_columns_nil hcolumns]
  rfl

/-- **With a group** the pivot is the summary by the index, if the keys of the groups ascend. -/
theorem result_eq_summary (hp : p.Plain) (hindex : p.index ≠ []) (hgroups : p.rowGroups t ≠ [])
    (hascending : Grouping.Ascending (p.rowGroups t).keys) :
    p.result t = p.flatSummary.result t := by
  have hgathered : (p.rowGroups t).gathered = p.rowGroups t :=
    Grouping.gathered_eq_self hascending
  have hcombined : p.combined t = p.aggregates.map fun a ↦ ((a, t.source a.column), []) := by
    have hkeys : distinctKeys (p.rowKey t) (p.rowGroups t) = [[]] :=
      pivotKeys_of_columns_nil hcolumns hgroups
    rw [combined, hkeys, combinations_singleton, List.map_map]
    rfl
  have hvalues : p.aggregates.map (fun a ↦ p.plainColumn t ((a, t.source a.column), [])) =
      p.aggregates.map (Summary.valueColumn (p.rowGroups t) t) :=
    List.map_congr_left fun a _ ↦ by rw [plainColumn_of_columns_nil hcolumns, hgathered]
  rw [result_eq hp, outputKeys_eq, hgathered, hcombined, List.map_map, Summary.result,
    rowGroups_flatSummary hindex]
  exact congrArg (fun columns ↦ Table.mk (_ ++ columns)) hvalues

end

/-- **Without a group** a pivot has the columns of the index only. -/
theorem result_of_groups_nil (hgroups : p.rowGroups t = []) :
    p.result t = ⟨p.index.map Summary.emptyColumn⟩ := by
  have hvalues : p.valueColumns t = [] := by
    rw [valueColumns, combined, hgroups, combinations]
    cases p.keyFirst <;> simp [distinctKeys]
  rw [result, hvalues, outputKeys_eq, hgroups, List.append_nil]
  exact congrArg Table.mk (Summary.keyColumns_nil _)

section

variable (hindex : p.index ≠ []) (ht : t.Rectangular) (h : t.HasColumns p.index)

include hindex ht h

/-- **The results are the same only when some row has its cells in the index**, for the summary has
a column for each aggregate in any case. -/
theorem exists_present_of_result_eq (haggregates : p.aggregates ≠ [])
    (heq : p.result t = p.flatSummary.result t) :
    ∃ row < t.rowCount, Summary.presentIn t p.index row = true := by
  by_contra hrow
  have hnone := (rowGroups_eq_nil_iff hindex ht h).2 fun row hlt ↦
    Bool.eq_false_iff.2 fun hpresent ↦ hrow ⟨row, hlt, hpresent⟩
  rw [result_of_groups_nil hnone, Summary.result_of_groups_nil
    ((rowGroups_flatSummary hindex t).trans hnone), List.map_append] at heq
  have hvalues := List.self_eq_append_right.1 (Table.mk.inj heq)
  exact haggregates (List.map_eq_nil_iff.1 (List.map_eq_nil_iff.1 hvalues))

/-- The keys of the groups ascend where the order of cells is transitive. -/
theorem ascending_keys_rowGroups
    (horder : ∀ name ∈ p.index, TransitiveOn Cell.order (· ∈ (t.source name).cells)) :
    Grouping.Ascending (p.rowGroups t).keys := by
  refine Grouping.ascending_keys_ofColumns (n := t.rowCount) (mt List.map_eq_nil_iff.1 hindex)
    (fun c hc ↦ ?_) (List.forall_mem_map.2 horder)
  obtain ⟨name, hname, rfl⟩ := List.mem_map.1 hc
  exact ht.length_source h hname

/-- **They are the same then**, if the order of cells is transitive. -/
theorem result_eq_of_present (hp : p.Plain) (hcolumns : p.columns = [])
    (horder : ∀ name ∈ p.index, TransitiveOn Cell.order (· ∈ (t.source name).cells))
    {row : Nat} (hlt : row < t.rowCount) (hpresent : Summary.presentIn t p.index row = true) :
    p.result t = p.flatSummary.result t := by
  refine result_eq_summary hcolumns hp hindex (fun hnone ↦ ?_)
    (ascending_keys_rowGroups hindex ht h horder)
  have habsent := (rowGroups_eq_nil_iff hindex ht h).1 hnone row hlt
  exact Bool.noConfusion (habsent.symm.trans hpresent)

end

/-- Both can be applied to a table that has the columns they need. -/
theorem exists_flat (hp : p.Plain) (hcolumns : p.columns = []) (hindex : p.index ≠ [])
    (haggregates : p.aggregates ≠ []) (ht : t.Rectangular) (h : t.HasColumns p.needed) :
    ∃ P G, p.apply t = .ok P ∧ p.flatSummary.apply t = .ok G ∧
      ((∀ name ∈ p.index, TransitiveOn Cell.order (· ∈ (t.source name).cells)) →
        (P = G ↔ ∃ row < t.rowCount, Summary.presentIn t p.index row = true)) ∧
      ((∀ row < t.rowCount, Summary.presentIn t p.index row = false) →
        P ≠ G ∧ P = ⟨p.index.map Summary.emptyColumn⟩ ∧
          G = ⟨(p.index ++ p.aggregates.map Aggregate.name).map Summary.emptyColumn⟩) := by
  have hfound : t.HasColumns p.index :=
    (Table.hasColumns_append.1 (Table.hasColumns_append.1 h).1).1
  have honly : p.result t = p.flatSummary.result t →
      ∃ row < t.rowCount, Summary.presentIn t p.index row = true :=
    exists_present_of_result_eq hindex ht hfound haggregates
  refine ⟨_, _, apply_eq_ok_iff.2 ⟨h, rfl⟩,
    Summary.apply_eq_ok_iff.2 ⟨needed_flatSummary hcolumns ▸ h, rfl⟩,
    fun horder ↦ ⟨honly, ?_⟩, fun hall ↦ ⟨fun heq ↦ ?_, ?_⟩⟩
  · rintro ⟨row, hlt, hpresent⟩
    exact result_eq_of_present hindex ht hfound hp hcolumns horder hlt hpresent
  · obtain ⟨row, hlt, hpresent⟩ := honly heq
    exact Bool.noConfusion ((hall row hlt).symm.trans hpresent)
  · have hnone := (rowGroups_eq_nil_iff hindex ht hfound).2 hall
    exact ⟨result_of_groups_nil hnone,
      Summary.result_of_groups_nil ((rowGroups_flatSummary hindex t).trans hnone)⟩

/-! ## Options -/

/-- Aggregates with operators of their own make a summary when they make a pivot. -/
theorem summary_of_resolveAll {aggregates : OrderedMap AggregateSpec} {as : List Aggregate}
    (hoperators : ∀ entry ∈ aggregates.entries, entry.2.operator.isSome)
    (has : AggregateSpec.resolveAll (some .sum) aggregates.entries = .ok as) (names : List String) :
    Summary.ofOptions ⟨names, aggregates⟩ = .ok ⟨names, as⟩ := by
  rw [Summary.ofOptions, AggregateSpec.resolveAll_of_isSome hoperators none (some .sum), has]
  rfl

/-- **A pivot without pivot columns is the summary by its index, if there is a group.**  For options
that neither fill nor drop anything, with an operator for every aggregate, the summary with the same
aggregates can be asked for as well, and both can be applied to a table that has the columns.  If
the order of cells is transitive in every column of the index, they make the same of it exactly
when some row has all its cells in the index.  If none has, the summary still has a column for each
aggregate, and the pivot has not. -/
theorem flat_eq_summary_iff {index : List String} {aggregates : OrderedMap AggregateSpec}
    {keyFirst : Bool}
    (hp : ofOptions ⟨index, [], aggregates, none, none, false, keyFirst⟩ = .ok p)
    (hoperators : ∀ entry ∈ aggregates.entries, entry.2.operator.isSome) (ht : t.Rectangular)
    (h : t.HasColumns p.needed) :
    ∃ s P G, Summary.ofOptions ⟨index, aggregates⟩ = .ok s ∧
      p.apply t = .ok P ∧ s.apply t = .ok G ∧
      ((∀ name ∈ index, TransitiveOn Cell.order (· ∈ (t.source name).cells)) →
        (P = G ↔ ∃ row < t.rowCount, Summary.presentIn t index row = true)) ∧
      ((∀ row < t.rowCount, Summary.presentIn t index row = false) →
        P ≠ G ∧ P = ⟨index.map Summary.emptyColumn⟩ ∧
          G = ⟨(index ++ aggregates.keys).map Summary.emptyColumn⟩) := by
  obtain ⟨as, hindex, haggregates, has, hshape⟩ := ofOptions_eq_ok hp
  have hpivot : p = ⟨index, [], as, none, none, false, keyFirst⟩ := hshape
  subst hpivot
  have hnames : as.map Aggregate.name = aggregates.keys := AggregateSpec.names_of_resolveAll has
  have has' : as ≠ [] := by
    rintro rfl
    exact haggregates (List.map_eq_nil_iff.1 hnames.symm)
  obtain ⟨P, G, hP, hG, hiff, hnone⟩ := exists_flat ⟨rfl, rfl, rfl⟩ rfl hindex has' ht h
  exact ⟨_, P, G, summary_of_resolveAll hoperators has index, hP, hG, hiff, hnames ▸ hnone⟩

/-- Sales by two columns, the first of which has a double that blurs two integers. -/
def blurredSales : Table := ⟨[
  ⟨.plain "x", [.int 9007199254740992, .int 9007199254740993, .float 9007199254740992]⟩,
  ⟨.plain "y", [.int 2, .int 1, .int 1]⟩,
  ⟨.plain "sales", [.int 10, .int 20, .int 30]⟩]⟩

/-- The order of its cells is not transitive: a pivot puts two of its groups together that a summary
keeps apart. -/
example :
    ((apply ⟨["x", "y"], [], [⟨"total", "sales", .sum⟩], none, none, false, false⟩ blurredSales).map
      fun P ↦ (P.source "total").cells) = .ok [.float 50, .float 10] ∧
    ((Summary.apply ⟨["x", "y"], [⟨"total", "sales", .sum⟩]⟩ blurredSales).map
      fun G ↦ (G.source "total").cells) = .ok [.float 30, .float 10, .float 20] := by
  decide +kernel

/-- By region, of which one is not known, a pivot counts the sales as the summary does. -/
theorem flat_eq_summary_regionalSales :
    ∃ p s P, ofOptions ⟨["region"], [], salesCount, none, none, false, true⟩ = .ok p ∧
      (∀ entry ∈ salesCount.entries, entry.2.operator.isSome) ∧ regionalSales.Rectangular ∧
      regionalSales.HasColumns p.needed ∧ Summary.ofOptions ⟨["region"], salesCount⟩ = .ok s ∧
      p.apply regionalSales = .ok P ∧ s.apply regionalSales = .ok P := by
  have hp : ofOptions ⟨["region"], [], salesCount, none, none, false, true⟩ =
      .ok ⟨["region"], [], [⟨"n", "sales", .count⟩], none, none, false, true⟩ := by
    decide +kernel
  have ht : regionalSales.Rectangular := by decide
  have hcolumns : regionalSales.HasColumns
      (needed ⟨["region"], [], [⟨"n", "sales", .count⟩], none, none, false, true⟩) := by decide
  obtain ⟨s, P, G, hs, hP, hG, hiff, -⟩ := flat_eq_summary_iff hp (by decide) ht hcolumns
  have horder : ∀ name ∈ ["region"],
      TransitiveOn Cell.order (· ∈ (regionalSales.source name).cells) :=
    fun name hname ↦ transitiveOn_regionalSales name (.tail _ hname)
  obtain rfl : P = G := (hiff horder).2 ⟨0, by decide, by decide⟩
  exact ⟨_, s, P, hp, by decide, ht, hcolumns, hs, hP, hG⟩

/-- Sales without a region. -/
def unplacedSales : Table := ⟨[
  ⟨.plain "region", [.absent, .absent]⟩,
  ⟨.plain "sales", [.int 5, .int 7]⟩]⟩

/-- The total of the sales. -/
def salesTotal : OrderedMap AggregateSpec :=
  ⟨[("total", ⟨some "sales", some "sum", []⟩)], by decide⟩

/-- A pivot by region loses the total, so that nothing can be sorted by it; the summary has it. -/
theorem unplacedSales_loses_total :
    ∃ p s P G, ofOptions ⟨["region"], [], salesTotal, none, none, false, false⟩ = .ok p ∧
      Summary.ofOptions ⟨["region"], salesTotal⟩ = .ok s ∧ unplacedSales.Rectangular ∧
      p.apply unplacedSales = .ok P ∧ s.apply unplacedSales = .ok G ∧ P ≠ G ∧
      RowSort.apply ⟨⟨[("total", false)], by decide⟩⟩ P = .error (.missingColumns ["total"]) ∧
      RowSort.apply ⟨⟨[("total", false)], by decide⟩⟩ G = .ok G := by
  refine ⟨⟨["region"], [], [⟨"total", "sales", .sum⟩], none, none, false, false⟩,
    ⟨["region"], [⟨"total", "sales", .sum⟩]⟩, ⟨[⟨.plain "region", []⟩]⟩,
    ⟨[⟨.plain "region", []⟩, ⟨.plain "total", []⟩]⟩, ?_⟩
  decide +kernel

end Pivot

end ChartFeed
