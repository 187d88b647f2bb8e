import Mathlib.Algebra.Order.Ring.Nat
import ChartFeed.Proofs.Table.Partition
import ChartFeed.Proofs.Transform.Bounds

/-!
# Counts add up

A summary that counts has one count for each group.  Because the groups are a partition of the rows
with a key (`Grouping.Partitions`), the counts of all groups together say how many rows there are
with a key and with something to count.

* `Summary.rowTotal` — how many rows are grouped: all of the table;
* `countP_rowGroups` — counting group by group is counting all of the rows with a key;
* `Summary.partition_and_counts` — groups are a partition, and so counts add up.
-/

set_option autoImplicit false

namespace ChartFeed.Summary

variable {s : Summary} {t : Table}

/-! ## The rows of a summary -/

/-- The number of rows that are grouped: those of the first grouping column, or without any those
of the table. -/
def rowTotal (s : Summary) (t : Table) : Nat :=
  if s.groupby.isEmpty then t.rowCount else Grouping.rowTotal (s.groupby.map t.source)

/-- In a rectangular table all rows are grouped. -/
theorem rowTotal_eq_rowCount (ht : t.Rectangular) (h : t.HasColumns s.needed) :
    s.rowTotal t = t.rowCount := by
  rw [rowTotal]
  split
  · rfl
  · next hne =>
    exact ht.rowTotal_eq (Table.hasColumns_append.1 h).1 fun hnil ↦ hne (List.isEmpty_iff.2 hnil)

/-- The cells of a row in columns with these names are present. -/
def presentIn (t : Table) (names : List String) (row : Nat) : Bool :=
  names.all fun name ↦ !((t.source name).cellAt row).isAbsent

theorem presentIn_append (t : Table) (names more : List String) (row : Nat) :
    presentIn t (names ++ more) row = (presentIn t names row && presentIn t more row) :=
  List.all_append

/-- Rows that have their cells in the grouping columns are those with a key. -/
theorem isSome_presentKeyAt_eq (t : Table) (names : List String) (row : Nat) :
    (Grouping.presentKeyAt (names.map t.source) row).isSome = presentIn t names row := by
  rw [Bool.eq_iff_iff, Grouping.isSome_presentKeyAt_iff]
  simp [presentIn]

/-- The rows in the groups are those with a key. -/
theorem perm_rowGroups (s : Summary) (t : Table) : ((s.rowGroups t).flatMap Prod.snd).Perm
    ((List.range (s.rowTotal t)).filter (presentIn t s.groupby)) := by
  by_cases hempty : s.groupby.isEmpty = true
  · have hall : (List.range t.rowCount).filter (presentIn t s.groupby) = List.range t.rowCount :=
      List.filter_eq_self.2 fun row _ ↦ by rw [List.isEmpty_iff.1 hempty]; rfl
    rw [rowGroups_of_isEmpty hempty, rowTotal, if_pos hempty, hall, List.flatMap_singleton]
  · have hkeyed := funext fun row ↦ isSome_presentKeyAt_eq t s.groupby row
    rw [rowGroups_of_not_isEmpty hempty, rowTotal, if_neg hempty, Grouping.ofColumns_eq, ← hkeyed]
    exact Grouping.perm_flatMap_ofRows ..

/-- **Counting group by group** is counting the rows with a key. -/
theorem countP_rowGroups (s : Summary) (t : Table) (p : Nat → Bool) :
    ((s.rowGroups t).map fun x ↦ x.2.countP p).sum =
      (List.range (s.rowTotal t)).countP fun row ↦ presentIn t s.groupby row && p row := by
  calc ((s.rowGroups t).map fun x ↦ x.2.countP p).sum
      = ((s.rowGroups t).flatMap Prod.snd).countP p := List.countP_flatMap.symm
    _ = ((List.range (s.rowTotal t)).filter (presentIn t s.groupby)).countP p :=
        (perm_rowGroups s t).countP_eq p
    _ = (List.range (s.rowTotal t)).countP fun row ↦ presentIn t s.groupby row && p row := by
        rw [List.countP_filter]
        simp only [Bool.and_comm]

/-! ## Columns of counts -/

/-- A count of rows is that of the cells that are present. -/
theorem aggregateRows_count (source : Column) (rows : List Nat) :
    aggregateRows .count source rows =
      .int (rows.countP fun row ↦ !(source.cellAt row).isAbsent) := by
  rw [aggregateRows, Measure.of, ← List.countP_eq_length_filter, List.countP_map]
  rfl

/-- The column of a count, whose cells add up to the rows with a key and a cell to count. -/
structure Counts (s : Summary) (t : Table) (a : Aggregate) (c : Column) : Prop where
  name_eq : c.name = .plain a.name
  exists_counts : ∃ counts : List Nat, c.cells = counts.map (fun n : Nat ↦ .int n) ∧
    counts.sum = (List.range (s.rowTotal t)).countP (presentIn t (s.groupby ++ [a.column]))

theorem counts_valueColumn (s : Summary) (t : Table) {a : Aggregate} (ha : a.measure = .count) :
    s.Counts t a (valueColumn (s.rowGroups t) t a) := by
  let present (row : Nat) : Bool := !((t.source a.column).cellAt row).isAbsent
  refine ⟨rfl, (s.rowGroups t).map fun x ↦ x.2.countP present, ?_, ?_⟩
  · rw [valueColumn, List.map_map, ha]
    exact List.map_congr_left fun x _ ↦ aggregateRows_count _ x.2
  · rw [countP_rowGroups]
    refine List.countP_congr fun row _ ↦ ?_
    rw [presentIn_append]
    simp [presentIn, present]

/-- **Groups are a partition, and so counts add up.**  Columns of one length group the rows without
an absent cell in them, each in one group and in order, under keys that ascend if cells are compared
transitively.  So whatever a summary groups by, each of its counts has cells that add up to the
number of rows with all their cells in the grouping columns and in the column that is counted. -/
theorem partition_and_counts :
    (∀ (columns : List Column) (n : Nat), columns ≠ [] → (∀ c ∈ columns, c.cells.length = n) →
      Grouping.Partitions columns n (Grouping.ofColumns columns) ∧
        ((∀ c ∈ columns, TransitiveOn Cell.order (· ∈ c.cells)) →
          Grouping.Ascending (Grouping.ofColumns columns).keys)) ∧
    ∀ (s : Summary) (t : Table), t.HasColumns s.needed →
      (t.Rectangular → s.rowTotal t = t.rowCount) ∧
        ∃ out, s.apply t = .ok out ∧
          ∀ i a, s.aggregates[i]? = some a → a.measure = .count →
            ∃ c, out.columns[s.groupby.length + i]? = some c ∧ s.Counts t a c := by
  constructor
  · intro columns n hne hlength
    exact ⟨Grouping.partitions_ofColumns hne hlength,
      Grouping.ascending_keys_ofColumns hne hlength⟩
  · intro s t h
    refine ⟨fun ht ↦ rowTotal_eq_rowCount ht h, s.result t, ?_, ?_⟩
    · rw [apply_eq, Table.requireAll_eq_ok h]
      rfl
    · intro i a hi ha
      refine ⟨valueColumn (s.rowGroups t) t a, ?_, counts_valueColumn s t ha⟩
      have hkeys := length_keyColumns (s.rowGroups t).keys s.groupby
      rw [result, List.getElem?_append_right (by omega), hkeys, Nat.add_sub_cancel_left,
        List.getElem?_map, hi]
      rfl

/-- Notes by level.  Two of the levels are one number, and one row has none. -/
def notesByLevel : Table := ⟨[
  ⟨.plain "level", [.int 1, .int 0, .absent, .float 1.0]⟩,
  ⟨.plain "note", [.text "a", .text "b", .text "c", .absent]⟩]⟩

/-- The notes of each level, counted. -/
def countNotes : Summary := ⟨["level"], [⟨"notes", "note", .count⟩]⟩

/-- Of four rows three have a level, in two groups, and two of these have a note. -/
theorem partition_and_counts_notesByLevel :
    Grouping.Partitions [notesByLevel.source "level"] 4
        (Grouping.ofColumns [notesByLevel.source "level"]) ∧
      Grouping.Ascending (Grouping.ofColumns [notesByLevel.source "level"]).keys ∧
      countNotes.rowTotal notesByLevel = 4 ∧
      ∃ out c, countNotes.apply notesByLevel = .ok out ∧ out.columns[1]? = some c ∧
        ∃ counts : List Nat, c.cells = counts.map (fun n : Nat ↦ .int n) ∧ counts.sum = 2 := by
  obtain ⟨hgroups, hcounts⟩ := partition_and_counts
  obtain ⟨hpartition, hascending⟩ := hgroups [notesByLevel.source "level"] 4 (by decide)
    (by decide)
  obtain ⟨htotal, out, hout, hcount⟩ := hcounts countNotes notesByLevel (by decide)
  obtain ⟨c, hc, -, counts, hcells, hsum⟩ := hcount 0 ⟨"notes", "note", .count⟩ rfl rfl
  refine ⟨hpartition, hascending ?_, htotal (by decide), out, c, hout, hc, counts, hcells, ?_⟩
  · decide +kernel
  · rw [hsum]
    decide +kernel

end ChartFeed.Summary
