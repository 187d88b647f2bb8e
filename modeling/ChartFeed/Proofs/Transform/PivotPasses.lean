import ChartFeed.Proofs.Transform.PivotRefines

/-!
# Dropping and filling come after the pivot

A pivot decides column by column: it computes the cells, leaves the column out if all of them are
absent and that is asked for, and else fills the absent ones.  As no column knows of another, this
is the same as pivoting first, then dropping, then filling.

* `Table.Passes` — a table after these two passes over the columns behind its first ones.
* `Pivot.valueColumns_eq` — the columns of a pivot are those of the plain pivot, which neither drops
  nor fills, after a filter and a map.
* `Pivot.Options.run_passes` — so from the options of one pivot that succeeds every other choice of
  what to drop and how to fill follows by the two passes.
-/

set_option autoImplicit false

namespace ChartFeed

/-! ## Passes over columns -/

namespace Column

/-- Some cell is present. -/
def hasValue (c : Column) : Bool := c.cells.any fun cell ↦ !cell.isAbsent

theorem all_isAbsent (c : Column) : c.cells.all Cell.isAbsent = !c.hasValue := by
  simp [hasValue, List.not_any_eq_all_not]

/-- The column with its absent cells filled. -/
def filled (fill : Option Cell) (c : Column) : Column := ⟨c.name, Pivot.fillCells fill c.cells⟩

/-- A column and the same with its absent cells filled, if there is something to fill them with. -/
structure Fills (fill : Option Cell) (c c' : Column) : Prop where
  name_eq : c'.name = c.name
  length_eq : c'.cells.length = c.cells.length
  /-- Present cells stay. -/
  of_present : ∀ row, (c.cellAt row).isAbsent = false → c'.cellAt row = c.cellAt row
  /-- Absent ones are filled. -/
  of_absent : ∀ row < c.cells.length, (c.cellAt row).isAbsent = true →
    c'.cellAt row = fill.getD (c.cellAt row)

theorem cellAt_filled {fill : Option Cell} {c : Column} {row : Nat} (h : row < c.cells.length) :
    (c.filled fill).cellAt row =
      if (c.cellAt row).isAbsent then fill.getD (c.cellAt row) else c.cellAt row := by
  cases fill with
  | none => exact (ite_self _).symm
  | some value => simp [filled, Pivot.fillCells, cellAt, h]

theorem fills_filled (fill : Option Cell) (c : Column) : c.Fills fill (c.filled fill) where
  name_eq := rfl
  length_eq := Pivot.length_fillCells ..
  of_present row hpresent := by
    by_cases h : row < c.cells.length
    · rw [cellAt_filled h, hpresent]
      rfl
    · -- beyond the last row there is nothing present
      have hnone : c.cells[row]? = none := List.getElem?_eq_none (Nat.le_of_not_lt h)
      rw [cellAt, List.getD_eq_getElem?_getD, hnone] at hpresent
      cases hpresent
  of_absent row h habsent := by rw [cellAt_filled h, if_pos habsent]

end Column

/-- A table, and what two passes over the columns behind its first ones make of it: one that may
drop those without a value, and then one that fills. -/
structure Table.Passes (width : Nat) (drop : Bool) (fill : Option Cell) (t out : Table) :
    Prop where
  /-- The first columns stay, and with them the rows and their order. -/
  take_eq : out.columns.take width = t.columns.take width
  rowCount_eq : out.rowCount = t.rowCount
  /-- Of the columns behind them those are left that have a value, if others are dropped at all.
  They follow each other as before, with their absent cells filled. -/
  filled : List.Forall₂ (Column.Fills fill)
    ((t.columns.drop width).filter fun c ↦ !drop || c.hasValue) (out.columns.drop width)

/-! ## Pivots -/

namespace Pivot

variable {p : Pivot} {t : Table}

/-- The pivot that neither drops nor fills. -/
def plain (p : Pivot) : Pivot := { p with cellFill := none, dropEmpty := false }

theorem outputColumn_eq (p : Pivot) (t : Table) (x : (Aggregate × Column) × Key) :
    p.outputColumn (cellGroups (p.rowKey t) (p.rowGroups t)) x.1 x.2 =
      (Option.guard (fun c ↦ !p.dropEmpty || c.hasValue) (p.plainColumn t x)).map
        (Column.filled p.cellFill) := by
  have hcolumn : p.outputColumn (cellGroups (p.rowKey t) (p.rowGroups t)) x.1 x.2 =
      if p.dropEmpty && (p.plainColumn t x).cells.all Cell.isAbsent then none
      else some ((p.plainColumn t x).filled p.cellFill) := rfl
  rw [hcolumn, Column.all_isAbsent, Option.guard]
  cases p.dropEmpty <;> cases (p.plainColumn t x).hasValue <;> rfl

theorem valueColumns_plain (p : Pivot) (t : Table) :
    p.plain.valueColumns t = (p.combined t).map (p.plainColumn t) :=
  valueColumns_eq_map (p := p.plain) rfl rfl t

/-- **The columns of a pivot** are those of the plain one, of which some are dropped and the rest is
filled. -/
theorem valueColumns_eq (p : Pivot) (t : Table) :
    p.valueColumns t =
      ((p.plain.valueColumns t).filter fun c ↦ !p.dropEmpty || c.hasValue).map
        (Column.filled p.cellFill) := by
  rw [valueColumns_plain, ← List.filterMap_eq_filter, List.filterMap_map, List.map_filterMap,
    valueColumns]
  exact List.filterMap_congr fun x _ ↦ outputColumn_eq p t x

/-- A pivot is the plain one after both passes. -/
theorem passes_result (hindex : p.index ≠ []) :
    (p.plain.result t).Passes p.index.length p.dropEmpty p.cellFill (p.result t) := by
  have hlength : (Summary.keyColumns (p.outputKeys t) p.index).length = p.index.length :=
    Summary.length_keyColumns ..
  have hplain : p.plain.result t =
      ⟨Summary.keyColumns (p.outputKeys t) p.index ++ p.plain.valueColumns t⟩ := rfl
  rw [hplain, result]
  refine ⟨?_, ?_, ?_⟩
  · rw [List.take_left' hlength, List.take_left' hlength]
  · rw [Table.rowCount_keyColumns hindex, Table.rowCount_keyColumns hindex]
  · rw [List.drop_left' hlength, List.drop_left' hlength, valueColumns_eq p t,
      List.forall₂_map_right_iff, List.forall₂_same]
    exact fun c _ ↦ c.fills_filled p.cellFill

/-! ## Options -/

/-- What the options of a pivot make of a table. -/
def Options.run (o : Options) (t : Table) : Except Rejection Table :=
  ofOptions o >>= fun p ↦ p.apply t

/-- Whether a pivot can be made has nothing to do with dropping and filling. -/
theorem ofOptions_with (o : Options) (drop : Bool) (fill : Option Json) :
    ofOptions { o with cellFill := fill, dropEmpty := drop } =
      (ofOptions o).map fun p ↦
        { p with cellFill := fill.map Cell.ofJson, dropEmpty := drop } := by
  rw [ofOptions, ofOptions]
  split
  · rfl
  · split
    · rfl
    · cases AggregateSpec.resolveAll (some .sum) o.aggregates.entries <;> rfl

namespace Options

theorem run_with {o : Options} (hp : ofOptions o = .ok p) (ht : t.HasColumns p.needed) (drop : Bool)
    (fill : Option Json) :
    { o with cellFill := fill, dropEmpty := drop }.run t =
      .ok (result { p with cellFill := fill.map Cell.ofJson, dropEmpty := drop } t) := by
  rw [run, ofOptions_with, hp]
  exact apply_eq_ok_iff.2 ⟨ht, rfl⟩

/-- **Dropping and filling are passes after the pivot.**  Options for which the pivot succeeds have
a plain result, without dropping and filling.  For every choice of both the pivot succeeds, too, and
its result is the plain one after the two passes over the columns behind the index. -/
theorem run_passes {o : Options} {t chosen : Table} (h : o.run t = .ok chosen) :
    ∃ B, { o with cellFill := none, dropEmpty := false }.run t = .ok B ∧
      ∀ (drop : Bool) (fill : Option Json), ∃ out,
        { o with cellFill := fill, dropEmpty := drop }.run t = .ok out ∧
          B.Passes o.index.length drop (fill.map Cell.ofJson) out := by
  obtain ⟨p, hp, happly⟩ := bind_eq_ok.1 h
  have ht : t.HasColumns p.needed := (apply_eq_ok_iff.1 happly).1
  obtain ⟨as, hindex, -, -, hshape⟩ := ofOptions_eq_ok hp
  have hindex' : p.index = o.index := by rw [hshape]
  refine ⟨_, run_with hp ht false none, fun drop fill ↦ ⟨_, run_with hp ht drop fill, ?_⟩⟩
  rw [← hindex'] at hindex ⊢
  exact passes_result (p := { p with cellFill := fill.map Cell.ofJson, dropEmpty := drop }) hindex

/-- Sales of each day by region, where a region that is not known has a name of its own. -/
def salesByDay : Options :=
  ⟨["day"], ["region"], ⟨[("revenue", ⟨some "sales", some "sum", []⟩)], by decide⟩, none,
    some "unknown", false, false⟩

/-- Sales without a region, and without an amount. -/
def partialSales : Table := ⟨[
  ⟨.plain "day", [.text "monday", .text "monday", .text "tuesday"]⟩,
  ⟨.plain "region", [.text "north", .absent, .text "south"]⟩,
  ⟨.plain "sales", [.absent, .int 5, .int 7]⟩]⟩

/-- The same without empty columns, and with zero for absent sums. -/
def filledSalesByDay : Options :=
  { salesByDay with cellFill := some (.num (.int 0)), dropEmpty := true }

/-- The revenue of the north is dropped; of the others one cell is filled. -/
theorem run_passes_salesByDay :
    ∃ B out, salesByDay.run partialSales = .ok B ∧ filledSalesByDay.run partialSales = .ok out ∧
      B.Passes 1 true (some (.int 0)) out ∧
      B.columns.map Column.name =
        [⟨["day"]⟩, ⟨["revenue", "north"]⟩, ⟨["revenue", "south"]⟩, ⟨["revenue", "unknown"]⟩] ∧
      out.columns.map Column.cells =
        [[.text "monday", .text "tuesday"], [.int 0, .float 7.0], [.float 5.0, .int 0]] := by
  have hplain : salesByDay.run partialSales = .ok ⟨[
      ⟨⟨["day"]⟩, [.text "monday", .text "tuesday"]⟩,
      ⟨⟨["revenue", "north"]⟩, [.absent, .absent]⟩,
      ⟨⟨["revenue", "south"]⟩, [.absent, .float 7.0]⟩,
      ⟨⟨["revenue", "unknown"]⟩, [.float 5.0, .absent]⟩]⟩ := by decide +kernel
  have hfilled : filledSalesByDay.run partialSales = .ok ⟨[
      ⟨⟨["day"]⟩, [.text "monday", .text "tuesday"]⟩,
      ⟨⟨["revenue", "south"]⟩, [.int 0, .float 7.0]⟩,
      ⟨⟨["revenue", "unknown"]⟩, [.float 5.0, .int 0]⟩]⟩ := by decide +kernel
  obtain ⟨B, hB, hpasses⟩ := run_passes hplain
  obtain ⟨out, hout, hboth⟩ := hpasses true (some (.num (.int 0)))
  cases hB.symm.trans hplain
  cases hout.symm.trans hfilled
  exact ⟨_, _, hplain, hfilled, hboth, rfl, rfl⟩

end Options

end Pivot

end ChartFeed
