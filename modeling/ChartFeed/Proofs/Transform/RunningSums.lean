import ChartFeed.Proofs.Decimal.Signs
import ChartFeed.Proofs.Transform.Overflow

/-!
# Two ways to running sums

A running total is kept by two transforms.  One starts with the first number, the other adds the
first number to zero, and that is the same but for one number: minus zero becomes zero.

* `Accumulation.TotalsLaw` — the law of running totals, row by row: absent rows stay absent, and the
  others have the total of the numbers so far, from left to right.
* `Running.totalsLaw` — accumulated columns follow it, however they are accumulated.
* `RollingMode.cells_total_eq_iff` — totals that start from zero are the same exactly when the first
  number is not minus zero.
* `Rolling.total_eq_running` — so the two transforms do the same to a table.
-/

set_option autoImplicit false

namespace ChartFeed

open Decimal (minusZero)

/-! ## Row by row -/

/-- The law of running totals of a column. -/
structure Accumulation.TotalsLaw (how : Accumulation) (values : List (Option Float))
    (cells : List Cell) : Prop where
  length_eq : cells.length = values.length
  /-- Rows without a number have no total. -/
  absent : ∀ row : Nat, values[row]? = some none → cells[row]? = some .absent
  /-- A row with a number has the total of the numbers so far. -/
  present : ∀ (row : Nat) x, values[row]? = some (some x) → ∃ total,
    how.total ((values.take (row + 1)).filterMap id) = some total ∧
      cells[row]? = some (.float total)

namespace Running

variable {how : Accumulation} {values : List (Option Float)}

theorem accumulate_absent (how : Accumulation) (before : Option Float) {row : Nat}
    (h : values[row]? = some none) : (accumulate how before values)[row]? = some .absent := by
  induction values generalizing before row with
  | nil => cases h
  | cons value rest ih =>
    cases row with
    | zero =>
      cases h
      rfl
    | succ row => cases value <;> exact ih _ h

/-- Totals that go on from a number. -/
theorem accumulate_some_present (how : Accumulation) (a : Float) {row : Nat} {x : Float}
    (h : values[row]? = some (some x)) : (accumulate how (some a) values)[row]? =
      some (.float (((values.take (row + 1)).filterMap id).foldl how.combine a)) := by
  induction values generalizing a row with
  | nil => cases h
  | cons value rest ih =>
    cases row with
    | zero =>
      cases h
      rfl
    | succ row => cases value <;> exact ih _ h

/-- **Running totals follow the law.** -/
theorem totalsLaw (how : Accumulation) (values : List (Option Float)) :
    how.TotalsLaw values (accumulate how none values) := by
  refine ⟨length_accumulate .., fun row ↦ accumulate_absent how none, fun row x h ↦ ?_⟩
  induction values generalizing row with
  | nil => cases h
  | cons value rest ih =>
    cases row with
    | zero =>
      cases h
      exact ⟨x, rfl, rfl⟩
    | succ row =>
      cases value with
      | none => exact ih row h
      | some first => exact ⟨_, rfl, accumulate_some_present how first h⟩

end Running

/-! ## Starting from zero -/

/-- Sums that start from zero are the same as sums that start with the first number, exactly when
that is not minus zero. -/
theorem Running.accumulate_zero_eq_iff (values : List (Option Float)) :
    accumulate .sum (some 0.0) values = accumulate .sum none values ↔
      (values.filterMap id).head? ≠ some minusZero := by
  induction values with
  | nil => exact iff_of_true rfl nofun
  | cons value rest ih =>
    cases value with
    | none =>
      rw [accumulate, accumulate, List.cons_inj_right, ih]
      rfl
    | some x =>
      have hhead : ((some x :: rest).filterMap id).head? = some x := rfl
      rw [hhead, Ne, Option.some_inj]
      constructor
      · rintro heq rfl
        have hsum : (0.0 : Float) + minusZero = minusZero := Cell.float.inj (List.cons.inj heq).1
        rw [Decimal.zero_add_minusZero] at hsum
        exact Decimal.zero_ne_minusZero hsum
      · intro hx
        have hsum : Accumulation.sum.combine 0.0 x = x := Decimal.zero_add_of_ne hx
        rw [accumulate, accumulate, hsum]

/-- **The two running sums of a column** are the same exactly when its first number is not minus
zero. -/
theorem RollingMode.cells_total_eq_iff (values : List (Option Float)) :
    total.cells values = Running.accumulate .sum none values ↔
      (values.filterMap id).head? ≠ some minusZero := by
  rw [cells, totals_eq_accumulate]
  exact Running.accumulate_zero_eq_iff values

/-! ## The two transforms -/

/-- What is assigned depends on the numbers of the sources alone. -/
theorem Table.assign_congr {t : Table} {mapping : List (String × String)}
    {compute compute' : List (Option Float) → List Cell}
    (h : ∀ source ∈ mapping.map Prod.fst,
      compute (t.source source).numbers = compute' (t.source source).numbers) :
    t.assign mapping compute = t.assign mapping compute' := by
  have hcomputed : t.computed compute mapping = t.computed compute' mapping :=
    List.map_congr_left fun names hnames ↦
      congrArg (Prod.mk names.2) (h names.1 (List.mem_map_of_mem hnames))
  rw [assign_eq, assign_eq, hcomputed]

namespace Rolling

variable {o : RollingOptions} {t : Table}

/-- Options for totals are accepted when they have no options of their own, whatever window they
name. -/
theorem ofOptions_total (htype : o.type = .total) (hoptions : o.typeOptions.getD [] = []) :
    ofOptions o = .ok ⟨o.columns, .total⟩ := by
  rw [ofOptions, RollingOptions.mode, hoptions, htype]
  rfl

/-- **The two running sums of a table agree.**  Rolling options for totals, whatever window and
minimum they name, do the same to a table as a running sum of the same columns: both make the same
table, or report the same missing columns.  This needs that no source starts with minus zero.  The
columns that are stored follow the law of running totals, also when a source is stored over. -/
theorem total_eq_running (htype : o.type = .total) (hoptions : o.typeOptions.getD [] = [])
    (hfirst : ∀ source ∈ o.columns.keys,
      (t.source source).presentNumbers.head? ≠ some minusZero) :
    ∃ r, ofOptions o = .ok r ∧ r.apply t = Running.apply ⟨o.columns, .sum⟩ t ∧
      (t.HasColumns o.columns.keys → ∃ out, r.apply t = .ok out ∧
        ∀ dest source, (dest, source) ∈ storedSources o.columns.entries → ∃ cells,
          out.column? dest = some ⟨.plain dest, cells⟩ ∧
            Accumulation.sum.TotalsLaw (t.source source).numbers cells) := by
  have hsame : apply ⟨o.columns, .total⟩ t = Running.apply ⟨o.columns, .sum⟩ t :=
    Table.assign_congr fun source hsource ↦
      (RollingMode.cells_total_eq_iff _).2 (hfirst source hsource)
  refine ⟨_, ofOptions_total htype hoptions, hsame, fun h ↦ ?_⟩
  obtain ⟨out, hout, hstored⟩ := Table.exists_assign h (Running.accumulate .sum none)
  exact ⟨out, hsame.trans hout, fun dest source hdest ↦
    ⟨_, hstored dest source hdest, Running.totalsLaw .sum _⟩⟩

/-- Totals that change two columns over. -/
def exchangedTotals : RollingOptions :=
  ⟨⟨[("in", "out"), ("out", "in")], by decide⟩, .total, some 1, none, some 3⟩

/-- Two columns with gaps.  One has a minus zero, which is not the first number. -/
def gappedFlows : Table := ⟨[
  ⟨.plain "in", [.absent, .int 2, .text "none", .float 0.5]⟩,
  ⟨.plain "out", [.bool true, .float (-0.0), .absent, .int 4]⟩]⟩

/-- Each column is replaced by the totals of the other, which pass over the gaps. -/
theorem exchangedTotals_eq_running :
    ∃ r, exchangedTotals.type = .total ∧ exchangedTotals.typeOptions.getD [] = [] ∧
      (∀ source ∈ exchangedTotals.columns.keys,
        (gappedFlows.source source).presentNumbers.head? ≠ some minusZero) ∧
      ofOptions exchangedTotals = .ok r ∧
      r.apply gappedFlows = Running.apply ⟨exchangedTotals.columns, .sum⟩ gappedFlows ∧
      r.apply gappedFlows = .ok ⟨[
        ⟨.plain "in", [.float 1.0, .float 1.0, .absent, .float 5.0]⟩,
        ⟨.plain "out", [.absent, .float 2.0, .absent, .float 2.5]⟩]⟩ := by
  have hfirst : ∀ source ∈ exchangedTotals.columns.keys,
      (gappedFlows.source source).presentNumbers.head? ≠ some minusZero := by
    decide +kernel
  obtain ⟨r, hr, hsame, -⟩ :=
    total_eq_running (o := exchangedTotals) (t := gappedFlows) rfl rfl hfirst
  refine ⟨r, rfl, rfl, hfirst, hr, hsame, ?_⟩
  rw [hsame]
  decide +kernel

end Rolling

end ChartFeed
