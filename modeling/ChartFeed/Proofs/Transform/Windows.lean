import ChartFeed.Proofs.Transform.Bounds
import ChartFeed.Proofs.Transform.Finite

/-!
# Rolling windows, row by row

A rolling statistic is computed from a stretch that is cut out of the column by its two ends, and
how many values are left in it decides what becomes of them.  This file says the same of each row by
itself, for windows of any size.

* `RollingMode.windowRows` — the rows that a window covers; `presentAt_eq` says that the stretch has
  the values in these rows and no others.
* `RollingStatistic.Follows` — which cell follows from the present values of a window.
* `WindowLaw` — the law of a column: a cell for each row, which follows from its window, so that
  nothing outside of the window matters to it, least of all rows that are appended.
* `Rolling.windowLaw_of_ofOptions` — the law holds for all options that are accepted, unless they
  ask for totals.
* `HonoursMinimum` — rows whose window has too few present values stay without a value.  That is
  part of the law except for counts, and `Rolling.honoursMinimum_iff` says so.
-/

set_option autoImplicit false

namespace ChartFeed

/-! ## The rows of a window -/

theorem filter_range_le (start stop : Nat) :
    ((List.range stop).filter fun j ↦ start ≤ j) = List.range' start (stop - start) := by
  induction stop with
  | zero => simp
  | succ stop ih =>
    rw [List.range_succ, List.filter_append, ih]
    by_cases h : start ≤ stop
    · have hlast : start + (stop - start) = stop := Nat.add_sub_cancel' h
      rw [Nat.succ_sub h, List.range'_1_concat, hlast]
      simp [h]
    · have hbefore : stop - start = 0 := by omega
      have hafter : stop + 1 - start = 0 := by omega
      simp [h, hbefore, hafter]

/-- A stretch of a list has the values in its rows. -/
theorem filterMap_take_drop {α : Type} (values : List (Option α)) (start count : Nat) :
    ((values.drop start).take count).filterMap id =
      (List.range' start count).filterMap fun j ↦ values.getD j none := by
  induction count generalizing start with
  | zero => simp
  | succ count ih =>
    rw [List.range'_succ, List.filterMap_cons, ← ih]
    by_cases h : start < values.length
    · rw [List.drop_eq_getElem_cons h, List.take_succ_cons, List.filterMap_cons,
        List.getD_eq_getElem _ _ h]
      rfl
    · have hstart : values.length ≤ start := Nat.le_of_not_lt h
      rw [List.drop_of_length_le hstart, List.drop_of_length_le (Nat.le_succ_of_le hstart),
        List.getD_eq_default _ _ hstart]
      simp

namespace RollingMode

/-- The rows that a window covers: that in which it ends, and those before it. -/
def windowRows (size row : Nat) : List Nat :=
  (List.range (row + 1)).filter fun j ↦ row + 1 - size ≤ j

theorem mem_windowRows {size row j : Nat} :
    j ∈ windowRows size row ↔ row + 1 - size ≤ j ∧ j ≤ row := by
  rw [windowRows, List.mem_filter, List.mem_range, decide_eq_true_eq, Nat.lt_succ_iff, and_comm]

/-- The present values in the rows of a window, in the order of the rows. -/
def presentIn (values : List (Option Float)) (size row : Nat) : List Float :=
  (windowRows size row).filterMap fun j ↦ values.getD j none

/-- **The stretch that is cut out** has the values in the rows of the window. -/
theorem presentAt_eq (values : List (Option Float)) (size row : Nat) :
    presentAt values size row = presentIn values size row := by
  rw [presentAt, List.drop_take, filterMap_take_drop, presentIn, windowRows, filter_range_le]

theorem presentIn_congr {values values' : List (Option Float)} {size row : Nat}
    (h : ∀ j ∈ windowRows size row, values[j]? = values'[j]?) :
    presentIn values size row = presentIn values' size row :=
  List.filterMap_congr fun j hj ↦ by
    rw [List.getD_eq_getElem?_getD, List.getD_eq_getElem?_getD, h j hj]

/-- A row without a value is a window without values. -/
theorem presentIn_none (size : Nat) : presentIn [none] size 0 = [] := by
  refine List.filterMap_eq_nil_iff.2 fun j hj ↦ ?_
  rw [Nat.le_zero.1 (mem_windowRows.1 hj).2]
  rfl

end RollingMode

/-! ## The cell of a window -/

namespace RollingStatistic

variable {s : RollingStatistic} {minimum : Nat} {present : List Float}

/-- Which cell follows from the present values of a window, when this many are asked for. -/
structure Follows (s : RollingStatistic) (minimum : Nat) (present : List Float) (cell : Cell) :
    Prop where
  /-- A count says how many there are, also when more are asked for. -/
  count : s = .count → cell = .float (Float.ofNat present.length)
  /-- Of any other statistic there is nothing when more are asked for. -/
  few : s ≠ .count → present.length < minimum → cell = .absent
  /-- When none are asked for and there are none, a sum is zero, -/
  sum_nil : s = .sum → minimum = 0 → present = [] → cell = .float 0.0
  /-- and of the rest there is nothing. -/
  nil : s ≠ .count → s ≠ .sum → minimum = 0 → present = [] → cell = .absent
  /-- Otherwise it is the statistic of the values, if that is a finite number, -/
  finite : s ≠ .count → minimum ≤ present.length → present ≠ [] →
    ∀ x, s.ofNumbers present = some x → x.isFinite = true → cell = .float x
  /-- and nothing if it is not. -/
  notFinite : s ≠ .count → minimum ≤ present.length → present ≠ [] →
    (∀ x, s.ofNumbers present = some x → ¬ x.isFinite = true) → cell = .absent

theorem cell_of_lt (hs : s ≠ .count) (h : present.length < minimum) :
    s.cell minimum present = .absent := by
  cases s with
  | count => exact absurd rfl hs
  | _ => exact if_pos h

theorem cell_nil (hs : s ≠ .count) (hsum : s ≠ .sum) : s.cell 0 [] = .absent := by
  cases s with
  | count => exact absurd rfl hs
  | sum => exact absurd rfl hsum
  | _ => rfl

theorem cell_of_le (hs : s ≠ .count) (hmin : minimum ≤ present.length) (hne : present ≠ []) :
    s.cell minimum present = .ofFloat? (s.ofNumbers present) := by
  obtain ⟨x, rest, rfl⟩ := List.exists_cons_of_ne_nil hne
  cases s with
  | count => exact absurd rfl hs
  | _ => exact if_neg (Nat.not_lt.2 hmin)

/-- **The cell that is computed** follows from the present values. -/
theorem follows_cell (s : RollingStatistic) (minimum : Nat) (present : List Float) :
    s.Follows minimum present (s.cell minimum present) where
  count hs := by rw [hs]; rfl
  few := cell_of_lt
  sum_nil hs hmin hnil := by rw [hs, hmin, hnil]; rfl
  nil hs hsum hmin hnil := by rw [hmin, hnil, cell_nil hs hsum]
  finite hs hmin hne x hx hfinite := by
    rw [cell_of_le hs hmin hne, hx, Cell.ofFloat?, if_pos hfinite]
  notFinite hs hmin hne hall := by
    rw [cell_of_le hs hmin hne]
    cases hx : s.ofNumbers present with
    | none => rfl
    | some x => exact if_neg (hall x hx)

end RollingStatistic

/-! ## The cells of a column -/

open RollingMode (windowRows presentIn)

/-- The law of what is computed of a column by a window. -/
structure WindowLaw (s : RollingStatistic) (size minimum : Nat)
    (compute : List (Option Float) → List Cell) : Prop where
  /-- There is a cell for each row. -/
  length_eq : ∀ values, (compute values).length = values.length
  /-- It follows from the present values in the rows of the window. -/
  follows : ∀ values row, row < values.length →
    ∃ cell, (compute values)[row]? = some cell ∧
      s.Follows minimum (presentIn values size row) cell
  /-- Columns that are the same in these rows have the same cell. -/
  of_window : ∀ values values' row, row < values.length → row < values'.length →
    (∀ j ∈ windowRows size row, values[j]? = values'[j]?) →
      (compute values)[row]? = (compute values')[row]?
  /-- Rows that are appended leave the cells of earlier ones. -/
  append : ∀ values more, compute values <+: compute (values ++ more)

namespace RollingMode

variable {s : RollingStatistic} {w : RollingWindow} {values : List (Option Float)}

theorem getElem?_cells {row : Nat} (h : row < values.length) :
    ((windowed s w).cells values)[row]? =
      some (s.cell w.minimum (presentIn values w.size row)) := by
  rw [cells, List.getElem?_map, List.getElem?_range h, Option.map_some, presentAt_eq]

/-- What is computed by a window keeps to the law. -/
theorem windowLaw (s : RollingStatistic) (w : RollingWindow) :
    WindowLaw s w.size w.minimum (windowed s w).cells := by
  have hwindow (values values' : List (Option Float)) (row : Nat) (hrow : row < values.length)
      (hrow' : row < values'.length)
      (h : ∀ j ∈ windowRows w.size row, values[j]? = values'[j]?) :
      ((windowed s w).cells values)[row]? = ((windowed s w).cells values')[row]? := by
    rw [getElem?_cells hrow, getElem?_cells hrow', presentIn_congr h]
  refine ⟨length_cells _, fun values row hrow ↦ ⟨_, getElem?_cells hrow, s.follows_cell ..⟩,
    hwindow, fun values more ↦ ?_⟩
  refine List.prefix_iff_getElem?.2 fun row hrow ↦ ?_
  rw [length_cells] at hrow
  rw [← List.getElem?_eq_getElem]
  refine (hwindow _ _ row hrow ?_ fun j hj ↦ ?_).symm
  · rw [List.length_append]
    exact Nat.lt_add_right _ hrow
  · -- the window ends in the row, and so it is within the rows that were there
    have hle : j ≤ row := (mem_windowRows.1 hj).2
    exact (List.getElem?_append_left (Nat.lt_of_le_of_lt hle hrow)).symm

end RollingMode

/-! ## Options -/

namespace RollingOptions

variable {o : RollingOptions}

/-- The statistic that the options ask for, with the fraction of a quantile. -/
def Asks (o : RollingOptions) (s : RollingStatistic) : Prop :=
  o.type = .plain s ∨
    ∃ p, o.type = .quantile ∧ fraction (o.typeOptions.getD []) = .ok p ∧ s = .quantile p

/-- How many present values the options ask for: without a number of its own, all of the window. -/
theorem minimum_of_rollingWindow {w : RollingWindow} (h : o.rollingWindow = .ok w) :
    w.minimum = o.minimum.getD w.size := by
  rw [rollingWindow] at h
  split at h
  · cases h
  · split at h
    · split at h
      · next hnone =>
        cases h
        rw [hnone]
        rfl
      · next hsome =>
        split at h
        · cases h
          rw [hsome]
          rfl
        · cases h
    · cases h

/-- Options that do not ask for totals ask for a statistic of a window. -/
theorem exists_windowed {mode : RollingMode} (h : o.mode = .ok mode) (htype : o.type ≠ .total) :
    ∃ s w, o.Asks s ∧ o.rollingWindow = .ok w ∧ mode = .windowed s w := by
  rcases mode_eq_ok h with ⟨ht, -⟩ | ⟨s, w, ht, hw, hmode⟩ | ⟨w, p, ht, hw, hp, hmode⟩
  · exact absurd ht htype
  · exact ⟨s, w, .inl ht, hw, hmode⟩
  · exact ⟨.quantile p, w, .inr ⟨p, ht, hp, rfl⟩, hw, hmode⟩

theorem Asks.count_iff {s : RollingStatistic} (h : o.Asks s) :
    s = .count ↔ o.type = .plain .count := by
  rcases h with ht | ⟨p, ht, -, rfl⟩
  · rw [ht, RollingType.plain.injEq]
  · rw [ht]
    exact ⟨nofun, nofun⟩

end RollingOptions

namespace Rolling

variable {o : RollingOptions} {r : Rolling}

/-- **The law of rolling windows.**  Options that are accepted, and do not ask for totals, name a
window of at least one row, and ask for no more present values than it has rows.  What they make of
a column is one cell for each row, which follows from the present values of the window that ends
there.  They can be applied to every table that has the columns they name. -/
theorem windowLaw_of_ofOptions (h : ofOptions o = .ok r) (htype : o.type ≠ .total) :
    ∃ size s, o.window = some size ∧ 0 < size ∧ o.minimum.getD size ≤ size ∧ o.Asks s ∧
      WindowLaw s size (o.minimum.getD size) r.mode.cells ∧
        ∀ t : Table, t.HasColumns o.columns.keys →
          r.apply t = .ok (t.upsertAll (t.computed r.mode.cells o.columns.entries)) := by
  obtain ⟨mode, hmode, rfl⟩ := map_eq_ok.1 h
  obtain ⟨s, w, hs, hw, rfl⟩ := RollingOptions.exists_windowed hmode htype
  have hminimum := RollingOptions.minimum_of_rollingWindow hw
  refine ⟨w.size, s, RollingOptions.size_of_rollingWindow hw, w.size_pos, hminimum ▸ w.minimum_le,
    hs, hminimum ▸ RollingMode.windowLaw s w, fun t ht ↦ ?_⟩
  have hfound : t.requireAll (o.columns.entries.map Prod.fst) = .ok () := Table.requireAll_eq_ok ht
  rw [apply, Table.assign_eq, hfound]
  rfl

/-- As many rows as can be asked for, when two of them are present. -/
def twoSoFar : RollingWindow := ⟨uint64Max, 2, by decide, by decide⟩

/-- A statistic of this window. -/
def soFar (type : RollingType) (typeOptions : Option (Dict Json)) : RollingOptions :=
  ⟨⟨[("sales", "so far")], by decide⟩, type, some uint64Max, typeOptions, some 2⟩

/-- The lower quartile so far. -/
def quartileSoFar : RollingOptions := soFar .quantile (some [("quantile", .num (.float 0.25))])

theorem asks_quartileSoFar {s : RollingStatistic} (h : quartileSoFar.Asks s) :
    s = .quantile 0.25 := by
  have hfraction : RollingOptions.fraction [("quantile", .num (.float 0.25))] = .ok 0.25 := by
    decide +kernel
  rcases h with h | ⟨p, -, hp, rfl⟩
  · cases h
  · rw [Except.ok.inj (hp.symm.trans hfraction)]

/-- Three sales, with a gap after the first. -/
def gapInSales : List (Option Float) := [some 1.0, none, some 3.0, some 8.0]

/-- A statistic that starts with the second value, is this one at the third, and is left as it is by
rows that are appended. -/
def AcrossGap (o : RollingOptions) (atThird : Float) : Prop :=
  ∃ r, ofOptions o = .ok r ∧ o.type ≠ .total ∧
    (r.mode.cells gapInSales)[1]? = some .absent ∧
    (r.mode.cells gapInSales)[3]? = some (.float atThird) ∧
    ∀ more, r.mode.cells gapInSales <+: r.mode.cells (gapInSales ++ more)

/-- The variance and the lower quartile so far. -/
theorem windowLaw_soFar :
    AcrossGap (soFar (.plain .variance) none) 13.0 ∧ AcrossGap quartileSoFar 2.0 := by
  have hpresent : presentIn gapInSales uint64Max 3 = [1.0, 3.0, 8.0] := by decide +kernel
  -- the law for one type, from what it makes of the three sales
  have hone {type : RollingType} {typeOptions : Option (Dict Json)} {r : Rolling}
      {s : RollingStatistic} {x : Float} (hr : ofOptions (soFar type typeOptions) = .ok r)
      (htype : type ≠ .total) (hasks : ∀ s', (soFar type typeOptions).Asks s' → s' = s)
      (hs : s ≠ .count) (hx : s.ofNumbers [1.0, 3.0, 8.0] = some x) (hfinite : x.isFinite = true) :
      AcrossGap (soFar type typeOptions) x := by
    obtain ⟨size, s', hsize, -, -, hs', hlaw, -⟩ := windowLaw_of_ofOptions hr htype
    cases hsize
    cases hasks s' hs'
    have htwo : (soFar type typeOptions).minimum.getD uint64Max = 2 := rfl
    rw [htwo] at hlaw
    obtain ⟨first, hfirst, hfew⟩ := hlaw.follows gapInSales 1 (by decide)
    obtain ⟨last, hlast, henough⟩ := hlaw.follows gapInSales 3 (by decide)
    rw [hpresent] at henough
    refine ⟨r, hr, htype, ?_, ?_, hlaw.append _⟩
    · rw [hfirst, hfew.few hs (by decide +kernel)]
    · rw [hlast, henough.finite hs (by decide) (List.cons_ne_nil _ _) x hx hfinite]
  have hvariance : ofOptions (soFar (.plain .variance) none) =
      .ok ⟨⟨[("sales", "so far")], by decide⟩, .windowed .variance twoSoFar⟩ :=
    rfl
  have hquartile : ofOptions quartileSoFar =
      .ok ⟨⟨[("sales", "so far")], by decide⟩, .windowed (.quantile 0.25) twoSoFar⟩ := by
    decide +kernel
  have hasks (s : RollingStatistic) (h : (soFar (.plain .variance) none).Asks s) :
      s = .variance := by
    rcases h with h | ⟨p, h, -⟩
    · exact (RollingType.plain.inj h).symm
    · cases h
  constructor
  · exact hone hvariance nofun hasks nofun (by decide +kernel) (by decide +kernel)
  · exact hone hquartile nofun (fun _ ↦ asks_quartileSoFar) nofun (by decide +kernel)
      (by decide +kernel)

/-! ## Counts -/

/-- In rows whose window has fewer present values than are asked for there is no value. -/
def HonoursMinimum (size minimum : Nat) (compute : List (Option Float) → List Cell) : Prop :=
  ∀ values row, row < values.length → (presentIn values size row).length < minimum →
    ∃ cell, (compute values)[row]? = some cell ∧ cell.isAbsent = true

/-- By the law of windows that is so except for counts: a row without a value has a count, too. -/
theorem honours_iff_of_windowLaw {s : RollingStatistic} {size minimum : Nat}
    {compute : List (Option Float) → List Cell} (hlaw : WindowLaw s size minimum compute) :
    HonoursMinimum size minimum compute ↔ s ≠ .count ∨ minimum = 0 := by
  constructor
  · intro hhonours
    by_contra hneither
    obtain ⟨hcount, hminimum⟩ := not_or.1 hneither
    have hnone : presentIn [none] size 0 = [] := RollingMode.presentIn_none _
    obtain ⟨cell, hcell, habsent⟩ :=
      hhonours [none] 0 Nat.zero_lt_one (hnone ▸ Nat.pos_of_ne_zero hminimum)
    obtain ⟨cell', hcell', hfollows⟩ := hlaw.follows [none] 0 Nat.zero_lt_one
    obtain rfl : cell = cell' := Option.some.inj (hcell.symm.trans hcell')
    rw [hfollows.count (not_not.1 hcount), hnone] at habsent
    exact absurd habsent (by decide +kernel)
  · rintro (hcount | rfl) values row hrow hfew
    · obtain ⟨cell, hcell, hfollows⟩ := hlaw.follows values row hrow
      exact ⟨cell, hcell, by rw [hfollows.few hcount hfew]; rfl⟩
    · exact absurd hfew (Nat.not_lt_zero _)

/-- **Too few present values make no value, except for counts.**  A count honours the number of
present values that is asked for only when none are asked for; every other statistic does. -/
theorem honoursMinimum_iff (h : ofOptions o = .ok r) (htype : o.type ≠ .total) :
    ∃ size, o.window = some size ∧
      (HonoursMinimum size (o.minimum.getD size) r.mode.cells ↔
        o.type ≠ .plain .count ∨ o.minimum = some 0) := by
  obtain ⟨mode, hmode, rfl⟩ := map_eq_ok.1 h
  obtain ⟨s, w, hs, hw, rfl⟩ := RollingOptions.exists_windowed hmode htype
  have hlaw := RollingMode.windowLaw s w
  rw [RollingOptions.minimum_of_rollingWindow hw] at hlaw
  -- without a number of its own the options ask for all of the window, and so for some values
  have hnone : o.minimum.getD w.size = 0 ↔ o.minimum = some 0 := by
    cases o.minimum with
    | none => exact ⟨fun hzero ↦ absurd hzero w.size_pos.ne', nofun⟩
    | some m => exact Option.some_inj.symm
  refine ⟨w.size, RollingOptions.size_of_rollingWindow hw, ?_⟩
  rw [Ne, ← hs.count_iff, ← hnone]
  exact honours_iff_of_windowLaw hlaw

/-- Means of three rows, all of which have to be present. -/
def meanOfThree : RollingOptions :=
  ⟨⟨[("sales", "mean")], by decide⟩, .plain .mean, some 3, none, none⟩

/-- Counts of three rows, all of which have to be present. -/
def countOfThree : RollingOptions :=
  ⟨⟨[("sales", "count")], by decide⟩, .plain .count, some 3, none, none⟩

/-- A mean of three rows honours that all of them have to be present. -/
theorem honoursMinimum_meanOfThree :
    ∃ r, ofOptions meanOfThree = .ok r ∧ meanOfThree.type ≠ .total ∧
      HonoursMinimum 3 3 r.mode.cells := by
  obtain ⟨size, hsize, hiff⟩ := honoursMinimum_iff (o := meanOfThree) rfl nofun
  cases hsize
  exact ⟨_, rfl, nofun, hiff.2 (.inl nofun)⟩

/-- A count of three rows has a value in the first row, and in the second. -/
theorem countOfThree_incomplete :
    ∃ r, ofOptions countOfThree = .ok r ∧ ¬ HonoursMinimum 3 3 r.mode.cells ∧
      r.mode.cells [some 5.0, some 7.0, some 9.0] = [.float 1.0, .float 2.0, .float 3.0] := by
  refine ⟨_, rfl, fun hhonours ↦ ?_, by decide +kernel⟩
  obtain ⟨cell, hcell, habsent⟩ := hhonours [some 5.0, some 7.0, some 9.0] 0 (by decide)
    (by decide +kernel)
  cases hcell
  exact absurd habsent (by decide +kernel)

end Rolling

end ChartFeed
