import ChartFeed.Proofs.Decimal.Overflow
import ChartFeed.Proofs.Transform.Reordering

/-!
# Tables of finite doubles

A computed double may be an infinity, or no number at all.  Most of what computes doubles stores
them with `Cell.ofFloat?`, which leaves out what is not finite.  This file goes through all
transforms but running totals.

* `Table.Finite` — every double in the table is finite;
* `Table.finite_upsertAll_iff` — columns that are stored keep it so exactly when those that are
  stored last under their names do;
* `Summary.finite_result`, `Pivot.finite_result`, `RowSort.finite_result`, … — nothing else gets
  into the results of transforms;
* `Transform.Bounded` — two transforms take what they store from their options: a pivot fills cells,
  and a window counts its rows.  `Transform.bounded_of_read` says that options have nothing to offer
  that is not finite.
-/

set_option autoImplicit false

namespace ChartFeed

/-! ## Cells -/

/-- If the cell holds a double, it is finite. -/
def Cell.Finite : Cell → Prop
  | .float x => x.isFinite = true
  | .absent | .bool _ | .int _ | .text _ | .instant _ => True

instance (c : Cell) : Decidable c.Finite :=
  match c with
  | .float x => inferInstanceAs (Decidable (x.isFinite = true))
  | .absent | .bool _ | .int _ | .text _ | .instant _ => .isTrue trivial

theorem Cell.finite_ofFloat? (x : Option Float) : (ofFloat? x).Finite := by
  cases x with
  | none => trivial
  | some x =>
    rw [ofFloat?]
    split
    · assumption
    · trivial

/-- Beyond the last cell there is nothing. -/
theorem Cell.finite_getD {cells : List Cell} (h : ∀ cell ∈ cells, cell.Finite) (n : Nat) :
    (cells.getD n .absent).Finite := by
  rw [List.getD_eq_getElem?_getD]
  cases hcell : cells[n]? with
  | none => trivial
  | some cell => exact h cell (List.mem_of_getElem? hcell)

/-- The cell for a value that JSON text can hold. -/
theorem Cell.finite_ofJson {v : Json} (h : v.WellFormed) : (ofJson v).Finite := by
  cases v with
  | null | bool | str | arr | obj => trivial
  | num n =>
    rw [ofJson]
    split
    · trivial
    · next hnone =>
      cases n with
      | float x => exact h
      | int n =>
        have hrange : int64Min ≤ n ∧ n ≤ uint64Max := h
        -- what does not fit is positive, for texts hold nothing below the least integer
        have hbig : int64Max < n := by
          by_contra hle
          simp [Json.asInt64?, fitsInt64, hrange, Int.not_lt.1 hle] at hnone
        have hpositive : 0 ≤ n := le_of_lt (lt_trans (by decide) hbig)
        obtain ⟨m, rfl⟩ := Int.eq_ofNat_of_zero_le hpositive
        exact Decimal.isFinite_ofNat (Int.ofNat_le.1 hrange.2)

/-! ## Columns and tables -/

/-- Every double in the column is finite. -/
def Column.Finite (c : Column) : Prop := ∀ cell ∈ c.cells, cell.Finite

instance (c : Column) : Decidable c.Finite :=
  inferInstanceAs (Decidable (∀ cell ∈ c.cells, cell.Finite))

/-- Every double in the table is finite. -/
def Table.Finite (t : Table) : Prop := ∀ c ∈ t.columns, c.Finite

instance (t : Table) : Decidable t.Finite :=
  inferInstanceAs (Decidable (∀ c ∈ t.columns, c.Finite))

theorem Column.Finite.cellAt {c : Column} (h : c.Finite) (row : Nat) : (c.cellAt row).Finite :=
  Cell.finite_getD h row

namespace Table

variable {t : Table} {assignments : List (String × List Cell)}

/-- A column that is not there has no doubles. -/
theorem Finite.source (ht : t.Finite) (name : String) : (t.source name).Finite := by
  rw [Table.source]
  cases hcolumn : t.column? name with
  | none => exact List.forall_mem_nil _
  | some c => exact ht c (column?_eq_some hcolumn).1

theorem Finite.upsertAll (ht : t.Finite) (h : ∀ a ∈ assignments, ∀ cell ∈ a.2, cell.Finite) :
    (t.upsertAll assignments).Finite := by
  induction assignments generalizing t with
  | nil => exact ht
  | cons a rest ih =>
    obtain ⟨ha, hrest⟩ := List.forall_mem_cons.1 h
    refine ih (fun c hc ↦ ?_) hrest
    rcases mem_upsertColumns hc with hc | hc
    · exact ht c hc
    · exact fun cell hcell ↦ ha cell (hc ▸ hcell)

/-- **Columns that are stored last under their names** decide; the others are replaced. -/
theorem finite_upsertAll_iff (ht : t.Finite) : (t.upsertAll assignments).Finite ↔
    ∀ a ∈ Dict.ofEntries assignments, ∀ cell ∈ a.2, cell.Finite := by
  rw [← upsertAll_ofEntries]
  refine ⟨fun h a ha ↦ ?_, ht.upsertAll⟩
  have hfound := column?_upsertAll (t := t) (Dict.nodup_keys_ofEntries assignments) ha
  exact h _ (column?_eq_some hfound).1

end Table

/-! ## Summaries -/

variable {t : Table}

theorem Measure.finite_of (m : Measure) (cells : List Cell) : (m.of cells).Finite := by
  unfold Measure.of
  split
  · trivial
  · split
    · trivial
    · exact Cell.finite_ofFloat? _

/-- The keys of groups are made of the cells that rows are grouped by. -/
theorem Grouping.finite_of_mem_keys {columns : List Column} (h : ∀ c ∈ columns, c.Finite)
    {key : Key} (hkey : key ∈ (ofColumns columns).keys) : ∀ cell ∈ key, cell.Finite := by
  rw [ofColumns_eq] at hkey
  obtain ⟨row, -, hrow⟩ := exists_of_mem_keys hkey
  rw [← (presentKeyAt_eq_some_iff.1 hrow).1]
  exact List.forall_mem_map.2 fun c hc ↦ (h c hc).cellAt row

theorem Summary.finite_keyColumns {keys : List Key}
    (h : ∀ key ∈ keys, ∀ cell ∈ key, cell.Finite) (names : List String) :
    ∀ c ∈ keyColumns keys names, c.Finite := by
  refine List.forall_mem_map.2 fun x _ ↦ List.forall_mem_map.2 fun key hkey ↦ ?_
  exact Cell.finite_getD (h key hkey) x.2

theorem Table.Finite.mem_keys (ht : t.Finite) (names : List String) :
    ∀ key ∈ (Grouping.ofColumns (names.map t.source)).keys, ∀ cell ∈ key, cell.Finite :=
  fun _ ↦ Grouping.finite_of_mem_keys (List.forall_mem_map.2 fun name _ ↦ ht.source name)

theorem Summary.finite_result (s : Summary) (ht : t.Finite) : (s.result t).Finite := by
  have hkeys : ∀ key ∈ (s.rowGroups t).keys, ∀ cell ∈ key, cell.Finite := by
    rw [rowGroups, groups]
    split
    · exact List.forall_mem_singleton.2 (List.forall_mem_nil _)
    · exact ht.mem_keys s.groupby
  refine List.forall_mem_append.2 ⟨finite_keyColumns hkeys s.groupby, ?_⟩
  exact List.forall_mem_map.2 fun a _ ↦ List.forall_mem_map.2 fun group _ ↦ a.measure.finite_of _

/-! ## Pivots -/

namespace Pivot

theorem finite_rawCells (m : Measure) (source : Column) (key : Key)
    (groups : List (Key × Grouping)) : ∀ cell ∈ rawCells m source key groups, cell.Finite := by
  rw [rawCells, List.forall_mem_map]
  rintro ⟨outer, inner⟩ -
  dsimp only
  split
  · exact m.finite_of _
  · trivial

/-- What fills cells that a pivot leaves without a value is finite. -/
def FillFinite (p : Pivot) : Prop := ∀ cell, p.cellFill = some cell → cell.Finite

theorem finite_fillCells {fill : Option Cell} (hfill : ∀ cell, fill = some cell → cell.Finite)
    {cells : List Cell} (h : ∀ cell ∈ cells, cell.Finite) :
    ∀ cell ∈ fillCells fill cells, cell.Finite := by
  cases fill with
  | none => exact h
  | some value =>
    refine List.forall_mem_map.2 fun cell hcell ↦ ?_
    split
    · exact hfill value rfl
    · exact h cell hcell

theorem finite_result {p : Pivot} (hfill : p.FillFinite) (ht : t.Finite) :
    (p.result t).Finite := by
  have hkeys : ∀ key ∈ p.outputKeys t, ∀ cell ∈ key, cell.Finite := by
    intro key hkey
    rw [outputKeys_eq] at hkey
    exact ht.mem_keys p.index key (Grouping.keys_gathered_subset _ hkey)
  refine List.forall_mem_append.2 ⟨Summary.finite_keyColumns hkeys p.index, ?_⟩
  intro c hc
  obtain ⟨x, -, hx⟩ := List.mem_filterMap.1 hc
  simp only [outputColumn] at hx
  split at hx
  · cases hx
  · cases hx
    exact finite_fillCells hfill (finite_rawCells _ _ _ _)

end Pivot

/-! ## Sorting and selecting -/

theorem RowSort.finite_result (s : RowSort) (ht : t.Finite) : (s.result t).Finite :=
  List.forall_mem_map.2 fun c hc ↦ List.forall_mem_map.2 fun row _ ↦ (ht c hc).cellAt row

theorem Selection.finite_result (s : Selection) (ht : t.Finite) : (s.result t).Finite :=
  List.forall_mem_map.2 fun names _ ↦ ht.source names.1

/-! ## Columns computed from columns -/

theorem Table.Finite.upsertAll_computed (ht : t.Finite)
    {compute : List (Option Float) → List Cell}
    (h : ∀ values, ∀ cell ∈ compute values, cell.Finite) (mapping : List (String × String)) :
    (t.upsertAll (t.computed compute mapping)).Finite :=
  ht.upsertAll (List.forall_mem_map.2 fun _ _ ↦ h _)

/-- The number of rows is an integer of 64 bits, so that their count is a finite double. -/
def RollingWindow.Countable (w : RollingWindow) : Prop := w.size ≤ uint64Max

theorem RollingStatistic.finite_cell (s : RollingStatistic) (minimum : Nat) {present : List Float}
    (h : present.length ≤ uint64Max) : (s.cell minimum present).Finite := by
  unfold cell
  split
  · exact Decimal.isFinite_ofNat h
  · split
    · trivial
    · split
      · show (0.0 : Float).isFinite = true
        decide +kernel
      · trivial
      · exact Cell.finite_ofFloat? _

theorem RollingMode.length_presentAt_le (values : List (Option Float)) (size row : Nat) :
    (presentAt values size row).length ≤ size := by
  have hlength := List.length_filterMap_le id ((values.take (row + 1)).drop (row + 1 - size))
  rw [List.length_drop, List.length_take] at hlength
  rw [presentAt]
  omega

theorem RollingMode.finite_cells_windowed (s : RollingStatistic) {w : RollingWindow}
    (hw : w.Countable) (values : List (Option Float)) :
    ∀ cell ∈ (windowed s w).cells values, cell.Finite :=
  List.forall_mem_map.2 fun row _ ↦
    s.finite_cell w.minimum ((length_presentAt_le values w.size row).trans hw)

theorem Difference.finite_differences (periods : Int) (values : List (Option Float)) :
    ∀ cell ∈ differences periods values, cell.Finite := by
  refine List.forall_mem_map.2 fun row _ ↦ ?_
  rw [differenceAt]
  split
  · exact Cell.finite_ofFloat? _
  · trivial

namespace Contribution

theorem finite_share (total : Float) (value : Option Float) : (share total value).Finite := by
  rw [share]
  split
  · trivial
  · exact Cell.finite_ofFloat? _

theorem finite_shares (orientation : Orientation) (rows : Nat)
    (series : List (List (Option Float))) :
    ∀ cells ∈ shares orientation rows series, ∀ cell ∈ cells, cell.Finite := by
  cases orientation <;>
    exact List.forall_mem_map.2 fun _ _ ↦ List.forall_mem_map.2 fun _ _ ↦ finite_share _ _

theorem finite_result (c : Contribution) (ht : t.Finite) : (c.result t).Finite :=
  ht.upsertAll fun _ ha ↦ finite_shares _ _ _ _ (List.of_mem_zip ha).2

end Contribution

/-! ## What options can ask for -/

namespace Transform

/-- What a transform stores of its options is finite. -/
def Bounded : Transform → Prop
  | .pivot p => p.FillFinite
  | .rolling ⟨_, .windowed _ w⟩ => w.Countable
  | _ => True

end Transform

theorem RollingOptions.size_of_rollingWindow {o : RollingOptions} {w : RollingWindow}
    (h : o.rollingWindow = .ok w) : o.window = some w.size := by
  rw [rollingWindow] at h
  split at h
  · cases h
  · next size hsize =>
    split at h
    · split at h
      · cases h
        exact hsize
      · split at h
        · cases h
          exact hsize
        · cases h
    · cases h

theorem Shape.unsigned_le {v : Json} {n : Nat} (h : Shape.unsigned v = .ok n) :
    n ≤ uint64Max := by
  cases v with
  | num m =>
    cases m with
    | int i =>
      rw [unsigned] at h
      split at h
      · next hrange =>
        cases h
        omega
      · cases h
    | float => cases h
  | null | bool | str | arr | obj => cases h

theorem RollingOptions.countable_of_read {v : Json} {o : RollingOptions} {w : RollingWindow}
    (ho : read v = .ok o) (hw : o.rollingWindow = .ok w) : w.Countable := by
  simp only [read, bind_eq_ok, pure_eq_ok] at ho
  obtain ⟨d, -, columns, -, type, -, window, hwindow, options, -, minimum, -, rfl⟩ := ho
  have hsize : window = some w.size := size_of_rollingWindow hw
  rcases Dict.optional_eq_ok hwindow with ⟨-, hnone⟩ | ⟨v, x, -, -, hx, hsome⟩
  · cases hnone.symm.trans hsize
  · cases hsome.symm.trans hsize
    exact Shape.unsigned_le hx

theorem Pivot.fillFinite_of_read {v : Json} (hv : v.WellFormed) {o : Options} {p : Pivot}
    (ho : Options.read v = .ok o) (hp : ofOptions o = .ok p) : p.FillFinite := by
  simp only [Options.read, bind_eq_ok, pure_eq_ok] at ho
  obtain ⟨d, hd, index, -, columns, -, specs, -, fill, hfill, keyFill, -, dropEmpty, -, keyFirst, -,
    rfl⟩ := ho
  obtain ⟨as, -, -, -, rfl⟩ := ofOptions_eq_ok hp
  -- the fields of a well-formed value are alike to themselves, which says that they are well formed
  have hfields : Dict.Alike d d := Record.entries_alike (.refl hv) hd hd
  intro cell hcell
  obtain ⟨value, rfl, rfl⟩ := Option.map_eq_some_iff.1 hcell
  cases hfields.optional Shape.respects_any hfill hfill with
  | some halike => exact Cell.finite_ofJson halike.left

namespace Transform

theorem bounded_of_ofOptions {operation : String} {v : Json} {f : Transform} (hv : v.WellFormed)
    (h : ofOptions operation v = .ok f) : f.Bounded := by
  unfold ofOptions at h
  split at h
  · obtain ⟨o, s, -, -, rfl⟩ := of_shaped_bind h
    trivial
  · obtain ⟨o, p, ho, hp, rfl⟩ := of_shaped_bind h
    exact Pivot.fillFinite_of_read hv ho hp
  · obtain ⟨s, -, rfl⟩ := of_shaped_map h
    trivial
  · obtain ⟨o, r, ho, hr, rfl⟩ := of_shaped_bind h
    obtain ⟨mode, hmode, rfl⟩ := map_eq_ok.1 (checked_eq_ok hr)
    rcases RollingOptions.mode_eq_ok hmode with
      ⟨-, rfl⟩ | ⟨s, w, -, hw, rfl⟩ | ⟨w, p, -, hw, -, rfl⟩
    · trivial
    · exact RollingOptions.countable_of_read ho hw
    · exact RollingOptions.countable_of_read ho hw
  · obtain ⟨s, -, rfl⟩ := of_shaped_map h
    trivial
  · obtain ⟨d, -, rfl⟩ := of_shaped_map h
    trivial
  · obtain ⟨r, -, rfl⟩ := of_shaped_map h
    trivial
  · obtain ⟨o, c, -, -, rfl⟩ := of_shaped_bind h
    trivial
  · cases h

/-- **Options that text can hold** ask for nothing that is not finite. -/
theorem bounded_of_read {v : Json} {f : Transform} (hv : v.WellFormed) (h : read v = .ok f) :
    f.Bounded := by
  cases v with
  | null | bool | num | str | arr => cases h
  | obj step =>
    rw [read] at h
    split at h
    · cases h
    · exact bounded_of_ofOptions (optionsOf_alike (Dict.Alike.refl hv)).left h

end Transform

/-- So do steps that are read. -/
theorem Step.bounded_of_mem_readAll {values : List Json} {steps : List Step}
    (hvalues : ∀ v ∈ values, v.WellFormed) (h : readAll values = .ok steps) {s : Step}
    (hs : s ∈ steps) : s.transform.Bounded := by
  have hmem : s.source ∈ values.filter Json.truthy := by
    rw [← sources_of_readAll h]
    exact List.mem_map_of_mem hs
  exact Transform.bounded_of_read (hvalues _ (List.mem_filter.1 hmem).1)
    (transform_of_mem_readAll h hs)

end ChartFeed
