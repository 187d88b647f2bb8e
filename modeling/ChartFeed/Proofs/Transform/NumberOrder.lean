import Mathlib
import ChartFeed.Proofs.Table.Numbers
import ChartFeed.Proofs.Transform.KeyOrder
import ChartFeed.Proofs.Transform.Sorting

/-!
# Numbers in groups and in sorted columns

Groups are made of cells that compare as equal, and sorted columns of cells that are not after one
another, so both are as good as the order of cells is at telling numbers apart.

* `Grouping.order_eq_of_mem_group` — in a group, all cells of a column compare as equal to one;
* `Summary.SeparatesNumbers`, `Pivot.SeparatesNumbers` — no group has two different numbers in a
  column that it is grouped by;
* `RowSort.AscendsNumbers` — no number is before a smaller one in the column that is sorted first;
* `numbers_faithful_iff` — all of them hold on every table of these cells iff no two of the cells
  are misjudged, or merged.
-/

set_option autoImplicit false

namespace ChartFeed

/-- The cells of the columns with these names are of this kind. -/
def Table.HasKind (kind : Cell → Prop) (names : List String) (t : Table) : Prop :=
  ∀ name ∈ names, ∀ cell ∈ (t.source name).cells, kind cell

/-- Both cells hold numbers, and not the same. -/
def Cell.DifferentNumbers (a b : Cell) : Prop := a.IsNumber ∧ b.IsNumber ∧ a.number ≠ b.number

/-- No two cells of this kind are numbers that are not compared as the numbers that they are. -/
def NoneMisjudged (kind : Cell → Prop) : Prop := ∀ a b, kind a → kind b → ¬ Cell.Misjudged a b

/-- No two cells of this kind are different numbers that compare as equal. -/
def NoneMerged (kind : Cell → Prop) : Prop :=
  ∀ a b, kind a → kind b → a.order b = .eq → ¬ Cell.Misjudged a b

/-- No group has different numbers in a column that it is grouped by. -/
def Summary.SeparatesNumbers (s : Summary) (t : Table) : Prop :=
  ∀ group ∈ s.rowGroups t, ∀ row ∈ group.2, ∀ row' ∈ group.2, ∀ name ∈ s.groupby,
    ¬ Cell.DifferentNumbers ((t.source name).cellAt row) ((t.source name).cellAt row')

/-- No group has different numbers in a column of the index or of the pivot. -/
def Pivot.SeparatesNumbers (p : Pivot) (t : Table) : Prop :=
  ∀ group ∈ cellGroups (p.rowKey t) (p.rowGroups t), ∀ inner ∈ group.2, ∀ row ∈ inner.2,
    ∀ row' ∈ inner.2, ∀ name ∈ p.index ++ p.columns,
      ¬ Cell.DifferentNumbers ((t.source name).cellAt row) ((t.source name).cellAt row')

/-- In the sorted table no number is before a smaller one in the column with this name. -/
def RowSort.AscendsNumbers (s : RowSort) (name : String) (t : Table) : Prop :=
  ∀ u, s.apply t = .ok u → (u.source name).cells.Pairwise fun a b ↦
    a.IsNumber → b.IsNumber → a.numberOrder b ≠ .gt

/-! ## Cells that compare as equal -/

namespace Cell

variable {a b c : Cell}

theorem place_eq_of_order_eq (h : a.order b = .eq) : a.place = b.place := by
  by_contra hne
  rw [order_of_place_ne hne, compare_eq_iff_eq] at h
  exact hne h

theorem IsNumber.of_order_eq (ha : a.IsNumber) (h : a.order b = .eq) : b.IsNumber := by
  rw [← place_eq_one_iff] at ha ⊢
  exact (place_eq_of_order_eq h).symm.trans ha

/-- Numbers that compare as equal are the same, unless they are misjudged. -/
theorem number_eq_of_order_eq (ha : a.IsNumber) (h : a.order b = .eq) (hab : ¬ Misjudged a b) :
    a.number = b.number := by
  rw [(order_eq_numberOrder_iff ha (ha.of_order_eq h)).2 hab, numberOrder,
    Ordering.then_eq_eq, compare_eq_iff_eq] at h
  exact h.1

/-- Numbers that compare as equal to one cell are the same, if none are merged. -/
theorem number_eq_of_order_eq_of_order_eq {kind : Cell → Prop} (hkind : NoneMerged kind)
    (hka : kind a) (hkb : kind b) (hkc : kind c) (hna : a.IsNumber) (hnb : b.IsNumber)
    (ha : a.order c = .eq) (hb : b.order c = .eq) : a.number = b.number :=
  (number_eq_of_order_eq hna ha (hkind a c hka hkc ha)).trans
    (number_eq_of_order_eq hnb hb (hkind b c hkb hkc hb)).symm

/-- Blurred cells are misjudged. -/
theorem Blurred.misjudged (h : Blurred a b c) : Misjudged a b ∨ Misjudged b c := by
  have horder := h.order_eq
  obtain ⟨m, n, x, rfl, rfl, rfl, hlt, hx, -⟩ := h
  by_contra hnone
  obtain ⟨hab, hbc⟩ := not_or.1 hnone
  have hnumber : IsNumber (.float x) := ⟨rfl, isAbsent_float_of_isFinite hx⟩
  have hmx := number_eq_of_order_eq ⟨rfl, rfl⟩ horder.1 hab
  have hxn := number_eq_of_order_eq hnumber horder.2.1 hbc
  have hmn : (m : ℚ) = n := WithTop.coe_injective (WithBot.coe_injective (hmx.trans hxn))
  exact hlt.ne' (by exact_mod_cast hmn)

end Cell

/-- Cells of which none are merged are compared transitively, as one of the two pairs that a double
blurs is merged. -/
theorem NoneMerged.transitiveOn {kind : Cell → Prop} (h : NoneMerged kind) :
    TransitiveOn Cell.order kind := by
  refine Cell.transitiveOn_order_iff.2 fun a b c ha hb hc hblurred ↦ ?_
  obtain ⟨hab, hbc, -⟩ := hblurred.order_eq
  exact hblurred.misjudged.elim (h a b ha hb hab) (h b c hb hc hbc)

theorem NoneMisjudged.noneMerged {kind : Cell → Prop} (h : NoneMisjudged kind) : NoneMerged kind :=
  fun a b ha hb _ ↦ h a b ha hb

theorem Column.cellAt_mem {c : Column} {row : Nat} (h : (c.cellAt row).isAbsent = false) :
    c.cellAt row ∈ c.cells := by
  rw [cellAt, List.getD_eq_getElem?_getD] at h ⊢
  cases hcell : c.cells[row]? with
  | none =>
    rw [hcell] at h
    cases h
  | some cell => exact List.mem_of_getElem? hcell

/-! ## Groups -/

section

variable {kind : Cell → Prop} {t : Table} {names : List String}

/-- In a group, the cells that a column gives to the keys compare as equal to one of them. -/
theorem Grouping.order_eq_of_mem_group {columns : List Column} {keyOf : Nat → Option Key}
    {keyed : Nat → Column → Cell} {rows : List Nat}
    (hkeyOf : ∀ row key, keyOf row = some key → key = columns.map (keyed row))
    {x : Key × List Nat} (hx : x ∈ ofRows keyOf rows) :
    ∃ first, ∀ row ∈ x.2, ∀ c ∈ columns, (keyed row c).order (keyed first c) = .eq := by
  obtain ⟨first, -, hfirst⟩ := exists_of_mem_keys (List.mem_map_of_mem hx)
  refine ⟨first, fun row hrow ↦ ?_⟩
  obtain ⟨key, hkey, heq⟩ := order_eq_of_mem hx hrow
  rw [hkeyOf row key hkey, hkeyOf first _ hfirst, Key.order_eq_eq_iff, List.forall₂_map_left_iff,
    List.forall₂_map_right_iff, List.forall₂_same] at heq
  exact heq

theorem Table.HasKind.cellAt (h : t.HasKind kind names) {name : String} (hname : name ∈ names)
    {row : Nat} (hcell : ((t.source name).cellAt row).IsNumber) :
    kind ((t.source name).cellAt row) :=
  h name hname _ (Column.cellAt_mem hcell.2)

/-- The keys of the groups ascend if no cells are merged. -/
theorem Grouping.ascending_keys_of_noneMerged (hkind : NoneMerged kind)
    (ht : t.HasKind kind names) : Ascending (ofColumns (names.map t.source)).keys := by
  rw [ofColumns_eq]
  refine (sorted_ofRows (Key.transitiveOn_forall_mem_iff.2 hkind.transitiveOn)
    fun row _ key hkey ↦ ?_).ascending
  obtain ⟨rfl, hpresent⟩ := presentKeyAt_eq_some_iff.1 hkey
  simp only [List.any_eq_true, not_exists, not_and, Bool.not_eq_true] at hpresent
  intro cell hcell
  have hsome := hpresent cell hcell
  obtain ⟨c, hc, rfl⟩ := List.mem_map.1 hcell
  obtain ⟨name, hname, rfl⟩ := List.mem_map.1 hc
  exact ht name hname _ (Column.cellAt_mem hsome)

/-- Keys of the cells of some columns keep different numbers apart if none are merged.  What stands
for absent cells does not matter as long as it is no number. -/
theorem Grouping.not_differentNumbers (hkind : NoneMerged kind) (ht : t.HasKind kind names)
    {keyOf : Nat → Option Key} {keyed : Nat → Column → Cell} {rows : List Nat}
    (hkeyOf : ∀ row key, keyOf row = some key → key = (names.map t.source).map (keyed row))
    (hpresent : ∀ row c, (c.cellAt row).isAbsent = false → keyed row c = c.cellAt row)
    (hnumber : ∀ row c, (keyed row c).IsNumber → keyed row c = c.cellAt row)
    {x : Key × List Nat} (hx : x ∈ ofRows keyOf rows) {row row' : Nat} (hrow : row ∈ x.2)
    (hrow' : row' ∈ x.2) {name : String} (hname : name ∈ names) :
    ¬ Cell.DifferentNumbers ((t.source name).cellAt row) ((t.source name).cellAt row') := by
  rintro ⟨hn, hn', hne⟩
  obtain ⟨first, hfirst⟩ := order_eq_of_mem_group hkeyOf hx
  have hc : t.source name ∈ names.map t.source := List.mem_map_of_mem hname
  have heq := hfirst row hrow _ hc
  have heq' := hfirst row' hrow' _ hc
  rw [hpresent _ _ hn.2] at heq
  rw [hpresent _ _ hn'.2] at heq'
  have hcell := hnumber _ _ (hn.of_order_eq heq)
  rw [hcell] at heq heq'
  have hfirstn := hn.of_order_eq heq
  exact hne (Cell.number_eq_of_order_eq_of_order_eq hkind (ht.cellAt hname hn)
    (ht.cellAt hname hn') (ht.cellAt hname hfirstn) hn hn' heq heq')

/-- Grouping by columns keeps different numbers apart if none are merged. -/
theorem Grouping.not_differentNumbers_ofColumns (hkind : NoneMerged kind)
    (ht : t.HasKind kind names) {x : Key × List Nat} (hx : x ∈ ofColumns (names.map t.source))
    {row row' : Nat} (hrow : row ∈ x.2) (hrow' : row' ∈ x.2) {name : String}
    (hname : name ∈ names) :
    ¬ Cell.DifferentNumbers ((t.source name).cellAt row) ((t.source name).cellAt row') := by
  rw [ofColumns_eq] at hx
  have hkeyOf (row : Nat) (key : Key) (h : presentKeyAt (names.map t.source) row = some key) :
      key = (names.map t.source).map fun c ↦ c.cellAt row :=
    (presentKeyAt_eq_some_iff.1 h).1.symm
  exact not_differentNumbers hkind ht hkeyOf (fun _ _ _ ↦ rfl) (fun _ _ _ ↦ rfl) hx hrow hrow' hname

namespace Pivot

/-- The cell that a column gives to a pivot's keys. -/
def keyedCell (fill : Option Cell) (row : Nat) (c : Column) : Cell :=
  (keyCell fill (c.cellAt row)).getD .absent

theorem keyAt_eq_map {fill : Option Cell} {columns : List Column} {row : Nat} {key : Key}
    (h : keyAt fill columns row = some key) : key = columns.map (keyedCell fill row) := by
  induction columns generalizing key with
  | nil => exact (Option.some.inj h).symm
  | cons c rest ih =>
    rw [keyAt] at h
    split at h
    · cases h
    · next cell hcell =>
      obtain ⟨keys, hkeys, rfl⟩ := Option.map_eq_some_iff.1 h
      rw [List.map_cons, keyedCell, hcell, ih hkeys]
      rfl

theorem keyedCell_of_present (fill : Option Cell) {row : Nat} {c : Column}
    (h : (c.cellAt row).isAbsent = false) : keyedCell fill row c = c.cellAt row := by
  rw [keyedCell, keyCell, h]
  rfl

/-- Only numbers give numbers to the keys; what is filled in is a text. -/
theorem keyedCell_of_isNumber (fill : Option String) {row : Nat} {c : Column}
    (h : (keyedCell (fill.map Cell.text) row c).IsNumber) :
    keyedCell (fill.map Cell.text) row c = c.cellAt row := by
  cases habsent : (c.cellAt row).isAbsent
  · exact keyedCell_of_present _ habsent
  · rw [keyedCell, keyCell, habsent] at h
    cases fill <;> cases h.1

/-- The groups of a pivot keep different numbers apart if none are merged. -/
theorem separatesNumbers {p : Pivot} (hkind : NoneMerged kind)
    (ht : t.HasKind kind (p.index ++ p.columns)) : p.SeparatesNumbers t := by
  intro group hgroup inner hinner row hrow row' hrow' name hname
  have hascending : Grouping.Ascending (p.rowGroups t).keys :=
    Grouping.ascending_keys_of_noneMerged hkind fun name hname ↦
      ht name (List.mem_append_left _ hname)
  rw [cellGroups_eq, Grouping.gathered_eq_self hascending] at hgroup
  obtain ⟨x, hx, rfl⟩ := List.mem_map.1 hgroup
  rcases List.mem_append.1 hname with hindex | hcolumn
  · have hrows := Grouping.rows_subset_of_mem_ofRows hinner
    exact Grouping.not_differentNumbers_ofColumns hkind
      (fun name hname ↦ ht name (List.mem_append_left _ hname)) hx (hrows hrow) (hrows hrow') hindex
  · exact Grouping.not_differentNumbers hkind
      (fun name hname ↦ ht name (List.mem_append_right _ hname)) (fun _ _ ↦ keyAt_eq_map)
      (fun _ _ ↦ keyedCell_of_present _) (fun _ _ ↦ keyedCell_of_isNumber p.keyFill) hinner hrow
      hrow' hcolumn

end Pivot

/-- The groups of a summary keep different numbers apart if none are merged. -/
theorem Summary.separatesNumbers {s : Summary} (hkind : NoneMerged kind)
    (ht : t.HasKind kind s.groupby) : s.SeparatesNumbers t := by
  intro group hgroup row hrow row' hrow' name hname
  rw [rowGroups, groups, if_neg] at hgroup
  · exact Grouping.not_differentNumbers_ofColumns hkind ht hgroup hrow hrow' hname
  · rw [List.isEmpty_iff]
    exact List.ne_nil_of_mem (List.mem_map_of_mem hname)

end

/-! ## Two rows that are merged -/

section

variable {kind : Cell → Prop} {a b : Cell} {names wanted : List String}

theorem Table.hasKind_uniform (ha : kind a) (hb : kind b) (h : ∀ name ∈ wanted, name ∈ names) :
    (uniform names [a, b]).HasKind kind wanted := by
  intro name hname
  rw [source_uniform (h name hname)]
  exact List.forall_mem_cons.2 ⟨ha, List.forall_mem_singleton.2 hb⟩

/-- Two rows with keys that compare as equal are one group. -/
theorem Grouping.ofRows_pair {keyOf : Nat → Option Key} {k k' : Key} (h : keyOf 0 = some k)
    (h' : keyOf 1 = some k') (heq : Key.order k' k = .eq) :
    ofRows keyOf [0, 1] = [(k, [0, 1])] := by
  simp only [ofRows, addRows, List.foldl_cons, List.foldl_nil, h, h', add_nil, add_cons, heq,
    List.singleton_append]

/-- In a uniform table, two rows with cells that compare as equal are one group. -/
theorem Grouping.ofColumns_uniform_pair (hnames : names ≠ []) (ha : a.isAbsent = false)
    (hb : b.isAbsent = false) (heq : b.order a = .eq) :
    ofColumns (names.map (Table.uniformColumn [a, b])) =
      [(List.replicate names.length a, [0, 1])] := by
  rw [ofColumns_uniform hnames]
  exact ofRows_pair (presentKeyAt_uniform ha) (presentKeyAt_uniform hb)
    (Key.order_replicate_eq heq _)

theorem Summary.noneMerged {s : Summary} (hgroupby : s.groupby ≠ [])
    (h : ∀ t : Table, t.HasKind kind s.groupby → s.SeparatesNumbers t) : NoneMerged kind := by
  intro a b ha hb heq hmisjudged
  have hgroup := h (.uniform s.groupby [b, a]) (Table.hasKind_uniform hb ha fun _ ↦ id)
  obtain ⟨name, rest, hnames⟩ := List.exists_cons_of_ne_nil hgroupby
  have hname : name ∈ s.groupby := hnames ▸ List.mem_cons_self ..
  have hrows : s.rowGroups (.uniform s.groupby [b, a]) =
      [(List.replicate s.groupby.length b, [0, 1])] := by
    rw [rowGroups, groups, Table.sources_uniform fun _ ↦ id, if_neg]
    · exact Grouping.ofColumns_uniform_pair hgroupby hmisjudged.2.1.2 hmisjudged.1.2 heq
    · simpa using hgroupby
  have := hgroup _ (hrows ▸ List.mem_singleton_self _) 1 (by simp) 0 (by simp) name hname
  rw [Table.source_uniform hname] at this
  exact this ⟨hmisjudged.1, hmisjudged.2.1, hmisjudged.number_ne⟩

theorem Pivot.noneMerged {p : Pivot} (hindex : p.index ≠ [])
    (h : ∀ t : Table, t.HasKind kind (p.index ++ p.columns) → p.SeparatesNumbers t) :
    NoneMerged kind := by
  intro a b ha hb heq hmisjudged
  have hgroup := h (.uniform (p.index ++ p.columns) [b, a]) (Table.hasKind_uniform hb ha fun _ ↦ id)
  obtain ⟨name, rest, hnames⟩ := List.exists_cons_of_ne_nil hindex
  have hname : name ∈ p.index ++ p.columns := by simp [hnames]
  have hrows : p.rowGroups (.uniform (p.index ++ p.columns) [b, a]) =
      [(List.replicate p.index.length b, [0, 1])] := by
    rw [rowGroups, Table.sources_uniform fun _ ↦ List.mem_append_left _]
    exact Grouping.ofColumns_uniform_pair hindex hmisjudged.2.1.2 hmisjudged.1.2 heq
  have hinner : Grouping.ofRows (p.rowKey (.uniform (p.index ++ p.columns) [b, a])) [0, 1] =
      [(List.replicate p.columns.length b, [0, 1])] := by
    rw [rowKey, Table.sources_uniform fun _ ↦ List.mem_append_right _]
    exact Grouping.ofRows_pair (keyAt_uniform _ hmisjudged.2.1.2) (keyAt_uniform _ hmisjudged.1.2)
      (Key.order_replicate_eq heq _)
  have hcells : cellGroups (p.rowKey (.uniform (p.index ++ p.columns) [b, a]))
      (p.rowGroups (.uniform (p.index ++ p.columns) [b, a])) =
        [(List.replicate p.index.length b, [(List.replicate p.columns.length b, [0, 1])])] := by
    rw [hrows, ← hinner]
    rfl
  rw [SeparatesNumbers, hcells] at hgroup
  have := hgroup _ (List.mem_singleton_self _) _ (List.mem_singleton_self _) 1 (by simp) 0 (by simp)
    name hname
  rw [Table.source_uniform hname] at this
  exact this ⟨hmisjudged.1, hmisjudged.2.1, hmisjudged.number_ne⟩

end

/-! ## Sorted columns -/

/-- Cells of which no two are misjudged are compared transitively, also with absent ones. -/
theorem NoneMisjudged.transitiveOn {kind : Cell → Prop} (h : NoneMisjudged kind) :
    TransitiveOn Cell.order fun cell ↦ kind cell ∨ cell = .absent :=
  Cell.transitiveOn_or_absent h.noneMerged.transitiveOn

namespace RowSort

variable {kind : Cell → Prop} {s : RowSort} {t : Table} {name : String} {rest : Dict Bool}

/-- The cells of the sorted column ascend. -/
theorem pairwise_cells (hkind : NoneMisjudged kind) (ht : t.HasKind kind s.columns.keys)
    (hfirst : s.columns.entries = (name, true) :: rest) :
    ((s.rowsOf t).map (t.source name).cellAt).Pairwise fun a b ↦ (a.order b).isLE := by
  have hcells : ∀ name ∈ s.columns.keys,
      CellsOfKind (fun cell ↦ kind cell ∨ cell = .absent) (t.source name) :=
    fun name hname ↦ cellsOfKind_or_absent (ht name hname)
  refine List.pairwise_map.2 ((pairwise_rowsOf hkind.transitiveOn hcells).imp fun {a b} hab ↦ ?_)
  rw [keyColumns, hfirst, List.map_cons, rowOrder, cellOrder_true, Ordering.isLE_then_iff_or] at hab
  rcases hab with hlt | ⟨heq, -⟩
  · rw [hlt]
    rfl
  · rw [heq]
    rfl

/-- Sorting puts numbers in order if none are misjudged. -/
theorem ascendsNumbers (hkind : NoneMisjudged kind) (ht : t.HasKind kind s.columns.keys)
    (hfirst : s.columns.entries = (name, true) :: rest) : s.AscendsNumbers name t := by
  intro u hu
  obtain ⟨hcolumns, rfl⟩ := apply_eq_ok_iff.1 hu
  have hname : name ∈ s.columns.keys := by simp [OrderedMap.keys, Dict.keys, hfirst]
  rw [result, Table.source_takeRows hcolumns hname]
  have hmem : ∀ a ∈ (s.rowsOf t).map (t.source name).cellAt, a.IsNumber → kind a := by
    intro a ha hnumber
    obtain ⟨row, -, rfl⟩ := List.mem_map.1 ha
    exact ht.cellAt hname hnumber
  refine (pairwise_cells hkind ht hfirst).imp_of_mem fun {a b} ha hb hab hna hnb ↦ ?_
  have hjudged := hkind a b (hmem a ha hna) (hmem b hb hnb)
  rw [(Cell.order_eq_numberOrder_iff hna hnb).2 hjudged] at hab
  intro hgt
  rw [hgt] at hab
  cases hab

/-- Rows whose cells compare as equal do so too. -/
theorem rowOrder_eq_of_forall {keys : List (Column × Bool)} {row row' : Nat}
    (h : ∀ key ∈ keys, cellOrder key.2 (key.1.cellAt row) (key.1.cellAt row') = .eq) :
    rowOrder keys row row' = .eq := by
  induction keys with
  | nil => rfl
  | cons key rest ih =>
    obtain ⟨hkey, hrest⟩ := List.forall_mem_cons.1 h
    rw [rowOrder, hkey, ih hrest]
    rfl

/-- Two rows of a uniform table that are in order stay so. -/
theorem rowsOf_uniform_pair (hfirst : s.columns.entries = (name, true) :: rest) {a b : Cell}
    (h : b.order a ≠ .lt) : s.rowsOf (.uniform s.columns.keys [a, b]) = [0, 1] := by
  have hkeys : s.keyColumns (.uniform s.columns.keys [a, b]) =
      s.columns.entries.map fun entry ↦ (Table.uniformColumn [a, b] entry.1, entry.2) :=
    List.map_congr_left fun entry hentry ↦
      Prod.ext (Table.source_uniform (List.mem_map_of_mem hentry)) rfl
  have hcount : (Table.uniform s.columns.keys [a, b]).rowCount = 2 := by
    rw [OrderedMap.keys, Dict.keys, hfirst]
    rfl
  have hrows : rowOrder (s.keyColumns (.uniform s.columns.keys [a, b])) 1 0 ≠ .lt := by
    rw [hkeys, hfirst, List.map_cons, rowOrder]
    show (cellOrder true b a).then _ ≠ .lt
    rw [cellOrder_true]
    cases hba : b.order a with
    | lt => exact absurd hba h
    | gt => exact Ordering.noConfusion
    | eq =>
      rw [rowOrder_eq_of_forall]
      · exact Ordering.noConfusion
      · intro key hkey
        obtain ⟨entry, -, rfl⟩ := List.mem_map.1 hkey
        exact cellOrder_eq entry.2 hba
  rw [rowsOf, hcount, sortedRows]
  simp [sortStably, insertDescending, List.range_succ, hrows]

theorem noneMisjudged (hfirst : s.columns.entries = (name, true) :: rest)
    (h : ∀ t : Table, t.HasKind kind s.columns.keys → s.AscendsNumbers name t) :
    NoneMisjudged kind := by
  have hname : name ∈ s.columns.keys := by simp [OrderedMap.keys, Dict.keys, hfirst]
  -- the greater of two misjudged numbers is not after the other, and stays before it
  have hnone {a b : Cell} (ha : kind a) (hb : kind b) (hmisjudged : Cell.Misjudged a b)
      (hgt : a.numberOrder b = .gt) : False := by
    have hlt : b.order a ≠ .lt := by
      intro hlt
      have hturned : a.order b = .gt := Std.OrientedCmp.gt_of_lt hlt
      have hjudged := Cell.order_eq_numberOrder_iff hmisjudged.1 hmisjudged.2.1
      exact hjudged.1 (hturned.trans hgt.symm) hmisjudged
    have hcolumns : (Table.uniform s.columns.keys [a, b]).HasColumns s.columns.keys :=
      Table.hasColumns_uniform fun _ ↦ id
    have happly : s.apply (.uniform s.columns.keys [a, b]) =
        .ok (s.result (.uniform s.columns.keys [a, b])) := apply_eq_ok_iff.2 ⟨hcolumns, rfl⟩
    have hpairwise := h _ (Table.hasKind_uniform ha hb fun _ ↦ id) _ happly
    rw [result, Table.source_takeRows hcolumns hname, rowsOf_uniform_pair hfirst hlt,
      Table.source_uniform hname] at hpairwise
    have hab := (List.pairwise_cons.1 hpairwise).1 b (List.mem_singleton_self _)
    exact hab hmisjudged.1 hmisjudged.2.1 hgt
  intro a b ha hb hmisjudged
  cases horder : a.numberOrder b with
  | gt => exact hnone ha hb hmisjudged horder
  | lt => exact hnone hb ha hmisjudged.symm (by rw [Cell.numberOrder_swap a b, horder]; rfl)
  | eq =>
    rw [Cell.numberOrder, Ordering.then_eq_eq, compare_eq_iff_eq] at horder
    exact hmisjudged.number_ne horder.1

end RowSort

/-! ## When numbers are treated as the numbers that they are -/

/-- **Where the order of cells is faithful to numbers.**  Two cells that hold numbers compare as the
numbers do iff they are not misjudged.  Every summary and every pivot keeps different numbers in
different groups, on all tables with cells of one kind in its key columns, iff no cells of the kind
are merged; and every sort that begins upward puts the numbers of its first column in order, on all
such tables, iff no cells of the kind are misjudged. -/
theorem numbers_faithful_iff (a b : Cell) (kind : Cell → Prop) (s : Summary) (p : Pivot)
    (r : RowSort) (name : String) (rest : Dict Bool) :
    (a.IsNumber → b.IsNumber → (a.order b = a.numberOrder b ↔ ¬ Cell.Misjudged a b)) ∧
    (s.groupby ≠ [] →
      ((∀ t : Table, t.HasKind kind s.groupby → s.SeparatesNumbers t) ↔ NoneMerged kind)) ∧
    (p.index ≠ [] →
      ((∀ t : Table, t.HasKind kind (p.index ++ p.columns) → p.SeparatesNumbers t) ↔
        NoneMerged kind)) ∧
    (r.columns.entries = (name, true) :: rest →
      ((∀ t : Table, t.HasKind kind r.columns.keys → r.AscendsNumbers name t) ↔
        NoneMisjudged kind)) := by
  refine ⟨Cell.order_eq_numberOrder_iff, fun hgroupby ↦ ?_, fun hindex ↦ ?_, fun hfirst ↦ ?_⟩
  · exact ⟨Summary.noneMerged hgroupby, fun hkind t ↦ Summary.separatesNumbers hkind⟩
  · exact ⟨Pivot.noneMerged hindex, fun hkind t ↦ Pivot.separatesNumbers hkind⟩
  · exact ⟨RowSort.noneMisjudged hfirst, fun hkind t ht ↦ RowSort.ascendsNumbers hkind ht hfirst⟩

/-- Two numbers whose product is not finite. -/
def factors : Table := ⟨[⟨.plain "factor", [.float 1e200, .float 1e200]⟩]⟩

/-- The running product of a column. -/
def runningProduct : Running := ⟨.ofEntries [("factor", "product")], .product⟩

/-- Sorts upward by the product. -/
def byProduct : RowSort := ⟨.ofEntries [("product", true)]⟩

/-- A product that overflows is sorted before a smaller one. -/
theorem byProduct_overflow_first :
    ((runningProduct.apply factors >>= byProduct.apply).map fun t ↦ (t.source "product").cells) =
      .ok [.float (1e200 * 1e200), .float 1e200] ∧
    Cell.numberOrder (.float (1e200 * 1e200)) (.float 1e200) = .gt := by
  constructor
  · decide +kernel
  · have hfinite : (1e200 : Float).isFinite = true := by decide +kernel
    have hinfinite : (1e200 * 1e200 : Float).isFinite = false := by decide +kernel
    have hpositive : Decimal.isNegative (1e200 * 1e200) = false := by decide +kernel
    have htop : Cell.number (.float (1e200 * 1e200)) = ⊤ := by
      rw [Cell.number, hinfinite, hpositive]
      rfl
    rw [Cell.numberOrder, htop, Cell.number_float hfinite,
      compare_gt_iff_gt.2 (Cell.coe_ne _).1.lt_top]
    rfl

end ChartFeed
