import ChartFeed.Proofs.Transform.Reordering
import ChartFeed.Proofs.Transform.SingleValue
import ChartFeed.Proofs.Transform.UniformTables

/-!
# The order of fields shows

Transforms that were read from alike values may keep their columns in different orders.  On some
table that shows, but not on a table of a single row (`Summary.apply_bind_sort`).
-/

set_option autoImplicit false

namespace ChartFeed

/-! ## Keys of equal cells -/

theorem Key.order_replicate_eq {a b : Cell} (h : a.order b = .eq) (n : Nat) :
    Key.order (List.replicate n a) (List.replicate n b) = .eq := by
  induction n with
  | zero => rfl
  | succ n ih =>
    rw [List.replicate_succ, List.replicate_succ, Key.order, h, ih]
    rfl

theorem Key.order_replicate {a b : Cell} {o : Ordering} (h : a.order b = o) (ho : o ≠ .eq)
    (n : Nat) :
    Key.order (List.replicate (n + 1) a) (List.replicate (n + 1) b) = o := by
  rw [List.replicate_succ, List.replicate_succ, Key.order, h]
  cases o with
  | eq => exact absurd rfl ho
  | lt | gt => rfl

section Uniform

variable {names : List String} {cells : List Cell}

/-- The cell in a row of a uniform table. -/
def cellOf (cells : List Cell) (row : Nat) : Cell := cells.getD row .absent

theorem Grouping.presentKeyAt_uniform {row : Nat} (h : (cellOf cells row).isAbsent = false) :
    presentKeyAt (names.map (Table.uniformColumn cells)) row =
      some (List.replicate names.length (cellOf cells row)) := by
  have hkey : keyAt (names.map (Table.uniformColumn cells)) row =
      List.replicate names.length (cellOf cells row) := by
    rw [keyAt, List.map_map]
    have hconst : names.map ((fun c ↦ c.cellAt row) ∘ Table.uniformColumn cells) =
      names.map fun _ ↦ cellOf cells row := List.map_congr_left fun _ _ ↦ rfl
    rw [hconst, List.map_const']
  rw [presentKeyAt, hkey, if_neg]
  simp [h]

theorem Pivot.keyAt_uniform (fill : Option Cell) {row : Nat}
    (h : (cellOf cells row).isAbsent = false) :
    keyAt fill (names.map (Table.uniformColumn cells)) row =
      some (List.replicate names.length (cellOf cells row)) := by
  induction names with
  | nil => rfl
  | cons name rest ih =>
    have hcell : keyCell fill ((Table.uniformColumn cells name).cellAt row) =
        some (cellOf cells row) := by
      have hc : (Table.uniformColumn cells name).cellAt row = cellOf cells row := rfl
      rw [hc, keyCell, h]
      rfl
    rw [List.map_cons, keyAt, hcell, ih]
    rfl

theorem Grouping.ofColumns_uniform (h : names ≠ []) :
    ofColumns (names.map (Table.uniformColumn cells)) =
      ofRows (presentKeyAt (names.map (Table.uniformColumn cells))) (List.range cells.length) := by
  cases names with
  | nil => exact absurd rfl h
  | cons name rest => rfl

end Uniform

namespace Pivot

/-! ## One row -/

/-- A number that every measure takes. -/
def number : Cell := .int 0

/-- A text, of which only a count has a value. -/
def word : Cell := .text ""

variable {p : Pivot}

theorem uniformRows_one (h : p.index ≠ []) :
    p.uniformRows [number] = [(List.replicate p.index.length number, [0])] := by
  have hrow : Grouping.presentKeyAt (p.index.map (Table.uniformColumn [number])) 0 =
      some (List.replicate p.index.length number) :=
    Grouping.presentKeyAt_uniform (by decide)
  rw [uniformRows, Grouping.ofColumns_uniform h]
  simp only [List.length_singleton, List.range_one, Grouping.ofRows, Grouping.addRows,
    List.foldl_cons, List.foldl_nil, hrow, Grouping.add_nil]

/-- The cells of the pivot columns in one row. -/
def numberKey (p : Pivot) : Key := List.replicate p.columns.length number

theorem uniformKey_one : p.uniformKey [number] 0 = some p.numberKey :=
  keyAt_uniform _ (by decide)

theorem cellGroups_one (h : p.index ≠ []) :
    cellGroups (p.uniformKey [number]) (p.uniformRows [number]) =
      [(List.replicate p.index.length number, [(p.numberKey, [0])])] := by
  rw [uniformRows_one h]
  simp only [cellGroups, Key.update, Grouping.addRows, List.foldl_cons, List.foldl_nil,
    uniformKey_one, Grouping.add_nil]

theorem distinctKeys_one (h : p.index ≠ []) :
    distinctKeys (p.uniformKey [number]) (p.uniformRows [number]) = [p.numberKey] := by
  rw [uniformRows_one h, distinctKeys]
  simp [uniformKey_one, Key.addDistinct]

/-- A column with a present value is not dropped. -/
theorem outputColumn_of_present {groups : List (Key × Grouping)} {a : Aggregate × Column}
    {key : Key} {first : Cell} {rest : List Cell}
    (hraw : rawCells a.1.measure a.2 key groups = first :: rest) (h : first.isAbsent = false) :
    p.outputColumn groups a key =
      some ⟨p.outputName a.1.name key, fillCells p.cellFill (first :: rest)⟩ := by
  simp [outputColumn, hraw, h]

theorem combinations_singleton (p : Pivot) (as : List (Aggregate × Column)) (key : Key) :
    p.combinations as [key] = as.map fun a ↦ (a, key) := by
  rw [combinations]
  split
  · simp
  · simp only [List.map_singleton]
    exact List.flatMap_pure_eq_map ..

theorem uniformOutput_one (hindex : p.index ≠ []) (hvalid : ∀ a ∈ p.aggregates, a.measure.Valid) :
    p.uniformOutput [number] = p.aggregates.map fun a ↦
      ⟨p.outputName a.name p.numberKey, fillCells p.cellFill [a.measure.of [number]]⟩ := by
  have hself : Key.order p.numberKey p.numberKey = .eq :=
    Key.order_replicate_eq (by decide) _
  rw [uniformOutput, distinctKeys_one hindex, combinations_singleton, cellGroups_one hindex,
    List.map_map, List.filterMap_map, ← List.filterMap_eq_map']
  refine List.filterMap_congr fun a ha ↦ ?_
  refine outputColumn_of_present ?_ (Measure.isAbsent_of_zero (hvalid a ha))
  simp only [rawCells, List.map_cons, List.map_nil, Grouping.rowsOf?, Function.comp_apply, hself]
  rfl

/-- The name of a column tells its aggregate. -/
theorem outputName_injective {name name' : String} {key : Key}
    (h : p.outputName name key = p.outputName name' key) : name = name' := by
  simp only [outputName] at h
  split at h
  · simpa [ColumnName.plain] using h
  · split at h
    · simpa using h
    · simpa using h

/-! ## Two rows -/

/-- The cells of two rows of which only the first is a number. -/
def twoRows : List Cell := [number, word]

/-- A key of words is greater than one of numbers, unless both are empty. -/
theorem order_word_number {names : List String} (h : names ≠ []) :
    Key.order (List.replicate names.length word) (List.replicate names.length number) = .gt := by
  obtain ⟨name, rest, rfl⟩ := List.exists_cons_of_ne_nil h
  exact Key.order_replicate (by decide) (by decide) rest.length

theorem uniformRows_two (h : p.index ≠ []) :
    p.uniformRows twoRows = [(List.replicate p.index.length number, [0]),
      (List.replicate p.index.length word, [1])] := by
  have hfirst : Grouping.presentKeyAt (p.index.map (Table.uniformColumn twoRows)) 0 =
      some (List.replicate p.index.length number) :=
    Grouping.presentKeyAt_uniform (by decide)
  have hsecond : Grouping.presentKeyAt (p.index.map (Table.uniformColumn twoRows)) 1 =
      some (List.replicate p.index.length word) :=
    Grouping.presentKeyAt_uniform (by decide)
  have hrange : List.range twoRows.length = [0, 1] := by decide
  rw [uniformRows, Grouping.ofColumns_uniform h, hrange]
  simp only [Grouping.ofRows, Grouping.addRows, List.foldl_cons, List.foldl_nil, hfirst, hsecond,
    Grouping.add_nil, Grouping.add_cons, order_word_number h]

/-- The cells of the pivot columns in the other row. -/
def wordKey (p : Pivot) : Key := List.replicate p.columns.length word

theorem uniformKey_two :
    p.uniformKey twoRows 0 = some p.numberKey ∧ p.uniformKey twoRows 1 = some p.wordKey :=
  ⟨keyAt_uniform _ (by decide), keyAt_uniform _ (by decide)⟩

theorem cellGroups_two (h : p.index ≠ []) :
    cellGroups (p.uniformKey twoRows) (p.uniformRows twoRows) =
      [(List.replicate p.index.length number, [(p.numberKey, [0])]),
        (List.replicate p.index.length word, [(p.wordKey, [1])])] := by
  rw [uniformRows_two h]
  simp only [cellGroups, Key.update, Grouping.addRows, List.foldl_cons, List.foldl_nil,
    uniformKey_two, Grouping.add_nil, order_word_number h]

/-- Without pivot columns the second row has a cell of its own. -/
theorem uniformOutput_two_of_nil (hindex : p.index ≠ []) (hcolumns : p.columns = [])
    (hvalid : ∀ a ∈ p.aggregates, a.measure.Valid) :
    p.uniformOutput twoRows = p.aggregates.map fun a ↦
      ⟨p.outputName a.name [],
        fillCells p.cellFill [a.measure.of [number], a.measure.of [word]]⟩ := by
  have hnumber : p.numberKey = [] := by simp [numberKey, hcolumns]
  have hword : p.wordKey = [] := by simp [wordKey, hcolumns]
  have hkeys : distinctKeys (p.uniformKey twoRows) (p.uniformRows twoRows) = [[]] := by
    rw [uniformRows_two hindex, distinctKeys]
    simp [uniformKey_two, Key.addDistinct, hnumber, hword, Key.order]
  rw [uniformOutput, hkeys, combinations_singleton, cellGroups_two hindex, List.map_map,
    List.filterMap_map, ← List.filterMap_eq_map']
  refine List.filterMap_congr fun a ha ↦ ?_
  refine outputColumn_of_present ?_ (Measure.isAbsent_of_zero (hvalid a ha))
  simp only [rawCells, List.map_cons, List.map_nil, Grouping.rowsOf?, Function.comp_apply, hnumber,
    hword, Key.order]
  rfl

/-- With pivot columns the first aggregate has no cell in the second row. -/
theorem uniformOutput_two_of_ne_nil (hindex : p.index ≠ []) (hcolumns : p.columns ≠ [])
    {a : Aggregate} {rest : List Aggregate} (has : p.aggregates = a :: rest)
    (hvalid : a.measure.Valid) :
    ∃ others, p.uniformOutput twoRows =
      ⟨p.outputName a.name p.numberKey, fillCells p.cellFill [a.measure.of [number], .absent]⟩ ::
        others := by
  have hself : Key.order p.numberKey p.numberKey = .eq :=
    Key.order_replicate_eq (by decide) _
  have habove : Key.order p.wordKey p.numberKey = .gt := order_word_number hcolumns
  have hbelow : Key.order p.numberKey p.wordKey = .lt := Std.OrientedCmp.gt_iff_lt.1 habove
  have hkeys : distinctKeys (p.uniformKey twoRows) (p.uniformRows twoRows) =
      [p.numberKey, p.wordKey] := by
    rw [uniformRows_two hindex, distinctKeys]
    simp [uniformKey_two, Key.addDistinct, habove]
  obtain ⟨others, hcombined⟩ : ∃ others, p.combinations (p.aggregates.map fun a ↦
      (a, Table.uniformColumn twoRows a.column)) [p.numberKey, p.wordKey] =
        ((a, Table.uniformColumn twoRows a.column), p.numberKey) :: others := by
    rw [combinations, has]
    split
    · exact ⟨_, rfl⟩
    · exact ⟨_, rfl⟩
  have hfirst : p.outputColumn (cellGroups (p.uniformKey twoRows) (p.uniformRows twoRows))
      (a, Table.uniformColumn twoRows a.column) p.numberKey =
        some ⟨p.outputName a.name p.numberKey,
          fillCells p.cellFill [a.measure.of [number], .absent]⟩ := by
    refine outputColumn_of_present ?_ (Measure.isAbsent_of_zero hvalid)
    rw [cellGroups_two hindex]
    simp only [rawCells, List.map_cons, List.map_nil, Grouping.rowsOf?, hself, hbelow]
    rfl
  rw [uniformOutput, hkeys, hcombined]
  exact ⟨_, List.filterMap_cons_some hfirst⟩

/-! ## Absent cells -/

/-- Whether a cell of the output can be absent before it is filled: there is a pivot column, or an
aggregate that is not a count. -/
def canFill (p : Pivot) : Bool := !p.columns.isEmpty || p.aggregates.any fun a ↦ a.measure != .count

theorem of_word_of_ne_count {m : Measure} (h : m ≠ .count) : m.of [word] = .absent := by
  cases m with
  | count => exact absurd rfl h
  | _ => rfl

theorem fillCells_pair {fill fill' : Option Cell} {c : Cell} (hsome : fill.isSome = fill'.isSome)
    (h : fillCells fill [c, .absent] = fillCells fill' [c, .absent]) : fill = fill' := by
  cases fill with
  | none =>
    cases fill' with
    | none => rfl
    | some value' => cases hsome
  | some value =>
    cases fill' with
    | none => cases hsome
    | some value' =>
      simp only [fillCells, List.map_cons, List.map_nil, List.cons.injEq, and_true] at h
      exact congrArg some h.2

/-- **What absent cells are filled with shows**, if there can be any. -/
theorem cellFill_eq {fill : Option Cell} (hindex : p.index ≠ []) (haggregates : p.aggregates ≠ [])
    (hvalid : ∀ a ∈ p.aggregates, a.measure.Valid) (hsome : p.cellFill.isSome = fill.isSome)
    (hfill : p.canFill = true)
    (h : p.uniformOutput twoRows = { p with cellFill := fill }.uniformOutput twoRows) :
    p.cellFill = fill := by
  by_cases hcolumns : p.columns = []
  · rw [uniformOutput_two_of_nil hindex hcolumns hvalid,
      uniformOutput_two_of_nil (p := { p with cellFill := fill }) hindex hcolumns hvalid] at h
    obtain ⟨a, ha, hcount⟩ : ∃ a ∈ p.aggregates, a.measure ≠ .count := by
      simpa [canFill, hcolumns] using hfill
    have hcells := congrArg Column.cells (List.map_inj_left.1 h a ha)
    rw [of_word_of_ne_count hcount] at hcells
    exact fillCells_pair hsome hcells
  · obtain ⟨a, rest, has⟩ := List.exists_cons_of_ne_nil haggregates
    have ha : a.measure.Valid := hvalid a (has ▸ List.mem_cons_self ..)
    obtain ⟨others, hothers⟩ := uniformOutput_two_of_ne_nil hindex hcolumns has ha
    obtain ⟨others', hothers'⟩ :=
      uniformOutput_two_of_ne_nil (p := { p with cellFill := fill }) hindex hcolumns has ha
    rw [hothers, hothers'] at h
    exact fillCells_pair hsome (congrArg Column.cells (List.cons_eq_cons.1 h).1)

end Pivot

/-! ## Cells that are never absent -/

namespace Grouping

/-- Rows without a key of their own are one group. -/
theorem ofRows_blank {rows : List Nat} (h : rows ≠ []) :
    ofRows (fun _ ↦ some []) rows = [([], rows)] := by
  have hfold (before : List Nat) (rest : List Nat) :
      rest.foldl (fun g row ↦ add [] row g) [([], before)] = [([], before ++ rest)] := by
    induction rest generalizing before with
    | nil => simp
    | cons row rest ih =>
      rw [List.foldl_cons, add_cons, Key.order, ih]
      simp
  cases rows with
  | nil => exact absurd rfl h
  | cons row rest => exact hfold [row] rest

end Grouping

namespace Pivot

theorem fillCells_of_present {cells : List Cell} (h : ∀ c ∈ cells, c.isAbsent = false)
    (fill : Option Cell) : fillCells fill cells = cells := by
  cases fill with
  | none => rfl
  | some value =>
    refine (List.map_congr_left fun c hc ↦ ?_).trans (List.map_id _)
    rw [h c hc]
    rfl

/-- Without pivot columns there is one key at most. -/
theorem eq_nil_of_mem_distinctKeys {groups : Grouping} {key : Key}
    (h : key ∈ distinctKeys (fun _ ↦ some []) groups) : key = [] := by
  rw [distinctKeys_eq] at h
  obtain ⟨_, -, hkey⟩ := Grouping.exists_of_mem_keys h
  exact (Option.some.inj hkey).symm

/-- Every group has a count. -/
theorem isAbsent_of_mem_rawCells_count {source : Column} {rows : Grouping}
    (hrows : ∀ x ∈ rows, x.2 ≠ []) {c : Cell}
    (hc : c ∈ rawCells .count source [] (cellGroups (fun _ ↦ some []) rows)) :
    c.isAbsent = false := by
  obtain ⟨⟨key, inner⟩, hgroup, rfl⟩ := List.mem_map.1 hc
  rw [cellGroups_eq] at hgroup
  obtain ⟨x, hx, hinner⟩ := List.mem_map.1 hgroup
  cases hinner
  simp only [Grouping.ofRows_blank (Grouping.rows_ne_nil_of_mem_gathered hrows x hx),
    Grouping.rowsOf?, Key.order]
  rfl

/-- **A pivot that only counts**, without pivot columns, has no absent cells to fill. -/
theorem apply_of_not_canFill {p : Pivot} (h : p.canFill = false) (fill : Option Cell) (t : Table) :
    { p with cellFill := fill }.apply t = p.apply t := by
  obtain ⟨hcolumns, hcount⟩ : p.columns = [] ∧ ∀ a ∈ p.aggregates, a.measure = .count := by
    simpa [canFill] using h
  -- every cell that a pivot column has is a count of some group
  have hcell (indexed : List Column) {a : Aggregate × Column} (ha : a.1 ∈ p.aggregates) :
      { p with cellFill := fill }.outputColumn
        (cellGroups (fun _ ↦ some []) (Grouping.ofColumns indexed)) a [] =
      p.outputColumn (cellGroups (fun _ ↦ some []) (Grouping.ofColumns indexed)) a [] := by
    have hpresent : ∀ c ∈ rawCells a.1.measure a.2 []
        (cellGroups (fun _ ↦ some []) (Grouping.ofColumns indexed)), c.isAbsent = false := by
      rw [hcount a.1 ha]
      exact fun c ↦ isAbsent_of_mem_rawCells_count Grouping.rows_ne_nil_of_mem_ofRows
    simp only [outputColumn, fillCells_of_present hpresent]
    rfl
  have houtput (indexed sources : List Column) {x : (Aggregate × Column) × Key}
      (hx : x ∈ p.combinations (p.aggregates.zip sources)
        (distinctKeys (fun _ ↦ some []) (Grouping.ofColumns indexed))) :
      { p with cellFill := fill }.outputColumn
        (cellGroups (fun _ ↦ some []) (Grouping.ofColumns indexed)) x.1 x.2 =
      p.outputColumn (cellGroups (fun _ ↦ some []) (Grouping.ofColumns indexed)) x.1 x.2 := by
    obtain ⟨ha, hkey⟩ := mem_combinations hx
    rw [eq_nil_of_mem_distinctKeys hkey]
    exact hcell indexed (List.of_mem_zip ha).1
  have hnone : t.requireEach p.columns = .ok [] := by rw [hcolumns]; rfl
  simp only [apply, hnone]
  refine bind_congr fun _ ↦ bind_congr fun indexed ↦ ?_
  refine bind_congr (m := Except Rejection) (x := t.requireEach (p.aggregates.map Aggregate.column))
    fun sources ↦ ?_
  exact congrArg (fun columns ↦ Table.ofColumns (_ ++ columns))
    (List.filterMap_congr fun x hx ↦ houtput indexed sources hx)

end Pivot

/-! ## Transforms -/

/-- What works on columns of a mapping, and needs all of them, does the same exactly when the
columns are in the same order. -/
theorem apply_eq_iff_of_columns {α : Type} {m n : OrderedMap α}
    {f : OrderedMap α → Table → Except Rejection Table}
    (hf : ∀ c : OrderedMap α, ∃ rest, f c Table.empty = (Table.empty.requireAll c.keys >>= rest))
    (h : m.entries.Perm n.entries) :
    (∀ t, f m t = f n t) ↔ (m.keys, (none : Option Cell)) = (n.keys, none) := by
  rw [Prod.ext_iff]
  constructor
  · intro happly
    obtain ⟨rest, hm⟩ := hf m
    obtain ⟨rest', hn⟩ := hf n
    have hempty := happly Table.empty
    rw [hm, hn] at hempty
    exact ⟨Table.requireAll_empty_injective m.nodup (h.map Prod.fst) hempty, rfl⟩
  · rintro ⟨hkeys, -⟩ t
    have hentries : m.entries = n.entries := eq_of_perm_of_map_eq m.nodup h hkeys
    cases m
    cases n
    cases hentries
    rfl

namespace Transform

/-- What a transform keeps of the order of fields: the columns or aggregates as they follow each
other, and what an absent cell is filled with, if there can be one. -/
def keyOrder : Transform → List String × Option Cell
  | .aggregate s => (s.aggregates.map Aggregate.name, none)
  | .pivot p => (p.aggregates.map Aggregate.name, if p.canFill then p.cellFill else none)
  | .sort s => (s.columns.keys, none)
  | .rolling r => (r.columns.keys, none)
  | .select s => (s.columns.keys, none)
  | .diff d => (d.columns.keys, none)
  | .cum r => (r.columns.keys, none)
  | .contribution _ => ([], none)

end Transform

namespace Pivot

/-- Pivots that need the same columns and do the same to every table make the same of a uniform
one. -/
theorem uniformOutput_eq {p p' : Pivot} (h : ∀ t, p.apply t = p'.apply t)
    (hindex : p.index = p'.index) (hneeded : ∀ name ∈ p'.needed, name ∈ p.needed)
    (cells : List Cell) : p.uniformOutput cells = p'.uniformOutput cells := by
  have ht := h (Table.uniform p.needed cells)
  rw [apply_uniform p cells fun _ hname ↦ hname, apply_uniform p' cells hneeded, uniformRows,
    uniformRows, hindex] at ht
  exact List.append_cancel_left (Table.mk.inj (Except.ok.inj ht))

/-- **The order of the aggregates shows.** -/
theorem Alike.names_eq {p p' : Pivot} (h : p.Alike p') (happly : ∀ t, p.apply t = p'.apply t) :
    p.aggregates.map Aggregate.name = p'.aggregates.map Aggregate.name := by
  have hvalid' : ∀ a ∈ p'.aggregates, a.measure.Valid :=
    fun a ha ↦ h.measure_valid a (h.aggregates_perm.mem_iff.2 ha)
  have hindex : p.index = p'.index := by rw [h.rest_eq]
  have hcolumns : p.columns = p'.columns := by rw [h.rest_eq]
  have hkeyFirst : p.keyFirst = p'.keyFirst := by rw [h.rest_eq]
  have hneeded : ∀ name ∈ p'.needed, name ∈ p.needed := by
    intro name hname
    rw [needed, hindex, hcolumns]
    rcases List.mem_append.1 hname with hname | hname
    · exact List.mem_append.2 (.inl hname)
    · exact List.mem_append.2 (.inr ((h.aggregates_perm.map _).mem_iff.2 hname))
  have hkey : p.numberKey = p'.numberKey := by rw [numberKey, hcolumns, numberKey]
  have hname (name : String) : p.outputName name p.numberKey = p'.outputName name p'.numberKey := by
    rw [outputName, outputName, hcolumns, hkeyFirst, hkey]
  have houtput := congrArg (List.map Column.name) (uniformOutput_eq happly hindex hneeded [number])
  rw [uniformOutput_one h.index_ne_nil h.measure_valid,
    uniformOutput_one (hindex ▸ h.index_ne_nil) hvalid', List.map_map, List.map_map] at houtput
  have hinjective : Function.Injective fun name ↦ p.outputName name p.numberKey :=
    fun _ _ ↦ outputName_injective
  refine List.map_injective_iff.2 hinjective ?_
  rw [List.map_map, List.map_map]
  exact houtput.trans (List.map_congr_left fun a _ ↦ (hname a.name).symm)

/-- **Alike pivots do the same exactly when they keep the same order.** -/
theorem Alike.apply_eq_iff {p p' : Pivot} (h : p.Alike p') :
    (∀ t, p.apply t = p'.apply t) ↔
      (Transform.pivot p).keyOrder = (Transform.pivot p').keyOrder := by
  have hsame (hnames : p.aggregates.map Aggregate.name = p'.aggregates.map Aggregate.name) :
      p' = { p with cellFill := p'.cellFill } := by
    have haggregates := eq_of_perm_of_map_eq h.names_nodup h.aggregates_perm hnames
    rw [h.rest_eq, haggregates]
  constructor
  · intro happly
    have hnames := h.names_eq happly
    have hp' := hsame hnames
    generalize p'.cellFill = fill at hp'
    subst hp'
    refine Prod.ext rfl ?_
    have houtput : p.uniformOutput twoRows = { p with cellFill := fill }.uniformOutput twoRows :=
      uniformOutput_eq happly rfl (fun _ hname ↦ hname) twoRows
    have hfill : p.canFill = true → p.cellFill = fill := fun hcan ↦
      cellFill_eq h.index_ne_nil h.aggregates_ne_nil h.measure_valid h.isSome_cellFill hcan houtput
    have hcan : { p with cellFill := fill }.canFill = p.canFill := rfl
    simp only [Transform.keyOrder, hcan]
    split
    · next hc => exact hfill hc
    · rfl
  · intro horder t
    have hp' := hsame (Prod.ext_iff.1 horder).1
    generalize p'.cellFill = fill at hp'
    subst hp'
    have hcan : { p with cellFill := fill }.canFill = p.canFill := rfl
    have hfill := (Prod.ext_iff.1 horder).2
    simp only [Transform.keyOrder, hcan] at hfill
    split at hfill
    · rw [← hfill]
    · next hc => exact (apply_of_not_canFill (by simpa using hc) fill t).symm

end Pivot

/-- **Alike summaries do the same exactly when they keep the same order.** -/
theorem Summary.names_eq {s s' : Summary} (hgroupby : s.groupby = s'.groupby)
    (hperm : s.aggregates.Perm s'.aggregates) (h : ∀ t, s.apply t = s'.apply t) :
    s.aggregates.map Aggregate.name = s'.aggregates.map Aggregate.name := by
  have hneeded : ∀ name ∈ s'.needed, name ∈ s.needed := by
    intro name hname
    rw [needed, hgroupby]
    rcases List.mem_append.1 hname with hname | hname
    · exact List.mem_append.2 (.inl hname)
    · exact List.mem_append.2 (.inr ((hperm.map _).mem_iff.2 hname))
  obtain ⟨t, ht, hnames⟩ := apply_uniform s [] fun _ hname ↦ hname
  obtain ⟨t', ht', hnames'⟩ := apply_uniform s' [] hneeded
  rw [h, ht'] at ht
  cases ht
  rw [hnames', hgroupby] at hnames
  have hplain : Function.Injective ColumnName.plain := fun a b hab ↦ by
    simpa [ColumnName.plain] using hab
  refine List.map_injective_iff.2 hplain ?_
  rw [List.map_map, List.map_map]
  exact (List.append_cancel_left hnames).symm

namespace Transform

/-- **Alike transforms do the same exactly when they keep the same order.** -/
theorem Alike.apply_eq_iff {f g : Transform} (h : Alike f g) :
    (∀ t, f.apply t = g.apply t) ↔ f.keyOrder = g.keyOrder := by
  unfold Alike at h
  split at h
  · next s s' =>
    obtain ⟨hgroupby, hperm, hnodup⟩ := h
    refine ⟨fun happly ↦ ?_, fun horder t ↦ ?_⟩
    · exact Prod.ext (Summary.names_eq hgroupby hperm happly) rfl
    · have haggregates := eq_of_perm_of_map_eq hnodup hperm (Prod.ext_iff.1 horder).1
      cases s
      cases s'
      cases hgroupby
      cases haggregates
      rfl
  · exact h.apply_eq_iff
  · exact apply_eq_iff_of_columns (f := fun c ↦ RowSort.apply ⟨c⟩) (fun c ↦ ⟨_, rfl⟩) h
  · next r r' =>
    obtain ⟨hperm, hmode⟩ := h
    cases r
    cases r'
    cases hmode
    exact apply_eq_iff_of_columns (f := fun c ↦ Rolling.apply ⟨c, _⟩) (fun c ↦ ⟨_, rfl⟩) hperm
  · exact apply_eq_iff_of_columns (f := fun c ↦ Selection.apply ⟨c⟩) (fun c ↦ ⟨_, rfl⟩) h
  · next d d' =>
    obtain ⟨hperm, hperiods⟩ := h
    cases d
    cases d'
    cases hperiods
    exact apply_eq_iff_of_columns (f := fun c ↦ Difference.apply ⟨c, _⟩) (fun c ↦ ⟨_, rfl⟩) hperm
  · next r r' =>
    obtain ⟨hperm, haccumulation⟩ := h
    cases r
    cases r'
    cases haccumulation
    exact apply_eq_iff_of_columns (f := fun c ↦ Running.apply ⟨c, _⟩) (fun c ↦ ⟨_, rfl⟩) hperm
  · rw [h]
    exact ⟨fun _ ↦ rfl, fun _ _ ↦ rfl⟩
  · exact h.elim

end Transform

/-! ## A single row -/

/-- Nothing is to be sorted in a single row. -/
theorem RowSort.apply_of_rowCount_le_one {r : RowSort} {t : Table} (ht : t.Rectangular)
    (hrows : t.rowCount ≤ 1) (hcolumns : t.HasColumns r.columns.keys) : r.apply t = .ok t := by
  have hrange : r.rowsOf t = List.range t.rowCount := by
    have hperm := r.perm_rowsOf t
    rcases Nat.le_one_iff_eq_zero_or_eq_one.1 hrows with hnone | hone
    · rw [hnone] at hperm ⊢
      exact hperm.eq_nil
    · rw [hone] at hperm ⊢
      exact List.perm_singleton.1 hperm
  refine apply_eq_ok_iff.2 ⟨hcolumns, ?_⟩
  rw [result, hrange, ht.takeRows_range]

namespace Summary

variable {s : Summary} {t : Table}

/-- A summary of all rows has one row. -/
theorem length_of_mem_result_total (hs : s.groupby = []) {c : Column}
    (hc : c ∈ (s.result t).columns) : c.cells.length = 1 := by
  rw [length_of_mem_result hc, rowGroups, hs]
  rfl

/-- **Sorting by aggregates does nothing** to a summary of all rows. -/
theorem apply_bind_sort (hs : s.groupby = []) {r : RowSort}
    (hr : ∀ name ∈ r.columns.keys, name ∈ s.aggregates.map Aggregate.name) (t : Table) :
    (s.apply t >>= r.apply) = s.apply t := by
  have hlength : ∀ c ∈ (s.result t).columns, c.cells.length = 1 :=
    fun c ↦ length_of_mem_result_total hs
  have hrows : (s.result t).rowCount ≤ 1 := by
    rw [Table.rowCount]
    cases hcolumns : (s.result t).columns with
    | nil => exact Nat.zero_le 1
    | cons c rest => exact (hlength c (hcolumns ▸ List.mem_cons_self ..)).le
  have hcolumns : (s.result t).HasColumns r.columns.keys := by
    intro name hname
    obtain ⟨a, ha, rfl⟩ := List.mem_map.1 (hr name hname)
    rw [Option.isSome_iff_ne_none, Ne, Table.column?_eq_none_iff]
    exact fun hnone ↦ hnone _ (List.mem_append_right _ (List.mem_map_of_mem ha)) rfl
  have hsorted : r.apply (s.result t) = .ok (s.result t) :=
    RowSort.apply_of_rowCount_le_one (Table.rectangular_of_length hlength) hrows hcolumns
  rw [apply_eq]
  cases t.requireAll s.needed with
  | error e => rfl
  | ok u => exact hsorted

end Summary

end ChartFeed
