import ChartFeed.Proofs.Table.Gathering
import ChartFeed.Transform.Step

/-!
# What a transform refers to, and what it makes of it

Every transform does two things: it looks up the columns it refers to, and it computes a table from
them.  Only the first can fail.  So a transform is given by two total functions,

* `Transform.references` — the plain names it refers to, in the order in which it mentions them;
* `Transform.result` — the table it computes, provided all of them are found;

and `Transform.apply_eq` says that this is all there is to it: on a rectangular table the outcome is
the report about the references, or else the result.  The other ways to fail that stand in the
definitions are closed off on the way.  Looking up a column again finds it, because nothing has
changed in between, and columns of different length are never put together: those of a summary or a
pivot have one cell for each group, and those of a selection come from a rectangular table.

Whatever is to be said about transforms — errors, lengths, names, cells — is said about the result.
-/

set_option autoImplicit false

namespace ChartFeed

/-- What comes after looking up columns may assume that they are there. -/
theorem Table.requireAll_bind {α : Type} {t : Table} {names : List String}
    {next : Unit → Except Rejection α} {a : α} (h : t.HasColumns names → next () = .ok a) :
    (t.requireAll names >>= next) = (t.requireAll names).map fun _ ↦ a := by
  cases hall : t.requireAll names with
  | error e => rfl
  | ok u => exact h (requireAll_eq_ok_iff.1 hall)

/-- So there is something exactly when they are. -/
theorem Table.map_requireAll_eq_ok_iff {α : Type} {t : Table} {names : List String} {a b : α} :
    ((t.requireAll names).map fun _ ↦ a) = .ok b ↔ t.HasColumns names ∧ b = a := by
  rw [map_eq_ok]
  constructor
  · rintro ⟨u, hu, rfl⟩
    exact ⟨requireAll_eq_ok_iff.1 hu, rfl⟩
  · rintro ⟨h, rfl⟩
    exact ⟨(), requireAll_eq_ok h, rfl⟩

/-! ## Summaries -/

namespace Summary

/-- The columns that a summary needs. -/
def needed (s : Summary) : List String := s.groupby ++ s.aggregates.map Aggregate.column

/-- Every aggregate with its source. -/
theorem zip_sources (as : List Aggregate) (f : String → Column) :
    as.zip ((as.map Aggregate.column).map f) = as.map fun a ↦ (a, f a.column) := by
  rw [List.map_map]
  exact List.map_prod_left_eq_zip.symm

theorem length_keyColumns (keys : List Key) (names : List String) :
    (keyColumns keys names).length = names.length := by
  rw [keyColumns, List.length_map, List.length_zipIdx]

theorem length_of_mem_keyColumns {keys : List Key} {names : List String} {c : Column}
    (h : c ∈ keyColumns keys names) : c.cells.length = keys.length := by
  obtain ⟨⟨name, position⟩, -, rfl⟩ := List.mem_map.1 h
  simp [keyColumn]

theorem names_keyColumns (keys : List Key) (names : List String) :
    (keyColumns keys names).map Column.name = names.map ColumnName.plain := by
  have hnames : names.zipIdx.map Prod.fst = names := List.zipIdx_map_fst ..
  rw [keyColumns, List.map_map]
  conv_rhs => rw [← hnames, List.map_map]
  rfl

/-- The groups of a table's rows. -/
def rowGroups (s : Summary) (t : Table) : Grouping := groups t (s.groupby.map t.source)

/-- The column of an aggregate. -/
def valueColumn (groups : Grouping) (t : Table) (a : Aggregate) : Column :=
  ⟨.plain a.name, groups.map fun group ↦ aggregateRows a.measure (t.source a.column) group.2⟩

/-- The summary of a table that has the columns it needs. -/
def result (s : Summary) (t : Table) : Table :=
  ⟨keyColumns (s.rowGroups t).keys s.groupby ++ s.aggregates.map (valueColumn (s.rowGroups t) t)⟩

theorem length_of_mem_result {s : Summary} {t : Table} {c : Column}
    (h : c ∈ (s.result t).columns) : c.cells.length = (s.rowGroups t).length := by
  rcases List.mem_append.1 h with h | h
  · simpa [Grouping.keys] using length_of_mem_keyColumns h
  · obtain ⟨a, -, rfl⟩ := List.mem_map.1 h
    exact List.length_map ..

theorem apply_eq (s : Summary) (t : Table) :
    s.apply t = (t.requireAll s.needed).map fun _ ↦ s.result t := by
  refine Table.requireAll_bind fun h ↦ ?_
  obtain ⟨hgroupby, hsources⟩ := Table.hasColumns_append.1 h
  simp only [Table.requireEach_eq hgroupby, Table.requireEach_eq hsources, bind, Except.bind,
    zip_sources]
  rw [List.map_map]
  have hlength : ∀ c ∈ (s.result t).columns, c.cells.length = (s.rowGroups t).length :=
    fun c hc ↦ length_of_mem_result hc
  exact Table.ofColumns_of_length hlength

theorem apply_eq_ok_iff {s : Summary} {t out : Table} :
    s.apply t = .ok out ↔ t.HasColumns s.needed ∧ out = s.result t := by
  rw [apply_eq, Table.map_requireAll_eq_ok_iff]

end Summary

/-! ## Pivots -/

namespace Pivot

/-- What the options of a pivot are when it can be made of them. -/
theorem ofOptions_eq_ok {o : Options} {p : Pivot} (h : ofOptions o = .ok p) :
    ∃ as, o.index ≠ [] ∧ o.aggregates.entries ≠ [] ∧
      AggregateSpec.resolveAll (some .sum) o.aggregates.entries = .ok as ∧
      p = ⟨o.index, o.columns, as, o.cellFill.map Cell.ofJson, o.keyFill, o.dropEmpty,
        o.keyFirst⟩ := by
  rw [ofOptions] at h
  split at h
  · cases h
  · next hindex =>
    split at h
    · cases h
    · next haggregates =>
      obtain ⟨as, has, rfl⟩ := map_eq_ok.1 h
      refine ⟨as, fun e ↦ hindex ?_, fun e ↦ haggregates ?_, has, rfl⟩
      · rw [e]
        rfl
      · rw [OrderedMap.isEmpty, e]
        rfl

/-- The columns that a pivot needs. -/
def needed (p : Pivot) : List String :=
  p.index ++ p.columns ++ p.aggregates.map Aggregate.column

/-- The rows of a table by their cells in the index columns. -/
def rowGroups (p : Pivot) (t : Table) : Grouping := Grouping.ofColumns (p.index.map t.source)

/-- The cells of a row of a table in the pivot columns. -/
def rowKey (p : Pivot) (t : Table) : Nat → Option Key :=
  keyAt (p.keyFill.map Cell.text) (p.columns.map t.source)

/-- Every aggregate with its source and every combination of the pivot's cells, in order. -/
def combined (p : Pivot) (t : Table) : List ((Aggregate × Column) × Key) :=
  p.combinations (p.aggregates.map fun a ↦ (a, t.source a.column))
    (distinctKeys (p.rowKey t) (p.rowGroups t))

/-- The columns that a pivot adds to those of the index. -/
def valueColumns (p : Pivot) (t : Table) : List Column :=
  (p.combined t).filterMap fun x ↦ p.outputColumn (cellGroups (p.rowKey t) (p.rowGroups t)) x.1 x.2

/-- The keys of the rows of the output. -/
def outputKeys (p : Pivot) (t : Table) : List Key :=
  (cellGroups (p.rowKey t) (p.rowGroups t)).map Prod.fst

/-- The pivot of a table that has the columns it needs. -/
def result (p : Pivot) (t : Table) : Table :=
  ⟨Summary.keyColumns (p.outputKeys t) p.index ++ p.valueColumns t⟩

/-- **The groups of the output** are those of the index, put under their keys once more. -/
theorem cellGroups_eq (keyOf : Nat → Option Key) (groups : Grouping) :
    cellGroups keyOf groups =
      groups.gathered.map fun x ↦ (x.1, Grouping.ofRows keyOf x.2) := by
  induction groups using List.reverseRecOn with
  | nil => rfl
  | append_singleton groups x ih =>
    have hone : cellGroups keyOf (groups ++ [x]) =
        Key.update [] (Grouping.addRows keyOf x.2) x.1 (cellGroups keyOf groups) :=
      List.foldl_append
    rw [hone, ih, Grouping.gathered_append_singleton]
    exact (Key.map_update (Grouping.ofRows keyOf) [] fun rows ↦
      Grouping.addRows_append keyOf rows x.2 []).symm

theorem outputKeys_eq (p : Pivot) (t : Table) :
    p.outputKeys t = (p.rowGroups t).gathered.keys := by
  rw [outputKeys, cellGroups_eq, List.map_map]
  rfl

/-- The combinations that occur are the keys of a grouping. -/
theorem distinctKeys_eq (keyOf : Nat → Option Key) (groups : Grouping) :
    distinctKeys keyOf groups = (Grouping.ofRows keyOf (groups.flatMap Prod.snd)).keys :=
  (Grouping.keys_ofRows ..).symm

theorem mem_combinations {p : Pivot} {as : List (Aggregate × Column)} {keys : List Key}
    {x : (Aggregate × Column) × Key} (h : x ∈ p.combinations as keys) : x.1 ∈ as ∧ x.2 ∈ keys := by
  rw [combinations] at h
  split at h
  · obtain ⟨key, hkey, hx⟩ := List.mem_flatMap.1 h
    obtain ⟨a, ha, rfl⟩ := List.mem_map.1 hx
    exact ⟨ha, hkey⟩
  · obtain ⟨a, ha, hx⟩ := List.mem_flatMap.1 h
    obtain ⟨key, hkey, rfl⟩ := List.mem_map.1 hx
    exact ⟨ha, hkey⟩

theorem length_fillCells (fill : Option Cell) (cells : List Cell) :
    (fillCells fill cells).length = cells.length := by
  cases fill <;> simp [fillCells]

theorem length_outputColumn {p : Pivot} {groups : List (Key × Grouping)} {a : Aggregate × Column}
    {key : Key} {c : Column} (h : p.outputColumn groups a key = some c) :
    c.cells.length = groups.length := by
  simp only [outputColumn] at h
  split at h
  · cases h
  · cases h
    simp [length_fillCells, rawCells]

theorem length_of_mem_result {p : Pivot} {t : Table} {c : Column}
    (h : c ∈ (p.result t).columns) : c.cells.length = (p.outputKeys t).length := by
  rcases List.mem_append.1 h with h | h
  · exact Summary.length_of_mem_keyColumns h
  · obtain ⟨x, -, hx⟩ := List.mem_filterMap.1 h
    rw [length_outputColumn hx]
    exact (List.length_map ..).symm

theorem apply_eq (p : Pivot) (t : Table) :
    p.apply t = (t.requireAll p.needed).map fun _ ↦ p.result t := by
  refine Table.requireAll_bind fun h ↦ ?_
  obtain ⟨hkeys, hsources⟩ := Table.hasColumns_append.1 h
  obtain ⟨hindex, hcolumns⟩ := Table.hasColumns_append.1 hkeys
  simp only [Table.requireEach_eq hindex, Table.requireEach_eq hcolumns,
    Table.requireEach_eq hsources, bind, Except.bind, Summary.zip_sources]
  have hlength : ∀ c ∈ (p.result t).columns, c.cells.length = (p.outputKeys t).length :=
    fun c hc ↦ length_of_mem_result hc
  exact Table.ofColumns_of_length hlength

theorem apply_eq_ok_iff {p : Pivot} {t out : Table} :
    p.apply t = .ok out ↔ t.HasColumns p.needed ∧ out = p.result t := by
  rw [apply_eq, Table.map_requireAll_eq_ok_iff]

end Pivot

/-! ## Sorting and selecting -/

section

variable {α : Type} (before : α → α → Bool)

theorem perm_insertDescending (x : α) (xs : List α) :
    (insertDescending before x xs).Perm (x :: xs) := by
  induction xs with
  | nil => exact .refl _
  | cons y rest ih =>
    rw [insertDescending]
    split
    · exact (ih.cons y).trans (.swap x y rest)
    · exact .refl _

/-- Sorting rearranges. -/
theorem perm_sortStably (xs : List α) : (sortStably before xs).Perm xs := by
  have hfold (acc : List α) : (xs.foldl (fun acc x ↦ insertDescending before x acc) acc).Perm
      (acc ++ xs) := by
    induction xs generalizing acc with
    | nil => simp
    | cons x rest ih =>
      refine (ih _).trans (((perm_insertDescending before x acc).append_right rest).trans ?_)
      exact List.perm_middle.symm
  exact (List.reverse_perm _).trans (hfold [])

end

namespace RowSort

/-- The columns to sort by, and whether upward. -/
def keyColumns (s : RowSort) (t : Table) : List (Column × Bool) :=
  s.columns.entries.map fun entry ↦ (t.source entry.1, entry.2)

/-- The rows of a sorted table. -/
def rowsOf (s : RowSort) (t : Table) : List Nat := sortedRows (s.keyColumns t) t.rowCount

/-- The sorted table, when it has the columns to sort by. -/
def result (s : RowSort) (t : Table) : Table := t.takeRows (s.rowsOf t)

theorem perm_rowsOf (s : RowSort) (t : Table) : (s.rowsOf t).Perm (List.range t.rowCount) :=
  perm_sortStably ..

theorem apply_eq (s : RowSort) (t : Table) :
    s.apply t = (t.requireAll s.columns.keys).map fun _ ↦ s.result t := by
  refine Table.requireAll_bind fun h ↦ ?_
  have hzip : (s.columns.keys.map t.source).zip (s.columns.entries.map Prod.snd) =
      s.keyColumns t := by
    rw [OrderedMap.keys, Dict.keys, List.map_map]
    exact List.zip_map' ..
  simp only [Table.requireEach_eq h, bind, Except.bind, hzip]
  rfl

theorem apply_eq_ok_iff {s : RowSort} {t out : Table} :
    s.apply t = .ok out ↔ t.HasColumns s.columns.keys ∧ out = s.result t := by
  rw [apply_eq, Table.map_requireAll_eq_ok_iff]

end RowSort

namespace Selection

/-- The selected columns of a table that has them. -/
def result (s : Selection) (t : Table) : Table :=
  ⟨s.columns.entries.map fun names ↦ ⟨.plain names.2, (t.source names.1).cells⟩⟩

theorem apply_eq (s : Selection) {t : Table} (ht : t.Rectangular) :
    s.apply t = (t.requireAll s.columns.keys).map fun _ ↦ s.result t := by
  refine Table.requireAll_bind fun h ↦ ?_
  have hzip : s.columns.entries.zip (s.columns.keys.map t.source) =
      s.columns.entries.map fun names ↦ (names, t.source names.1) := by
    rw [OrderedMap.keys, Dict.keys, List.map_map]
    exact List.map_prod_left_eq_zip.symm
  simp only [Table.requireEach_eq h, bind, Except.bind, hzip]
  rw [List.map_map]
  refine Table.ofColumns_of_length (n := t.rowCount) fun c hc ↦ ?_
  obtain ⟨names, hnames, rfl⟩ := List.mem_map.1 hc
  exact ht.length_source h (List.mem_map_of_mem hnames)

end Selection

/-! ## Columns computed from columns -/

namespace Table

variable {mapping : List (String × String)}

/-- The new cells under their names. -/
def computed (t : Table) (compute : List (Option Float) → List Cell)
    (mapping : List (String × String)) : List (String × List Cell) :=
  mapping.map fun names ↦ (names.2, compute (t.source names.1).numbers)

theorem assign_eq (t : Table) (mapping : List (String × String))
    (compute : List (Option Float) → List Cell) :
    t.assign mapping compute =
      (t.requireAll (mapping.map Prod.fst)).map fun _ ↦
        t.upsertAll (t.computed compute mapping) := by
  refine Table.requireAll_bind fun h ↦ ?_
  have hzip : mapping.zip ((mapping.map Prod.fst).map t.source) =
      mapping.map fun names ↦ (names, t.source names.1) := by
    rw [List.map_map]
    exact List.map_prod_left_eq_zip.symm
  simp only [computeColumns, requireEach_eq h, bind, Except.bind, hzip]
  rw [List.map_map]
  rfl

end Table

/-! ## Shares of totals -/

namespace Contribution

/-- The columns that take part, with the names for the results. -/
def targetNames (c : Contribution) (t : Table) : List (String × String) :=
  c.targets.getD ((t.columns.filter takesPart).map fun c ↦ (c.name.display, c.name.display))

/-- The columns that are named. -/
def named (c : Contribution) : List String := (c.targets.getD []).map Prod.fst

/-- The numbers of the columns that take part. -/
def series (c : Contribution) (t : Table) : List (List (Option Float)) :=
  (c.targetNames t).map fun names ↦ (t.source names.1).numbers

/-- The table with the shares, when it has the columns that are named. -/
def result (c : Contribution) (t : Table) : Table :=
  t.upsertAll (((c.targetNames t).map Prod.snd).zip
    (shares c.orientation t.rowCount (c.series t)))

/-- A column that takes part has a plain name, under which there is a column. -/
theorem column?_display {t : Table} {c : Column} (hc : c ∈ t.columns) (h : takesPart c = true) :
    (t.column? c.name.display).isSome := by
  rw [takesPart, Bool.and_eq_true, Bool.and_eq_true, beq_iff_eq] at h
  obtain ⟨name, hname⟩ := List.length_eq_one_iff.1 h.1.1
  have hdisplay : c.name.display = name := by rw [ColumnName.display, hname]
  rw [hdisplay, Option.isSome_iff_ne_none, Ne, Table.column?_eq_none_iff]
  intro hnone
  refine hnone c hc ?_
  rw [ColumnName.plain, ← hname]

/-- **The columns that take part are there**, if those that are named are. -/
theorem hasColumns_targetNames {c : Contribution} {t : Table} (h : t.HasColumns c.named) :
    t.HasColumns ((c.targetNames t).map Prod.fst) := by
  cases htargets : c.targets with
  | some targets => simpa [named, targetNames, htargets] using h
  | none =>
    intro name hname
    rw [targetNames, htargets, Option.getD_none, List.map_map] at hname
    obtain ⟨column, hcolumn, rfl⟩ := List.mem_map.1 hname
    obtain ⟨hmem, htakes⟩ := List.mem_filter.1 hcolumn
    exact column?_display hmem htakes

theorem targetsIn_eq (c : Contribution) (t : Table) :
    c.targetsIn t = (t.requireAll c.named).map fun _ ↦ c.targetNames t := by
  rw [targetsIn, named, targetNames]
  cases c.targets with
  | some targets => rfl
  | none => rfl

theorem apply_eq (c : Contribution) (t : Table) :
    c.apply t = (t.requireAll c.named).map fun _ ↦ c.result t := by
  rw [apply, targetsIn_eq]
  cases hall : t.requireAll c.named with
  | error e => rfl
  | ok u =>
    have h := hasColumns_targetNames (Table.requireAll_eq_ok_iff.1 hall)
    simp only [Except.map, bind, Except.bind, Table.requireEach_eq h, List.map_map]
    rfl

end Contribution

/-! ## All transforms -/

namespace Transform

/-- The plain names that a transform refers to, in the order in which it mentions them. -/
def references : Transform → List String
  | .aggregate s => s.groupby ++ s.aggregates.map Aggregate.column
  | .pivot p => p.index ++ p.columns ++ p.aggregates.map Aggregate.column
  | .sort s => s.columns.keys
  | .rolling r => r.columns.keys
  | .select s => s.columns.keys
  | .diff d => d.columns.keys
  | .cum r => r.columns.keys
  | .contribution c => c.named

/-- The table that a transform makes of one that has the columns it refers to. -/
def result : Transform → Table → Table
  | .aggregate s, t => s.result t
  | .pivot p, t => p.result t
  | .sort s, t => s.result t
  | .rolling r, t => t.upsertAll (t.computed r.mode.cells r.columns.entries)
  | .select s, t => s.result t
  | .diff d, t => t.upsertAll (t.computed (Difference.differences d.periods) d.columns.entries)
  | .cum r, t =>
    t.upsertAll (t.computed (Running.accumulate r.accumulation none) r.columns.entries)
  | .contribution c, t => c.result t

/-- **A transform reports missing columns or computes its result**, and does nothing else. -/
theorem apply_eq (f : Transform) {t : Table} (ht : t.Rectangular) :
    f.apply t = (t.requireAll f.references).map fun _ ↦ f.result t := by
  cases f with
  | aggregate s => exact s.apply_eq t
  | pivot p => exact p.apply_eq t
  | sort s => exact s.apply_eq t
  | rolling r => exact t.assign_eq ..
  | select s => exact s.apply_eq ht
  | diff d => exact t.assign_eq ..
  | cum r => exact t.assign_eq ..
  | contribution c => exact c.apply_eq t

variable {f : Transform} {t out : Table}

/-- When a transform succeeds its columns are there, and the outcome is its result. -/
theorem apply_eq_ok_iff (ht : t.Rectangular) :
    f.apply t = .ok out ↔ t.HasColumns f.references ∧ out = f.result t := by
  rw [apply_eq f ht, Table.map_requireAll_eq_ok_iff]

/-- When a transform fails, columns are missing, and the outcome is the report about them. -/
theorem apply_eq_error_iff (ht : t.Rectangular) (e : Rejection) :
    f.apply t = .error e ↔
      t.missing f.references ≠ [] ∧ e = .missingColumns (t.missing f.references) := by
  rw [← Table.requireAll_eq_error_iff, apply_eq f ht]
  cases t.requireAll f.references with
  | error e' => simp [Except.map]
  | ok u => exact ⟨nofun, nofun⟩

/-- **What can be wrong with a step is found when it is read, except for missing columns.**  A step
that can be read fails on a rectangular table only by naming the columns that it refers to and that
are not there: all of them, each once, and in the order in which it mentions them first. -/
theorem read_bind_apply_error_iff {v : Json} (hread : read v = .ok f) (ht : t.Rectangular) :
    ∃ missing, t.Lacks f.references missing ∧
      ∀ e, (read v >>= fun f ↦ f.apply t) = .error e ↔
        missing ≠ [] ∧ e = .missingColumns missing := by
  refine ⟨t.missing f.references, t.lacks_missing f.references, fun e ↦ ?_⟩
  rw [hread]
  exact apply_eq_error_iff ht e

/-- A pivot as a request writes it.  It mentions one column twice. -/
def pivotByDay : Json := .obj [
  ("operation", .str "pivot"),
  ("options", .obj [
    ("index", .arr [.str "day"]),
    ("columns", .arr [.str "region", .str "day"]),
    ("aggregates", .obj [("sales", .obj [("operator", .str "sum")])])])]

/-- A table that was a pivot's output before.  Its second column cannot be referred to. -/
def salesByRegion : Table :=
  ⟨[⟨.plain "region", [.text "north"]⟩, ⟨⟨["sales", "monday"]⟩, [.int 5]⟩]⟩

/-- Both missing columns are named, in order, and each once. -/
theorem pivotByDay_error_salesByRegion :
    ∃ f, read pivotByDay = .ok f ∧ f.references = ["day", "region", "day", "sales"] ∧
      salesByRegion.Rectangular ∧
      (read pivotByDay >>= fun f ↦ f.apply salesByRegion) =
        .error (.missingColumns ["day", "sales"]) := by
  have hreferences : (read pivotByDay).map references = .ok ["day", "region", "day", "sales"] := by
    decide +kernel
  obtain ⟨f, hread, hf⟩ := map_eq_ok.1 hreferences
  have ht : salesByRegion.Rectangular := by decide
  obtain ⟨missing, hlacks, herror⟩ := read_bind_apply_error_iff hread ht
  have hmissing : missing = ["day", "sales"] := by
    rw [hlacks.unique (salesByRegion.lacks_missing _), hf]
    decide
  subst hmissing
  exact ⟨f, hread, hf, ht, (herror _).2 ⟨by decide, rfl⟩⟩

end Transform

end ChartFeed
