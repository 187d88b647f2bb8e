import ChartFeed.Proofs.Transform.Labels

/-!
# Assigning columns

Rolling windows, running totals, differences and contributions store what they compute under names
that may be those of columns they compute with, and that may be named twice.  Storing goes name by
name; what it comes to does not.

* `Table.index?_upsertAll`, `Table.getElem?_upsertAll_of_ne` — columns stay where they are, and new
  ones follow in the order in which they are first mentioned;
* `Table.Assigns` — what a table is after an assignment of columns: the last entry of each name
  counts, and no other column changes.  `Table.assigns_upsertAll` proves it;
* `Transform.assignments` — what a transform assigns, computed from the columns that it finds in the
  table it is applied to;
* `Transform.assigns_of_apply` — so all of these transforms assign at once.
-/

set_option autoImplicit false

namespace ChartFeed

namespace Table

variable {t : Table} {name : String} {cells : List Cell}
  {assignments : List (String × List Cell)}

/-! ## Positions -/

/-- The position of a column depends on the names only. -/
theorem index?_eq (t : Table) (name : String) :
    t.index? name = t.columnNames.findIdx? fun n ↦ n.isPlain name := by
  rw [columnNames, List.findIdx?_map]
  rfl

/-- The column of a name stands at its position. -/
theorem getElem?_of_index? {i : Nat} (h : t.index? name = some i) :
    t.columns[i]? = t.column? name := by
  rw [column?, List.find?_eq_bind_findIdx?_getElem?]
  exact (congrArg (Option.bind · fun i ↦ t.columns[i]?) h).symm

theorem index?_eq_none_iff : t.index? name = none ↔ t.column? name = none := by
  rw [index?, column?, List.findIdx?_eq_none_iff, List.find?_eq_none]
  simp only [Bool.not_eq_true]

theorem plain_mem_columnNames_iff : .plain name ∈ t.columnNames ↔ t.column? name ≠ none := by
  rw [Ne, column?_eq_none_iff, columnNames, List.mem_map, not_forall]
  simp only [not_forall, not_not, exists_prop]

/-- Storing a column leaves those at other positions. -/
theorem getElem?_upsert_of_ne {i : Nat} (hi : i < t.columns.length)
    (h : t.index? name ≠ some i) : (t.upsert name cells).columns[i]? = t.columns[i]? := by
  show (upsertColumns name cells t.columns)[i]? = t.columns[i]?
  rw [index?] at h
  generalize t.columns = columns at h hi
  induction columns generalizing i with
  | nil => cases hi
  | cons c rest ih =>
    rw [List.findIdx?_cons] at h
    rw [upsertColumns]
    by_cases hc : c.name.isPlain name = true
    · rw [if_pos hc] at h ⊢
      cases i with
      | zero => exact absurd rfl h
      | succ i => rfl
    · rw [if_neg hc] at h ⊢
      cases i with
      | zero => rfl
      | succ i =>
        refine ih (fun hrest ↦ h ?_) (Nat.lt_of_succ_lt_succ hi)
        rw [hrest]
        rfl

/-! ## Storing one column after the other -/

/-- **The names afterwards**: those of before, and then the new ones in the order in which they are
first mentioned. -/
theorem columnNames_upsertAll (t : Table) (assignments : List (String × List Cell)) :
    (t.upsertAll assignments).columnNames =
      t.columnNames ++ (t.missing (assignments.map Prod.fst)).map .plain := by
  induction assignments using List.reverseRecOn with
  | nil => exact (List.append_nil _).symm
  | append_singleton assignments a ih =>
    rw [upsertAll_append_singleton, columnNames_upsert, ih, List.map_append, List.map_singleton,
      missing_append_singleton]
    have hinjective : Function.Injective ColumnName.plain := fun _ _ h ↦ by
      simpa [ColumnName.plain] using h
    have hmem : ColumnName.plain a.1 ∈
        t.columnNames ++ (t.missing (assignments.map Prod.fst)).map .plain ↔
          t.column? a.1 ≠ none ∨ a.1 ∈ t.missing (assignments.map Prod.fst) := by
      rw [List.mem_append, plain_mem_columnNames_iff, List.mem_map_of_injective hinjective]
    simp only [hmem]
    by_cases htable : t.column? a.1 = none
    · by_cases hnew : a.1 ∈ t.missing (assignments.map Prod.fst) <;> simp [htable, hnew]
    · simp [htable]

/-- What is stored under a name last is found there. -/
theorem column?_upsertAll_of_last {earlier later : List (String × List Cell)}
    (h : name ∉ later.map Prod.fst) :
    (t.upsertAll (earlier ++ (name, cells) :: later)).column? name = some ⟨.plain name, cells⟩ := by
  have hsplit : t.upsertAll (earlier ++ (name, cells) :: later) =
      ((t.upsertAll earlier).upsert name cells).upsertAll later := List.foldl_append ..
  rw [hsplit, column?_upsertAll_of_notMem h, column?_upsert, if_pos rfl]

/-- **Columns stay where they are**, and new ones follow. -/
theorem index?_upsertAll (t : Table) (assignments : List (String × List Cell)) (name : String) :
    (t.upsertAll assignments).index? name =
      (t.index? name).or (((t.missing (assignments.map Prod.fst)).idxOf? name).map
        (· + t.columns.length)) := by
  have hplain : (fun n : ColumnName ↦ n.isPlain name) ∘ ColumnName.plain = (· == name) :=
    funext fun other ↦ by simp [ColumnName.isPlain, ColumnName.plain]
  have hlength : t.columnNames.length = t.columns.length := List.length_map ..
  rw [index?_eq, index?_eq, columnNames_upsertAll, List.findIdx?_append, List.findIdx?_map, hplain,
    hlength]
  rfl

/-- **No other column changes.** -/
theorem getElem?_upsertAll_of_ne {i : Nat} (hi : i < t.columns.length)
    (h : ∀ name ∈ assignments.map Prod.fst, t.index? name ≠ some i) :
    (t.upsertAll assignments).columns[i]? = t.columns[i]? := by
  induction assignments using List.reverseRecOn with
  | nil => rfl
  | append_singleton assignments a ih =>
    rw [List.map_append, List.forall_mem_append, List.map_singleton, List.forall_mem_singleton] at h
    have hlength : t.columns.length ≤ (t.upsertAll assignments).columns.length := by
      have hnames := congrArg List.length (columnNames_upsertAll t assignments)
      rw [columnNames, columnNames, List.length_append, List.length_map, List.length_map] at hnames
      omega
    rw [upsertAll_append_singleton, getElem?_upsert_of_ne (Nat.lt_of_lt_of_le hi hlength), ih h.1]
    rw [index?_upsertAll]
    -- a new column stands behind all that were there
    cases htable : t.index? a.1 with
    | some j => simpa [htable] using h.2
    | none =>
      intro hnew
      obtain ⟨j, -, hj⟩ := Option.map_eq_some_iff.1 hnew
      omega

/-! ## Assignments -/

theorem idxOf?_of_getElem? {names : List String} (h : names.Nodup) {j : Nat}
    (hj : names[j]? = some name) : names.idxOf? name = some j := by
  obtain ⟨hlt, rfl⟩ := List.getElem?_eq_some_iff.1 hj
  refine List.idxOf?_eq_some_iff.2 ⟨hlt, rfl, fun i hij heq ↦ ?_⟩
  exact Nat.ne_of_lt hij (h.getElem_inj_iff.1 heq)

/-- The last entry under a name. -/
def LastEntry (assignments : List (String × List Cell)) (name : String) (cells : List Cell) :
    Prop :=
  ∃ earlier later, assignments = earlier ++ (name, cells) :: later ∧ name ∉ later.map Prod.fst

/-- A table after an assignment of columns, which has these names that are new. -/
structure Assigns (t : Table) (assignments : List (String × List Cell)) (new : List String)
    (out : Table) : Prop where
  /-- The new names are those that no column had, each once and in the order of mention. -/
  lacks : t.Lacks (assignments.map Prod.fst) new
  /-- They follow the names of before, and these stay. -/
  columnNames_eq : out.columnNames = t.columnNames ++ new.map .plain
  /-- The first column with a plain name has the cells of the last entry under it, -/
  replaced : ∀ name cells, LastEntry assignments name cells →
    ∀ i, t.index? name = some i → out.columns[i]? = some ⟨.plain name, cells⟩
  /-- and so do new columns. -/
  appended : ∀ name cells, LastEntry assignments name cells →
    ∀ j, new[j]? = some name → out.columns[t.columns.length + j]? = some ⟨.plain name, cells⟩
  /-- No other column changes. -/
  kept : ∀ i < t.columns.length, (∀ name ∈ assignments.map Prod.fst, t.index? name ≠ some i) →
    out.columns[i]? = t.columns[i]?

/-- **Storing columns one after the other assigns them at once.** -/
theorem assigns_upsertAll (t : Table) (assignments : List (String × List Cell)) :
    t.Assigns assignments (t.missing (assignments.map Prod.fst)) (t.upsertAll assignments) where
  lacks := t.lacks_missing _
  columnNames_eq := columnNames_upsertAll t assignments
  replaced := by
    rintro name cells ⟨earlier, later, rfl, hlater⟩ i hi
    have hplace : (t.upsertAll (earlier ++ (name, cells) :: later)).index? name = some i := by
      rw [index?_upsertAll, hi]
      rfl
    rw [getElem?_of_index? hplace, column?_upsertAll_of_last hlater]
  appended := by
    rintro name cells ⟨earlier, later, rfl, hlater⟩ j hj
    have hlacks := t.lacks_missing ((earlier ++ (name, cells) :: later).map Prod.fst)
    have hnone : t.index? name = none :=
      index?_eq_none_iff.2 (column?_eq_none_iff.2
        ((hlacks.mem_iff name).1 (List.mem_of_getElem? hj)).2)
    have hplace : (t.upsertAll (earlier ++ (name, cells) :: later)).index? name =
        some (t.columns.length + j) := by
      rw [index?_upsertAll, hnone, idxOf?_of_getElem? hlacks.collects.nodup hj, Nat.add_comm]
      rfl
    rw [getElem?_of_index? hplace, column?_upsertAll_of_last hlater]
  kept i hi h := getElem?_upsertAll_of_ne hi h

end Table

/-! ## Transforms -/

namespace Transform

/-- The columns that a transform computes with, and the names that it stores the results under. -/
def mapping? : Transform → Table → Option (List (String × String))
  | .rolling r, _ => some r.columns.entries
  | .diff d, _ => some d.columns.entries
  | .cum r, _ => some r.columns.entries
  | .contribution c, t => some (c.targetNames t)
  | _, _ => none

/-- What a transform computes of the numbers of some columns. -/
def cellsOf : Transform → Nat → List (List (Option Float)) → List (List Cell)
  | .rolling r, _, series => series.map r.mode.cells
  | .diff d, _, series => series.map (Difference.differences d.periods)
  | .cum r, _, series => series.map (Running.accumulate r.accumulation none)
  | .contribution c, rows, series => Contribution.shares c.orientation rows series
  | _, _, _ => []

/-- What a transform assigns: what it computes of the columns of a table, under the names for it. -/
def assignments (f : Transform) (mapping : List (String × String)) (t : Table) :
    List (String × List Cell) :=
  (mapping.map Prod.snd).zip
    (f.cellsOf t.rowCount (mapping.map fun names ↦ (t.source names.1).numbers))

variable {f : Transform} {t out : Table} {mapping : List (String × String)}

theorem computed_eq_zip (t : Table) (compute : List (Option Float) → List Cell)
    (mapping : List (String × String)) : t.computed compute mapping =
      (mapping.map Prod.snd).zip
        ((mapping.map fun names ↦ (t.source names.1).numbers).map compute) := by
  rw [List.map_map]
  exact (List.zip_map' ..).symm

theorem result_eq_upsertAll (h : f.mapping? t = some mapping) :
    f.result t = t.upsertAll (f.assignments mapping t) := by
  cases f with
  | rolling r | diff d | cum r =>
    cases h
    exact congrArg t.upsertAll (computed_eq_zip ..)
  | contribution c =>
    cases h
    rfl
  | _ => cases h

/-- Every name is assigned to. -/
theorem names_assignments (h : f.mapping? t = some mapping) :
    (f.assignments mapping t).map Prod.fst = mapping.map Prod.snd := by
  refine List.map_fst_zip (Nat.le_of_eq ?_)
  cases f with
  | rolling r | diff d | cum r => simp [cellsOf]
  | contribution c => cases hc : c.orientation <;> simp [cellsOf, Contribution.shares, hc]
  | _ => cases h

/-- **Transforms that map columns to columns assign at once.**  When rolling windows, differences,
running totals or contributions succeed, all columns that they compute with are there, and what they
assign is computed from the columns of the table they are applied to.  The last entry of each name
is what is stored: in place of the first column with that plain name, or behind the others.  All
other columns stay as they are and where they are. -/
theorem assigns_of_apply (ht : t.Rectangular) (hmapping : f.mapping? t = some mapping)
    (h : f.apply t = .ok out) :
    t.HasColumns (mapping.map Prod.fst) ∧
      (f.assignments mapping t).map Prod.fst = mapping.map Prod.snd ∧
        ∃ new, t.Assigns (f.assignments mapping t) new out := by
  obtain ⟨hcolumns, rfl⟩ := (apply_eq_ok_iff ht).1 h
  refine ⟨?_, names_assignments hmapping, t.missing ((f.assignments mapping t).map Prod.fst), ?_⟩
  · cases f with
    | rolling r | diff d | cum r =>
      cases hmapping
      exact hcolumns
    | contribution c =>
      cases hmapping
      exact Contribution.hasColumns_targetNames hcolumns
    | _ => cases hmapping
  · rw [result_eq_upsertAll hmapping]
    exact t.assigns_upsertAll _

/-- Two columns of numbers, with a column of two parts between them and one of the first name
behind. -/
def twoSeries : Table := ⟨[
  ⟨.plain "a", [.float 1.0, .float 2.0]⟩,
  ⟨⟨["b", "c"]⟩, [.text "x", .text "y"]⟩,
  ⟨.plain "b", [.float 10.0, .absent]⟩,
  ⟨.plain "a", [.text "u", .text "v"]⟩]⟩

/-- Running totals of two columns, each under the name of the other. -/
def exchange : Running := ⟨⟨[("a", "b"), ("b", "a")], by decide⟩, .sum⟩

/-- The totals are exchanged, none is a total of a total, and the other columns stay. -/
theorem exchange_assigns_twoSeries :
    ∃ out, apply (.cum exchange) twoSeries = .ok out ∧
      out.columns[0]? = some ⟨.plain "a", [.float 10.0, .absent]⟩ ∧
      out.columns[1]? = twoSeries.columns[1]? ∧
      out.columns[2]? = some ⟨.plain "b", [.float 1.0, .float 3.0]⟩ ∧
      out.columns[3]? = twoSeries.columns[3]? := by
  have ht : twoSeries.Rectangular := by decide
  have hreferences : twoSeries.HasColumns (references (.cum exchange)) := by decide
  have happly := (apply_eq_ok_iff ht).2 ⟨hreferences, rfl⟩
  obtain ⟨-, -, new, hassigns⟩ := assigns_of_apply ht rfl happly
  have hcells : assignments (.cum exchange) exchange.columns.entries twoSeries =
      [("b", [.float 1.0, .float 3.0]), ("a", [.float 10.0, .absent])] := by
    decide +kernel
  rw [hcells] at hassigns
  refine ⟨_, happly, ?_, ?_, ?_, ?_⟩
  · exact hassigns.replaced "a" _ ⟨[("b", _)], [], rfl, by decide⟩ 0 (by decide)
  · exact hassigns.kept 1 (by decide) (by decide)
  · exact hassigns.replaced "b" _ ⟨[], [("a", _)], rfl, by decide⟩ 2 (by decide)
  · exact hassigns.kept 3 (by decide) (by decide)

end Transform

end ChartFeed
