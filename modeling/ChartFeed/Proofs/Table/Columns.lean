import ChartFeed.Proofs.Json.Reading
import ChartFeed.Proofs.Listing
import ChartFeed.Table.Basic

/-!
# Columns by name

Whatever is computed from a table starts from columns that are looked up by plain names, and ends
with columns that are stored under plain names.  This file says what looking up gives and what
storing keeps.

* `Table.source` — the column with a plain name.  When all names are found, `requireEach_eq` turns
  looking them up one after the other into a `map`, and nothing below ever opens `requireEach`.
* `Table.Lacks` — a list has the names that no column has, each once, in the order in which they
  are first mentioned.  This says which list it is (`Lacks.unique`) without saying how it is found;
  `lacks_missing` says that the report about missing columns is about this list.
* `Rectangular.upsertAll`, `rectangular_takeRows`, `rectangular_ofRecords`, … — every way of making
  a table keeps all columns equally long.
* `column?_upsertAll`, `upsertAll_ofEntries` — of columns that are stored one after the other the
  last of each name stays, and is found under it.

A repeated name is no trouble anywhere: the first column counts, for looking up as for storing.
-/

set_option autoImplicit false

namespace ChartFeed

theorem ColumnName.isPlain_iff {name : ColumnName} {plainName : String} :
    name.isPlain plainName = true ↔ name = .plain plainName := by
  cases name
  simp [isPlain, plain]

theorem ColumnName.isPlain_plain {name other : String} :
    (plain name).isPlain other = true ↔ name = other := by
  simp [isPlain, plain]

/-- The rows are there in all of the columns. -/
def RowsIn (columns : List Column) (rows : List Nat) : Prop :=
  ∀ row ∈ rows, ∀ c ∈ columns, row < c.cells.length

theorem RowsIn.mono {columns : List Column} {rows rows' : List Nat} (h : RowsIn columns rows)
    (hsub : rows' ⊆ rows) : RowsIn columns rows' :=
  fun row hrow ↦ h row (hsub hrow)

/-- The first rows of a column in their order. -/
theorem Column.map_cellAt_range {c : Column} {n : Nat} (h : n ≤ c.cells.length) :
    (List.range n).map c.cellAt = c.cells.take n := by
  refine List.ext_getElem (by simp [h]) fun row hrow hrow' ↦ ?_
  have hlt : row < c.cells.length := Nat.lt_of_lt_of_le (by simpa using hrow) h
  rw [List.getElem_map, List.getElem_range, List.getElem_take, cellAt,
    List.getD_eq_getElem?_getD, List.getElem?_eq_getElem hlt, Option.getD_some]

namespace Table

variable {t : Table} {name : String} {names : List String}

/-! ## Looking up -/

theorem column?_eq_some {c : Column} (h : t.column? name = some c) :
    c ∈ t.columns ∧ c.name = .plain name := by
  rw [column?] at h
  have hplain := List.find?_some h
  exact ⟨List.mem_of_find?_eq_some h, ColumnName.isPlain_iff.1 hplain⟩

theorem column?_eq_none_iff : t.column? name = none ↔ ∀ c ∈ t.columns, c.name ≠ .plain name := by
  simp [column?, List.find?_eq_none, ← ColumnName.isPlain_iff]

/-- The column with a plain name, when no name repeats. -/
theorem column?_eq_of_mem {c : Column} (hnodup : (t.columns.map Column.name).Nodup)
    (hc : c ∈ t.columns) (hname : c.name = .plain name) : t.column? name = some c := by
  cases hfound : t.column? name with
  | none => exact absurd hname (column?_eq_none_iff.1 hfound c hc)
  | some other =>
    obtain ⟨hother, hsame⟩ := column?_eq_some hfound
    exact congrArg some (List.inj_on_of_nodup_map hnodup hother hc (hsame.trans hname.symm))

/-- The first column with this plain name; without any, a column without rows. -/
def source (t : Table) (name : String) : Column := (t.column? name).getD ⟨.plain name, []⟩

/-- Every name is that of a column. -/
def HasColumns (t : Table) (names : List String) : Prop := ∀ name ∈ names, (t.column? name).isSome

instance (t : Table) (names : List String) : Decidable (t.HasColumns names) :=
  inferInstanceAs (Decidable (∀ name ∈ names, _))

theorem HasColumns.column?_eq (h : t.HasColumns names) (hname : name ∈ names) :
    t.column? name = some (t.source name) := by
  obtain ⟨c, hc⟩ := Option.isSome_iff_exists.1 (h name hname)
  rw [source, hc, Option.getD_some]

theorem HasColumns.source_mem (h : t.HasColumns names) (hname : name ∈ names) :
    t.source name ∈ t.columns :=
  (column?_eq_some (h.column?_eq hname)).1

theorem hasColumns_append {more : List String} :
    t.HasColumns (names ++ more) ↔ t.HasColumns names ∧ t.HasColumns more :=
  List.forall_mem_append

/-- **Looking up names one after the other**, when all are found. -/
theorem requireEach_eq (h : t.HasColumns names) :
    t.requireEach names = .ok (names.map t.source) := by
  induction names with
  | nil => rfl
  | cons name rest ih =>
    have hname := h.column?_eq (List.mem_cons_self ..)
    have hrest := ih fun other hother ↦ h other (List.mem_cons_of_mem _ hother)
    simp only [requireEach, require, hname, hrest]
    rfl

/-! ## Missing columns -/

/-- The names in the first list that no column has are those in the second, each once, in the
order in which they are first mentioned. -/
structure Lacks (t : Table) (names missing : List String) : Prop where
  /-- Mentioned, and not the plain name of any column. -/
  mem_iff : ∀ name, name ∈ missing ↔ name ∈ names ∧ ∀ c ∈ t.columns, c.name ≠ .plain name
  /-- What is mentioned first comes first, so nothing comes twice. -/
  inOrder : missing.Pairwise fun a b ↦ names.idxOf a < names.idxOf b

theorem Lacks.collects {missing : List String} (h : t.Lacks names missing) :
    Collects (fun name ↦ ∀ c ∈ t.columns, c.name ≠ .plain name) names missing :=
  ⟨h.mem_iff, h.inOrder⟩

/-- There is only one such list. -/
theorem Lacks.unique {missing missing' : List String} (h : t.Lacks names missing)
    (h' : t.Lacks names missing') : missing = missing' :=
  h.collects.unique h'.collects

theorem missing_append_singleton (t : Table) (names : List String) (name : String) :
    t.missing (names ++ [name]) =
      if (t.column? name).isNone && !(t.missing names).contains name then t.missing names ++ [name]
      else t.missing names := by
  rw [missing, List.foldl_append, List.foldl_cons, List.foldl_nil]
  rfl

/-- **The missing columns are reported exactly**, whatever is repeated. -/
theorem lacks_missing (t : Table) (names : List String) : t.Lacks names (t.missing names) := by
  have hmissing : t.missing names = names.foldl (fun acc name ↦
      if t.column? name = none ∧ name ∉ acc then acc ++ [name] else acc) [] := by
    simp [missing]
  have hcollects := collects_foldl (fun name ↦ t.column? name = none) names
  rw [← hmissing] at hcollects
  refine ⟨fun name ↦ ?_, hcollects.inOrder⟩
  rw [hcollects.mem_iff, column?_eq_none_iff]

theorem missing_eq_nil_iff : t.missing names = [] ↔ t.HasColumns names := by
  rw [List.eq_nil_iff_forall_not_mem]
  refine forall_congr' fun name ↦ ?_
  rw [(lacks_missing t names).mem_iff, not_and, ← column?_eq_none_iff, Option.isSome_iff_ne_none]

theorem requireAll_eq_ok (h : t.HasColumns names) : t.requireAll names = .ok () := by
  rw [requireAll, missing_eq_nil_iff.2 h]

/-- **The report about missing columns**: all of them, and nothing else is reported. -/
theorem requireAll_eq_error_iff {e : Rejection} :
    t.requireAll names = .error e ↔
      t.missing names ≠ [] ∧ e = .missingColumns (t.missing names) := by
  rw [requireAll]
  split
  · next hnil => simp [hnil]
  · next hne => exact ⟨fun h ↦ ⟨hne, (Except.error.inj h).symm⟩, fun h ↦ congrArg _ h.2.symm⟩

theorem requireAll_eq_ok_iff : t.requireAll names = .ok () ↔ t.HasColumns names := by
  refine ⟨fun h ↦ missing_eq_nil_iff.1 ?_, requireAll_eq_ok⟩
  rw [requireAll] at h
  split at h
  · assumption
  · cases h

/-! ## Columns of one length -/

theorem Rectangular.length_source (ht : t.Rectangular) (h : t.HasColumns names)
    (hname : name ∈ names) : (t.source name).cells.length = t.rowCount :=
  ht _ (h.source_mem hname)

theorem Rectangular.rowsIn (ht : t.Rectangular) (h : t.HasColumns names) {rows : List Nat}
    (hrows : rows ⊆ List.range t.rowCount) : RowsIn (names.map t.source) rows := by
  intro row hrow c hc
  obtain ⟨name, hname, rfl⟩ := List.mem_map.1 hc
  rw [ht.length_source h hname]
  exact List.mem_range.1 (hrows hrow)

theorem rectangular_of_length {n : Nat} (h : ∀ c ∈ t.columns, c.cells.length = n) :
    t.Rectangular := by
  intro c hc
  obtain ⟨columns⟩ := t
  cases columns with
  | nil => cases hc
  | cons first rest => exact (h c hc).trans (h first (List.mem_cons_self ..)).symm

theorem ofColumns_of_length {columns : List Column} {n : Nat}
    (h : ∀ c ∈ columns, c.cells.length = n) : ofColumns columns = .ok ⟨columns⟩ := by
  have hrect : (⟨columns⟩ : Table).Rectangular := rectangular_of_length h
  have hnone : columns.find? (fun c ↦ c.cells.length != rowCount ⟨columns⟩) = none := by
    rw [List.find?_eq_none]
    intro c hc
    simp [hrect c hc]
  simp only [ofColumns, hnone]

theorem rectangular_ofColumns {columns : List Column} (h : ofColumns columns = .ok t) :
    t.Rectangular := by
  simp only [ofColumns] at h
  split at h
  · cases h
  · next hnone =>
    cases h
    intro c hc
    simpa using List.find?_eq_none.1 hnone c hc

theorem rectangular_ofRecords (records : List (Dict Json)) : (ofRecords records).Rectangular := by
  refine rectangular_of_length (n := records.length) fun c hc ↦ ?_
  obtain ⟨key, -, rfl⟩ := List.mem_map.1 hc
  exact List.length_map ..

theorem rectangular_takeRows (t : Table) (rows : List Nat) : (t.takeRows rows).Rectangular := by
  refine rectangular_of_length (n := rows.length) fun c hc ↦ ?_
  obtain ⟨c, -, rfl⟩ := List.mem_map.1 hc
  exact List.length_map ..

theorem rowCount_takeRows (h : t.columns ≠ []) (rows : List Nat) :
    (t.takeRows rows).rowCount = rows.length := by
  obtain ⟨columns⟩ := t
  cases columns with
  | nil => exact absurd rfl h
  | cons c rest => exact List.length_map ..

/-! ## Taking rows -/

theorem column?_takeRows (t : Table) (rows : List Nat) (name : String) :
    (t.takeRows rows).column? name =
      (t.column? name).map fun c ↦ { c with cells := rows.map c.cellAt } := by
  rw [column?, takeRows, List.find?_map]
  rfl

/-- Taking rows keeps the names of the columns. -/
theorem hasColumns_takeRows_iff {rows : List Nat} :
    (t.takeRows rows).HasColumns names ↔ t.HasColumns names := by
  refine forall₂_congr fun name _ ↦ ?_
  rw [column?_takeRows, Option.isSome_map]

theorem source_takeRows (h : t.HasColumns names) (hname : name ∈ names) (rows : List Nat) :
    ((t.takeRows rows).source name).cells = rows.map (t.source name).cellAt := by
  rw [source, column?_takeRows, h.column?_eq hname]
  rfl

/-- All rows in their order are the table. -/
theorem Rectangular.takeRows_range (ht : t.Rectangular) :
    t.takeRows (List.range t.rowCount) = t := by
  have hcolumns : t.columns.map (fun c ↦
      { c with cells := (List.range t.rowCount).map c.cellAt }) = t.columns := by
    refine (List.map_congr_left fun c hc ↦ ?_).trans (List.map_id _)
    rw [← ht c hc, Column.map_cellAt_range (Nat.le_refl _), List.take_length]
    rfl
  rw [takeRows, hcolumns]

/-- The first rows are a slice. -/
theorem slice_zero {limit : Nat} (hpos : 0 < limit) (hle : limit ≤ t.rowCount) :
    t.slice 0 limit = t.takeRows (List.range limit) := by
  rw [slice, if_neg (Nat.ne_of_gt hpos), Nat.zero_add, Nat.min_eq_left hle, Nat.zero_min,
    List.drop_zero]

/-! ## Storing keeps the length -/

theorem mem_upsertColumns {cells : List Cell} {columns : List Column} {c : Column}
    (h : c ∈ upsertColumns name cells columns) : c ∈ columns ∨ c.cells = cells := by
  induction columns with
  | nil => exact .inr (List.mem_singleton.1 h ▸ rfl)
  | cons other rest ih =>
    rw [upsertColumns] at h
    split at h
    · rcases List.mem_cons.1 h with rfl | h
      · exact .inr rfl
      · exact .inl (List.mem_cons_of_mem _ h)
    · rcases List.mem_cons.1 h with rfl | h
      · exact .inl (List.mem_cons_self ..)
      · exact (ih h).imp (List.mem_cons_of_mem _) id

/-- A column with as many rows as the table has leaves the number of rows. -/
theorem rowCount_upsert {cells : List Cell} (h : cells.length = t.rowCount) :
    (t.upsert name cells).rowCount = t.rowCount := by
  obtain ⟨columns⟩ := t
  cases columns with
  | nil => exact h
  | cons c rest =>
    rw [upsert, upsertColumns]
    split
    · exact h
    · rfl

theorem Rectangular.upsert (ht : t.Rectangular) {cells : List Cell}
    (h : cells.length = t.rowCount) : (t.upsert name cells).Rectangular := by
  intro c hc
  rw [rowCount_upsert h]
  rcases mem_upsertColumns hc with hc | hc
  · exact ht c hc
  · rw [hc, h]

/-- **Columns with as many rows as the table has** can be stored in it one after the other. -/
theorem Rectangular.upsertAll (ht : t.Rectangular) {assignments : List (String × List Cell)}
    (h : ∀ a ∈ assignments, a.2.length = t.rowCount) :
    (t.upsertAll assignments).Rectangular ∧
      (t.upsertAll assignments).rowCount = t.rowCount := by
  induction assignments generalizing t with
  | nil => exact ⟨ht, rfl⟩
  | cons a rest ih =>
    obtain ⟨ha, hrest⟩ := List.forall_mem_cons.1 h
    have hcount : (t.upsert a.1 a.2).rowCount = t.rowCount := rowCount_upsert ha
    obtain ⟨hrect, hrows⟩ := ih (ht.upsert ha) fun b hb ↦ (hrest b hb).trans hcount.symm
    exact ⟨hrect, hrows.trans hcount⟩

/-! ## Storing under plain names -/

section

variable {other : String} {cells cells' : List Cell}

theorem find?_upsertColumns (name other : String) (cells : List Cell) (columns : List Column) :
    (upsertColumns name cells columns).find? (fun c ↦ c.name.isPlain other) =
      if name = other then some ⟨.plain name, cells⟩
      else columns.find? fun c ↦ c.name.isPlain other := by
  induction columns with
  | nil => by_cases hname : name = other <;> simp [upsertColumns, ColumnName.isPlain_plain, hname]
  | cons c rest ih =>
    rw [upsertColumns]
    split
    · next hc =>
      rw [ColumnName.isPlain_iff] at hc
      by_cases hname : name = other <;> simp [hc, ColumnName.isPlain_plain, hname]
    · next hc =>
      rw [List.find?_cons, List.find?_cons, ih]
      by_cases hname : name = other
      · subst hname
        simp [hc]
      · simp [hname]

/-- What was stored under a name is found there, and nothing else is found elsewhere. -/
theorem column?_upsert (t : Table) (name other : String) (cells : List Cell) :
    (t.upsert name cells).column? other =
      if name = other then some ⟨.plain name, cells⟩ else t.column? other :=
  find?_upsertColumns name other cells t.columns

/-- Of two columns that are stored under one name the second stays. -/
theorem upsert_upsert (t : Table) (name : String) (cells cells' : List Cell) :
    (t.upsert name cells).upsert name cells' = t.upsert name cells' := by
  refine congrArg Table.mk ?_
  show upsertColumns name cells' (upsertColumns name cells t.columns) = _
  induction t.columns with
  | nil => simp [upsertColumns, ColumnName.isPlain_plain]
  | cons c rest ih =>
    rw [upsertColumns, upsertColumns]
    by_cases hc : c.name.isPlain name = true
    · simp [upsertColumns, hc]
    · simp [upsertColumns, hc, ih]

/-- A column that is there is replaced in its place, whatever is stored before. -/
theorem upsert_comm (h : (t.column? name).isSome) (hne : name ≠ other) :
    (t.upsert other cells').upsert name cells = (t.upsert name cells).upsert other cells' := by
  refine congrArg Table.mk ?_
  show upsertColumns name cells (upsertColumns other cells' t.columns) =
    upsertColumns other cells' (upsertColumns name cells t.columns)
  rw [column?] at h
  generalize t.columns = columns at h
  induction columns with
  | nil => cases h
  | cons c rest ih =>
    rw [upsertColumns, upsertColumns]
    by_cases hname : c.name = .plain name
    · simp [upsertColumns, hname, ColumnName.isPlain_plain, hne]
    · by_cases hother : c.name = .plain other
      · simp [upsertColumns, hother, ColumnName.isPlain_plain, hne.symm]
      · rw [← ColumnName.isPlain_iff] at hname hother
        have hrest : (rest.find? fun c ↦ c.name.isPlain name).isSome = true := by
          simpa [hname] using h
        simp [upsertColumns, hname, hother, ih hrest]

theorem upsertAll_cons (t : Table) (a : String × List Cell) (rest : List (String × List Cell)) :
    t.upsertAll (a :: rest) = (t.upsert a.1 a.2).upsertAll rest := rfl

theorem upsertAll_append_singleton (t : Table) (assignments : List (String × List Cell))
    (a : String × List Cell) :
    t.upsertAll (assignments ++ [a]) = (t.upsertAll assignments).upsert a.1 a.2 :=
  List.foldl_append ..

/-- Storing under other names leaves what is found under this one. -/
theorem column?_upsertAll_of_notMem {rest : Dict (List Cell)} (h : name ∉ Dict.keys rest) :
    (t.upsertAll rest).column? name = t.column? name := by
  induction rest generalizing t with
  | nil => rfl
  | cons a rest ih =>
    obtain ⟨hne, hrest⟩ := not_or.1 (mt List.mem_cons.2 h)
    rw [upsertAll_cons, ih hrest, column?_upsert, if_neg (Ne.symm hne)]

/-- What was stored under different names is found there. -/
theorem column?_upsertAll {d : Dict (List Cell)} (hd : (Dict.keys d).Nodup)
    (h : (name, cells) ∈ d) : (t.upsertAll d).column? name = some ⟨.plain name, cells⟩ := by
  induction d generalizing t with
  | nil => cases h
  | cons a rest ih =>
    obtain ⟨ha, hrest⟩ := List.nodup_cons.1 hd
    rw [upsertAll_cons]
    rcases List.mem_cons.1 h with rfl | h
    · rw [column?_upsertAll_of_notMem ha, column?_upsert, if_pos rfl]
    · exact ih hrest h

/-- A column that is there can be replaced before others are stored. -/
theorem upsert_upsertAll (h : (t.column? name).isSome) {rest : Dict (List Cell)}
    (hrest : name ∉ Dict.keys rest) :
    (t.upsertAll rest).upsert name cells = (t.upsert name cells).upsertAll rest := by
  induction rest generalizing t with
  | nil => rfl
  | cons a rest ih =>
    obtain ⟨hne, hrest⟩ := not_or.1 (mt List.mem_cons.2 hrest)
    have hstored : ((t.upsert a.1 a.2).column? name).isSome := by
      rw [column?_upsert, if_neg (Ne.symm hne)]
      exact h
    rw [upsertAll_cons, ih hstored hrest, upsert_comm h hne, upsertAll_cons]

/-- One more column is stored as one more entry, which replaces the one of its name. -/
theorem upsertAll_insert (t : Table) {d : Dict (List Cell)} (hd : (Dict.keys d).Nodup) :
    t.upsertAll (Dict.insert d name cells) = (t.upsertAll d).upsert name cells := by
  induction d generalizing t with
  | nil => rfl
  | cons a rest ih =>
    obtain ⟨ha, hrest⟩ := List.nodup_cons.1 hd
    rw [Dict.insert]
    split
    · next hname =>
      subst hname
      have hstored : ((t.upsert a.1 a.2).column? a.1).isSome := by
        rw [column?_upsert, if_pos rfl]
        rfl
      rw [upsertAll_cons, upsertAll_cons, upsert_upsertAll hstored ha, upsert_upsert]
    · rw [upsertAll_cons, upsertAll_cons, ih _ hrest]

/-- **Storing columns one after the other** stores the last of each name. -/
theorem upsertAll_ofEntries (t : Table) (assignments : List (String × List Cell)) :
    t.upsertAll (Dict.ofEntries assignments) = t.upsertAll assignments := by
  induction assignments using List.reverseRecOn with
  | nil => rfl
  | append_singleton assignments a ih =>
    have hlast : Dict.ofEntries (assignments ++ [a]) =
        Dict.insert (Dict.ofEntries assignments) a.1 a.2 :=
      Dict.insertAll_append [] assignments [a]
    rw [hlast, upsertAll_insert t (Dict.nodup_keys_ofEntries assignments), ih,
      upsertAll_append_singleton]

end

end Table

end ChartFeed
