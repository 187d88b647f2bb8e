import Mathlib.Data.List.Dedup
import ChartFeed.Proofs.Dict.Lookup
import ChartFeed.Proofs.Transform.Safety

/-!
# Columns in records

A record holds a cell under the label of its column.  Two columns with one label share an entry, and
then a record says less than the row that it was made of.  This file says when that happens.

* `Table.recordAt_eq`, `Table.length_recordAt_eq_iff` — a record has one entry for each column
  exactly when the labels are distinct;
* `Transform.nodup_labels_result_iff` — a transform makes a table with distinct labels of another
  exactly when it keeps names apart, `Transform.NamesApart`;
* `Step.labels_nodup_iff` — the same for any steps, from the records they start with.

Most transforms store what they compute with `Table.upsert`, which looks for a column of that name
first.  They can only meet the label of a column with several parts.  Summaries, pivots and
selections put columns side by side without looking, so there the names themselves decide.  For
pivots these are made of cells, and different cells may be shown alike: `countByKind_loses_column`
is about an integer and a text.
-/

set_option autoImplicit false

namespace ChartFeed

/-! ## Records -/

namespace Dict

variable {α : Type}

theorem mem_keys_insertAll_iff {d new : Dict α} {key : String} :
    key ∈ keys (insertAll d new) ↔ key ∈ keys d ∨ key ∈ keys new := by
  induction new generalizing d with
  | nil => simp [insertAll_nil, keys]
  | cons entry rest ih =>
    have hkeys : keys (entry :: rest) = entry.1 :: keys rest := rfl
    rw [insertAll_cons, ih, keys_insert, hkeys, List.mem_cons, ← or_assoc]
    refine or_congr_left ?_
    split
    · next hmem => exact ⟨.inl, fun h ↦ h.elim id fun e ↦ e ▸ hmem⟩
    · rw [List.mem_append, List.mem_singleton]

/-- **Nothing is lost** of entries with distinct keys, and only of those. -/
theorem length_ofEntries_eq_iff (entries : List (String × α)) :
    (ofEntries entries).length = entries.length ↔ (keys entries).Nodup := by
  refine ⟨fun h ↦ ?_, fun h ↦ congrArg List.length (ofEntries_eq_self h)⟩
  have hperm : (keys (ofEntries entries)).Perm (keys entries).dedup :=
    (List.perm_ext_iff_of_nodup (nodup_keys_ofEntries entries) (List.nodup_dedup _)).2 fun key ↦ by
      rw [List.mem_dedup, ofEntries, mem_keys_insertAll_iff]
      simp [keys]
  have hlength : (keys entries).dedup.length = (keys entries).length := by
    rw [← hperm.length_eq]
    simpa [keys] using h
  exact List.dedup_eq_self.1 ((List.dedup_sublist _).eq_of_length hlength)

end Dict

theorem ColumnName.label_plain (name : String) : (plain name).label = name := rfl

namespace Table

variable {t : Table}

/-- The names under which records hold the cells of the columns. -/
def labels (t : Table) : List String := t.columns.map fun c ↦ c.name.label

/-- The labels are the keys of the entries that a record is made of. -/
theorem keys_entries (t : Table) (row : Nat) :
    Dict.keys (t.columns.map fun c ↦ (c.name.label, (c.cellAt row).toJson)) = t.labels :=
  List.map_map

/-- **A record has one entry for each column** exactly when the labels are distinct. -/
theorem length_recordAt_eq_iff (t : Table) (row : Nat) :
    (t.recordAt row).length = t.columns.length ↔ t.labels.Nodup := by
  rw [recordAt, ← t.keys_entries row, ← Dict.length_ofEntries_eq_iff, List.length_map]

/-- With distinct labels, every cell of a row is in its record, under the label of its column. -/
theorem recordAt_eq (h : t.labels.Nodup) (row : Nat) :
    t.recordAt row = t.columns.map fun c ↦ (c.name.label, (c.cellAt row).toJson) := by
  refine Dict.ofEntries_eq_self ?_
  rwa [keys_entries]

/-- The columns of records are their keys, each once, in the order in which they first appear. -/
theorem collects_recordKeys (records : List (Dict Json)) :
    Collects (fun _ ↦ True) (records.flatMap Dict.keys) (recordKeys records) := by
  have hkeys : recordKeys records = (records.flatMap Dict.keys).foldl (fun acc key ↦
      if True ∧ key ∉ acc then acc ++ [key] else acc) [] := by
    simp [recordKeys]
  rw [hkeys]
  exact collects_foldl _ _

theorem nodup_recordKeys (records : List (Dict Json)) : (recordKeys records).Nodup :=
  (collects_recordKeys records).nodup

/-- The columns of records have the keys of the records for labels. -/
theorem labels_ofRecords (records : List (Dict Json)) :
    (ofRecords records).labels = recordKeys records := by
  rw [labels, ofRecords, List.map_map]
  exact List.map_id _

/-! ## Storing a column -/

/-- A column can be stored under each of the names without meeting the label of another. -/
def Assignable (t : Table) (names : List String) : Prop :=
  ∀ name ∈ names, ∀ c ∈ t.columns, c.name.label = name → c.name = .plain name

variable {name : String} {cells : List Cell}

theorem names_upsertColumns (name : String) (cells : List Cell) (columns : List Column) :
    (upsertColumns name cells columns).map Column.name =
      if .plain name ∈ columns.map Column.name then columns.map Column.name
      else columns.map Column.name ++ [.plain name] := by
  induction columns with
  | nil => rfl
  | cons c rest ih =>
    rw [upsertColumns]
    by_cases hc : c.name = .plain name
    · rw [if_pos (ColumnName.isPlain_iff.2 hc)]
      simp [hc]
    · have hplain : ¬ c.name.isPlain name = true := fun h ↦ hc (ColumnName.isPlain_iff.1 h)
      have hne : ¬ ColumnName.plain name = c.name := fun h ↦ hc h.symm
      rw [if_neg hplain, List.map_cons, ih, List.map_cons]
      by_cases hrest : ColumnName.plain name ∈ rest.map Column.name <;> simp [hrest, hne]

/-- The names of the columns. -/
def columnNames (t : Table) : List ColumnName := t.columns.map Column.name

theorem labels_eq (t : Table) : t.labels = t.columnNames.map ColumnName.label := by
  rw [labels, columnNames, List.map_map]
  rfl

theorem columnNames_upsert (t : Table) (name : String) (cells : List Cell) :
    (t.upsert name cells).columnNames =
      if .plain name ∈ t.columnNames then t.columnNames else t.columnNames ++ [.plain name] :=
  names_upsertColumns name cells t.columns

theorem labels_upsert (t : Table) (name : String) (cells : List Cell) :
    (t.upsert name cells).labels =
      if .plain name ∈ t.columnNames then t.labels else t.labels ++ [name] := by
  rw [labels_eq, columnNames_upsert, labels_eq]
  split
  · rfl
  · rw [List.map_append]
    rfl

theorem assignable_iff {names : List String} : t.Assignable names ↔
    ∀ name ∈ names, ∀ n ∈ t.columnNames, n.label = name → n = .plain name := by
  refine forall₂_congr fun name _ ↦ ?_
  rw [columnNames, List.forall_mem_map]

theorem nodup_labels_upsert_iff (h : t.labels.Nodup) :
    (t.upsert name cells).labels.Nodup ↔ t.Assignable [name] := by
  rw [labels_upsert, assignable_iff, List.forall_mem_singleton]
  rw [labels_eq] at h ⊢
  split
  · next hfound =>
    refine ⟨fun _ n hn hlabel ↦ ?_, fun _ ↦ h⟩
    exact List.inj_on_of_nodup_map h hn hfound (hlabel.trans (ColumnName.label_plain name).symm)
  · next hnew =>
    rw [← List.concat_eq_append, List.nodup_concat]
    constructor
    · rintro ⟨hfree, -⟩ n hn hlabel
      exact absurd (List.mem_map.2 ⟨n, hn, hlabel⟩) hfree
    · refine fun hplain ↦ ⟨fun hmem ↦ hnew ?_, h⟩
      obtain ⟨n, hn, hlabel⟩ := List.mem_map.1 hmem
      exact hplain n hn hlabel ▸ hn

/-- A column that is stored takes no label but its own. -/
theorem assignable_upsert_iff {names : List String} :
    (t.upsert name cells).Assignable names ↔ t.Assignable names := by
  rw [assignable_iff, assignable_iff]
  refine forall₂_congr fun other _ ↦ ?_
  rw [columnNames_upsert]
  split
  · exact Iff.rfl
  · rw [List.forall_mem_append, List.forall_mem_singleton]
    exact and_iff_left (congrArg ColumnName.plain)

theorem labels_prefix_upsertAll (t : Table) (assignments : List (String × List Cell)) :
    t.labels <+: (t.upsertAll assignments).labels := by
  induction assignments generalizing t with
  | nil => exact List.prefix_refl _
  | cons a rest ih =>
    refine List.IsPrefix.trans ?_ (ih (t.upsert a.1 a.2))
    rw [labels_upsert]
    split
    · exact List.prefix_refl _
    · exact List.prefix_append ..

/-- **Storing columns one after the other** keeps labels distinct exactly when no name is the label
of a column with several parts. -/
theorem nodup_labels_upsertAll_iff (h : t.labels.Nodup) (assignments : List (String × List Cell)) :
    (t.upsertAll assignments).labels.Nodup ↔ t.Assignable (assignments.map Prod.fst) := by
  induction assignments generalizing t with
  | nil => exact iff_of_true h fun _ hname ↦ nomatch hname
  | cons a rest ih =>
    have hsplit : t.Assignable ((a :: rest).map Prod.fst) ↔
        t.Assignable [a.1] ∧ t.Assignable (rest.map Prod.fst) := by
      simp [Assignable]
    have hstored : (t.upsert a.1 a.2).labels.Nodup ↔ t.Assignable [a.1] :=
      nodup_labels_upsert_iff h
    have hnext (hfirst : t.Assignable [a.1]) :
        (t.upsertAll (a :: rest)).labels.Nodup ↔ t.Assignable (rest.map Prod.fst) :=
      (ih (hstored.2 hfirst)).trans assignable_upsert_iff
    rw [hsplit]
    refine ⟨fun hall ↦ ?_, fun hall ↦ (hnext hall.1).2 hall.2⟩
    have hfirst : t.Assignable [a.1] :=
      hstored.1 (hall.sublist (labels_prefix_upsertAll _ rest).sublist)
    exact ⟨hfirst, (hnext hfirst).1 hall⟩

end Table

/-! ## Transforms -/

theorem Summary.labels_keyColumns (keys : List Key) (names : List String) :
    (keyColumns keys names).map (fun c ↦ c.name.label) = names := by
  have hnames := congrArg (List.map ColumnName.label) (names_keyColumns keys names)
  rw [List.map_map, List.map_map] at hnames
  exact hnames.trans (List.map_id _)

/-- Every aggregate with every combination of the pivot's cells, as far as they are not dropped. -/
def Pivot.kept (p : Pivot) (t : Table) : List ((Aggregate × Column) × Key) :=
  (p.combined t).filter fun x ↦
    !(p.dropEmpty && (rawCells x.1.1.measure x.1.2 x.2
      (cellGroups (p.rowKey t) (p.rowGroups t))).all Cell.isAbsent)

/-- The columns that a pivot adds are named after what is kept. -/
theorem Pivot.labels_valueColumns (p : Pivot) (t : Table) :
    (p.valueColumns t).map (fun c ↦ c.name.label) =
      (p.kept t).map fun x ↦ (p.outputName x.1.1.name x.2).label := by
  rw [valueColumns, kept]
  induction p.combined t with
  | nil => rfl
  | cons x rest ih =>
    simp only [List.filterMap_cons, List.filter_cons, outputColumn] at ih ⊢
    split
    · next hdropped =>
      split at hdropped
      · next hempty => simpa [hempty] using ih
      · cases hdropped
    · next hkept =>
      split at hkept
      · cases hkept
      · next hfull =>
        cases hkept
        simpa [hfull] using ih

namespace Transform

/-- The names that a transform gives to columns are different from each other and from those that
stay. -/
def NamesApart : Transform → Table → Prop
  | .aggregate s, _ => (s.groupby ++ s.aggregates.map Aggregate.name).Nodup
  | .pivot p, t =>
    (p.index ++ (p.kept t).map fun x ↦ (p.outputName x.1.1.name x.2).label).Nodup
  | .sort _, _ => True
  | .rolling r, t => t.Assignable (r.columns.entries.map Prod.snd)
  | .select s, _ => (s.columns.entries.map Prod.snd).Nodup
  | .diff d, t => t.Assignable (d.columns.entries.map Prod.snd)
  | .cum r, t => t.Assignable (r.columns.entries.map Prod.snd)
  | .contribution c, t => t.Assignable ((c.targetNames t).map Prod.snd)

variable {f : Transform} {t : Table}

/-- Names for computed columns, whatever is computed. -/
theorem names_computed (compute : List (Option Float) → List Cell)
    (mapping : List (String × String)) :
    (t.computed compute mapping).map Prod.fst = mapping.map Prod.snd :=
  List.map_map

/-- **A transform keeps labels distinct exactly when it keeps names apart.** -/
theorem nodup_labels_result_iff (f : Transform) (h : t.labels.Nodup) :
    (f.result t).labels.Nodup ↔ f.NamesApart t := by
  cases f with
  | aggregate s =>
    have hlabels : (s.result t).labels = s.groupby ++ s.aggregates.map Aggregate.name := by
      rw [Table.labels, Summary.result, List.map_append, Summary.labels_keyColumns, List.map_map]
      rfl
    rw [result, hlabels, NamesApart]
  | pivot p =>
    have hlabels : (p.result t).labels =
        p.index ++ (p.kept t).map fun x ↦ (p.outputName x.1.1.name x.2).label := by
      rw [Table.labels, Pivot.result, List.map_append, Summary.labels_keyColumns,
        Pivot.labels_valueColumns]
    rw [result, hlabels, NamesApart]
  | sort s =>
    have hlabels : (s.result t).labels = t.labels := by
      rw [Table.labels, RowSort.result, Table.takeRows, List.map_map]
      rfl
    rw [result, hlabels]
    exact iff_true_intro h
  | rolling r => rw [result, Table.nodup_labels_upsertAll_iff h, names_computed, NamesApart]
  | select s =>
    have hlabels : (s.result t).labels = s.columns.entries.map Prod.snd := by
      rw [Table.labels, Selection.result, List.map_map]
      rfl
    rw [result, hlabels, NamesApart]
  | diff d => rw [result, Table.nodup_labels_upsertAll_iff h, names_computed, NamesApart]
  | cum r => rw [result, Table.nodup_labels_upsertAll_iff h, names_computed, NamesApart]
  | contribution c =>
    have hlength : ((c.targetNames t).map Prod.snd).length ≤
        (Contribution.shares c.orientation t.rowCount (c.series t)).length := by
      cases ho : c.orientation <;> simp [Contribution.shares, Contribution.series]
    rw [result, Contribution.result, Table.nodup_labels_upsertAll_iff h,
      List.map_fst_zip hlength, NamesApart]

end Transform

/-! ## Any number of steps -/

namespace Step

/-- Every step keeps names apart in the table that it is applied to. -/
def NamedApart : List Step → Table → Prop
  | [], _ => True
  | s :: rest, t =>
    ∀ next, s.transform.apply t = .ok next → s.transform.NamesApart t ∧ NamedApart rest next

theorem nodup_labels_apply_iff {s : Step} {t next : Table} (ht : t.Rectangular)
    (h : t.labels.Nodup) (hnext : s.transform.apply t = .ok next) :
    next.labels.Nodup ↔ s.transform.NamesApart t := by
  obtain ⟨-, rfl⟩ := (Transform.apply_eq_ok_iff ht).1 hnext
  exact s.transform.nodup_labels_result_iff h

theorem namedApart_iff_along {steps : List Step} {t : Table} :
    NamedApart steps t ↔ Along (fun s t ↦ s.transform.NamesApart t) steps t := by
  induction steps generalizing t with
  | nil => exact Iff.rfl
  | cons s rest ih => exact forall₂_congr fun next _ ↦ and_congr_right fun _ ↦ ih

theorem nodup_labels_applySteps_iff {steps : List Step} {t : Table} (ht : t.Rectangular)
    (h : t.labels.Nodup) :
    (∀ before u, before <+: steps → applySteps before t = .ok u → u.labels.Nodup) ↔
      NamedApart steps t := by
  rw [namedApart_iff_along]
  exact forall_prefix_iff (fun s _ t next ht h hnext ↦ nodup_labels_apply_iff ht h hnext) ht h

/-- **No column is lost in the records exactly when names are kept apart.**  Whatever part of the
steps has been applied, the labels are distinct, exactly when every step keeps names apart where it
is applied.  A record has as many entries as there are columns exactly when the labels are distinct,
and then it has the cell of every column under the label of that column. -/
theorem labels_nodup_iff (records : List (Dict Json)) (steps : List Step) :
    ((∀ before u, before <+: steps → applySteps before (.ofRecords records) = .ok u →
        u.labels.Nodup) ↔ NamedApart steps (.ofRecords records)) ∧
      ∀ out, applySteps steps (.ofRecords records) = .ok out → ∀ row,
        ((out.recordAt row).length = out.columns.length ↔ out.labels.Nodup) ∧
          (out.labels.Nodup → out.recordAt row =
            out.columns.map fun c ↦ (c.name.label, (c.cellAt row).toJson)) := by
  have hlabels : (Table.ofRecords records).labels.Nodup := by
    rw [Table.labels_ofRecords]
    exact Table.nodup_recordKeys records
  exact ⟨nodup_labels_applySteps_iff (Table.rectangular_ofRecords records) hlabels,
    fun out _ row ↦ ⟨out.length_recordAt_eq_iff row, fun h ↦ Table.recordAt_eq h row⟩⟩

/-- Records of which some have an integer where others have its text. -/
def mixedKinds : List (Dict Json) := [
  [("shop", .str "north"), ("kind", .int 1)],
  [("shop", .str "north"), ("kind", .str "1")],
  [("shop", .str "north"), ("kind", .str "1")]]

/-- A pivot as a request writes it, that counts the records of each kind. -/
def countByKind : Json := .obj [
  ("operation", .str "pivot"),
  ("options", .obj [
    ("index", .arr [.str "shop"]),
    ("columns", .arr [.str "kind"]),
    ("aggregates", .obj [("n", .obj [("column", .str "kind"), ("operator", .str "count")])])])]

/-- **Two columns under one label**: the record has the count of the texts, and not the other. -/
theorem countByKind_loses_column :
    ∃ steps out, readAll [countByKind] = .ok steps ∧
      applySteps steps (.ofRecords mixedKinds) = .ok out ∧
      out.columns.map Column.cells = [[.text "north"], [.int 1], [.int 2]] ∧
      ¬ out.labels.Nodup ∧ out.toRecords = [[("shop", .str "north"), ("n, 1", .int 2)]] := by
  have hrun : (readAll [countByKind] >>= fun steps ↦ applySteps steps (.ofRecords mixedKinds)) =
      .ok ⟨[⟨.plain "shop", [.text "north"]⟩, ⟨⟨["n", "1"]⟩, [.int 1]⟩,
        ⟨⟨["n", "1"]⟩, [.int 2]⟩]⟩ := by
    decide +kernel
  obtain ⟨steps, hsteps, hout⟩ := bind_eq_ok.1 hrun
  exact ⟨steps, _, hsteps, hout, rfl, by decide, by decide⟩

end Step

end ChartFeed
