import ChartFeed.Proofs.Transform.Result

/-!
# Empty and uniform tables

Two kinds of table tell transforms apart.  The empty table lacks every column, and the report names
them in order.  A uniform table has every column that is asked for, all with the same cells, and the
result names the columns of the output in order.

* `Table.requireAll_empty_injective` — the order of required columns shows on the empty table;
* `Table.uniform` and what looking up its columns gives;
* `Summary.apply_uniform`, `Pivot.apply_uniform` — the columns that summaries and pivots make of it.
-/

set_option autoImplicit false

namespace ChartFeed

namespace Table

/-! ## The empty table -/

theorem missing_empty {names : List String} (h : names.Nodup) : empty.missing names = names := by
  refine (lacks_missing empty names).unique ⟨fun name ↦ by simp [empty], ?_⟩
  rw [List.pairwise_iff_getElem]
  intro i j hi hj hij
  rwa [h.idxOf_getElem, h.idxOf_getElem]

/-- **The order of required columns shows** in the report about the empty table. -/
theorem requireAll_empty_injective {α : Type} {names names' : List String} (hn : names.Nodup)
    (hperm : names.Perm names') {f g : Unit → Except Rejection α}
    (h : (empty.requireAll names >>= f) = (empty.requireAll names' >>= g)) : names = names' := by
  have hn' : names'.Nodup := hperm.nodup_iff.1 hn
  cases names with
  | nil => exact hperm.nil_eq
  | cons a names =>
    cases names' with
    | nil => exact hperm.eq_nil
    | cons b names' =>
      rw [requireAll, requireAll, missing_empty hn, missing_empty hn'] at h
      exact Rejection.missingColumns.inj (Except.error.inj h)

/-! ## Uniform tables -/

/-- A column of a uniform table. -/
def uniformColumn (cells : List Cell) (name : String) : Column := ⟨.plain name, cells⟩

/-- A table with these columns, all with the same cells. -/
def uniform (names : List String) (cells : List Cell) : Table := ⟨names.map (uniformColumn cells)⟩

variable {names : List String} {cells : List Cell}

theorem hasColumns_uniform {wanted : List String} (h : ∀ name ∈ wanted, name ∈ names) :
    (uniform names cells).HasColumns wanted := by
  intro name hname
  rw [Option.isSome_iff_ne_none, Ne, column?_eq_none_iff]
  exact fun hnone ↦ hnone _ (List.mem_map_of_mem (h name hname)) rfl

theorem source_uniform {name : String} (h : name ∈ names) :
    (uniform names cells).source name = uniformColumn cells name := by
  have hwanted : (uniform names cells).HasColumns [name] := hasColumns_uniform (by simpa)
  obtain ⟨hmem, hname⟩ := column?_eq_some (hwanted.column?_eq (List.mem_singleton_self name))
  obtain ⟨other, -, hother⟩ := List.mem_map.1 hmem
  rw [← hother] at hname ⊢
  exact congrArg (fun plainName ↦ (⟨plainName, cells⟩ : Column)) hname

theorem sources_uniform {wanted : List String} (h : ∀ name ∈ wanted, name ∈ names) :
    wanted.map (uniform names cells).source = wanted.map (uniformColumn cells) :=
  List.map_congr_left fun name hname ↦ source_uniform (h name hname)

end Table

/-! ## Summaries of uniform tables -/

namespace Summary

/-- **The columns of a summary** are the grouping columns and then the aggregates, in order. -/
theorem apply_uniform (s : Summary) {names : List String} (cells : List Cell)
    (h : ∀ name ∈ s.needed, name ∈ names) :
    ∃ t, s.apply (Table.uniform names cells) = .ok t ∧
      t.columns.map Column.name =
        s.groupby.map ColumnName.plain ++ s.aggregates.map fun a ↦ .plain a.name := by
  refine ⟨s.result (Table.uniform names cells),
    apply_eq_ok_iff.2 ⟨Table.hasColumns_uniform h, rfl⟩, ?_⟩
  rw [result, List.map_append, names_keyColumns, List.map_map]
  rfl

end Summary

/-! ## Pivots of uniform tables -/

namespace Pivot

/-- The rows of a uniform table by their cells in the index columns. -/
def uniformRows (p : Pivot) (cells : List Cell) : Grouping :=
  Grouping.ofColumns (p.index.map (Table.uniformColumn cells))

/-- The cells of a row of a uniform table in the pivot columns. -/
def uniformKey (p : Pivot) (cells : List Cell) : Nat → Option Key :=
  keyAt (p.keyFill.map Cell.text) (p.columns.map (Table.uniformColumn cells))

/-- The columns that a pivot adds to those of the index. -/
def uniformOutput (p : Pivot) (cells : List Cell) : List Column :=
  (p.combinations (p.aggregates.map fun a ↦ (a, Table.uniformColumn cells a.column))
    (distinctKeys (p.uniformKey cells) (p.uniformRows cells))).filterMap
      fun x ↦ p.outputColumn (cellGroups (p.uniformKey cells) (p.uniformRows cells)) x.1 x.2

/-- **A pivot of a uniform table** has the columns of the index and then its own. -/
theorem apply_uniform (p : Pivot) {names : List String} (cells : List Cell)
    (h : ∀ name ∈ p.needed, name ∈ names) :
    p.apply (Table.uniform names cells) =
      .ok ⟨Summary.keyColumns (p.uniformRows cells).gathered.keys p.index ++
        p.uniformOutput cells⟩ := by
  have hindex : p.index.map (Table.uniform names cells).source =
      p.index.map (Table.uniformColumn cells) := Table.sources_uniform
    fun name hmem ↦ h name (List.mem_append.2 (.inl (List.mem_append.2 (.inl hmem))))
  have hcolumns : p.columns.map (Table.uniform names cells).source =
      p.columns.map (Table.uniformColumn cells) := Table.sources_uniform
    fun name hmem ↦ h name (List.mem_append.2 (.inl (List.mem_append.2 (.inr hmem))))
  have hsources : p.aggregates.map (fun a ↦ (a, (Table.uniform names cells).source a.column)) =
      p.aggregates.map fun a ↦ (a, Table.uniformColumn cells a.column) :=
    List.map_congr_left fun a ha ↦ by
      rw [Table.source_uniform (h a.column (List.mem_append.2 (.inr (List.mem_map_of_mem ha))))]
  have hrows : p.rowGroups (Table.uniform names cells) = p.uniformRows cells := by
    rw [rowGroups, hindex, uniformRows]
  have hkey : p.rowKey (Table.uniform names cells) = p.uniformKey cells := by
    rw [rowKey, hcolumns, uniformKey]
  refine apply_eq_ok_iff.2 ⟨Table.hasColumns_uniform h, ?_⟩
  rw [result, outputKeys_eq, valueColumns, combined, hrows, hkey, hsources]
  rfl

end Pivot

end ChartFeed
