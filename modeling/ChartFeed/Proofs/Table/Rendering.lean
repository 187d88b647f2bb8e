import ChartFeed.Proofs.Table.Records

/-!
# Tables through records

A table that is shown as records can be made a table again.  What comes back are its columns in
their order, each under its label, and the cells as they were, except that an instant has become its
milliseconds and a double that is not finite is gone.

* `Cell.ofJson_toJson` — what comes back of one cell, `Cell.rendered`;
* `Table.recordKeys_toRecords` — every record has the same keys, so these are the labels;
* `Table.ofRecords_toRecords` — the whole table comes back as `Table.rendered`, and going through
  records once more changes nothing.

Labels have to be distinct, or else columns share an entry of the records, and there has to be a
row, or else no record says what the columns are.
-/

set_option autoImplicit false

namespace ChartFeed

/-- Distinct items are met for the first time each. -/
theorem eraseDups_of_nodup {items : List String} (h : items.Nodup) : items.eraseDups = items := by
  induction items with
  | nil => rfl
  | cons first rest ih =>
    obtain ⟨hfirst, hrest⟩ := List.nodup_cons.1 h
    have hothers : (rest.filter fun item ↦ !item == first) = rest := by
      refine List.filter_eq_self.2 fun item hitem ↦ ?_
      simpa using fun e : item = first ↦ hfirst (e ▸ hitem)
    rw [List.eraseDups_cons, hothers, ih hrest]

/-! ## Cells -/

theorem Instant.InRange.fitsInt64_toMillis {t : Instant} (h : t.InRange) :
    fitsInt64 t.toMillis = true := by
  obtain ⟨hfirst, hlast, hnanos⟩ := h
  simp only [firstSecond, lastSecond, nanosPerSecond] at hfirst hlast hnanos
  simp only [fitsInt64_iff, toMillis, int64Min, int64Max]
  omega

namespace Cell

/-- An integer has 64 bits with a sign, and an instant is one of the calendar. -/
def Held : Cell → Prop
  | .int n => fitsInt64 n = true
  | .instant t => t.InRange
  | .absent | .bool _ | .float _ | .text _ => True

instance (c : Cell) : Decidable c.Held :=
  match c with
  | .int n => inferInstanceAs (Decidable (fitsInt64 n = true))
  | .instant t => inferInstanceAs (Decidable t.InRange)
  | .absent | .bool _ | .float _ | .text _ => .isTrue trivial

/-- What comes back of a cell: the milliseconds of an instant, nothing of a double that is not
finite, and everything of the others. -/
def rendered : Cell → Cell
  | .instant t => .int t.toMillis
  | .float x => if x.isFinite then .float x else .absent
  | c => c

variable {c : Cell}

/-- **A cell through JSON.** -/
theorem ofJson_toJson (h : c.Held) : ofJson c.toJson = c.rendered := by
  have hint {n : Int} (hn : fitsInt64 n = true) : ofJson (.int n) = .int n := by
    have hfits : (Json.num (.int n)).asInt64? = some n := if_pos hn
    rw [Json.int, ofJson, hfits]
  cases c with
  | absent | bool | text => rfl
  | int n => exact hint h
  | float x =>
    rw [toJson, Json.ofFloat, rendered]
    split <;> rfl
  | instant t => exact hint (Instant.InRange.fitsInt64_toMillis h)

theorem held_rendered (h : c.Held) : c.rendered.Held := by
  cases c with
  | absent | bool | text => trivial
  | int n => exact h
  | float x =>
    rw [rendered]
    split <;> trivial
  | instant t => exact Instant.InRange.fitsInt64_toMillis h

/-- What has come back stays as it is. -/
theorem rendered_rendered (c : Cell) : c.rendered.rendered = c.rendered := by
  cases c with
  | float x =>
    by_cases hx : x.isFinite <;> simp [rendered, hx]
  | absent | bool | int | text | instant => rfl

end Cell

/-! ## Columns -/

/-- What comes back of a column, under its label. -/
def Column.rendered (c : Column) : Column := ⟨.plain c.name.label, c.cells.map Cell.rendered⟩

theorem Column.rendered_rendered (c : Column) : c.rendered.rendered = c.rendered := by
  have hcells : (c.cells.map Cell.rendered).map Cell.rendered = c.cells.map Cell.rendered := by
    rw [List.map_map]
    exact List.map_congr_left fun cell _ ↦ cell.rendered_rendered
  rw [rendered, rendered, ColumnName.label_plain, hcells]

/-! ## Tables -/

namespace Table

variable {t : Table}

/-- Every cell is one that a table holds. -/
def Held (t : Table) : Prop := ∀ c ∈ t.columns, ∀ cell ∈ c.cells, cell.Held

instance (t : Table) : Decidable t.Held :=
  inferInstanceAs (Decidable (∀ c ∈ t.columns, ∀ cell ∈ c.cells, cell.Held))

/-- What comes back of a table: the same rows in columns of the same order. -/
def rendered (t : Table) : Table := ⟨t.columns.map Column.rendered⟩

theorem rowCount_rendered (t : Table) : t.rendered.rowCount = t.rowCount := by
  obtain ⟨columns⟩ := t
  cases columns with
  | nil => rfl
  | cons c rest => exact List.length_map _

theorem labels_rendered (t : Table) : t.rendered.labels = t.labels := by
  rw [labels, rendered, List.map_map]
  rfl

theorem Rectangular.rendered (ht : t.Rectangular) : t.rendered.Rectangular := by
  refine List.forall_mem_map.2 fun c hc ↦ ?_
  rw [rowCount_rendered]
  exact (List.length_map _).trans (ht c hc)

theorem Held.rendered (h : t.Held) : t.rendered.Held :=
  List.forall_mem_map.2 fun c hc ↦ List.forall_mem_map.2 fun cell hcell ↦
    Cell.held_rendered (h c hc cell hcell)

theorem rendered_rendered (t : Table) : t.rendered.rendered = t.rendered := by
  have hcolumns :
      (t.columns.map Column.rendered).map Column.rendered = t.columns.map Column.rendered := by
    rw [List.map_map]
    exact List.map_congr_left fun c _ ↦ c.rendered_rendered
  rw [Table.rendered, Table.rendered, hcolumns]

/-! ## Records of a table -/

/-- **The keys of the records are the labels** of the columns, in their order. -/
theorem recordKeys_toRecords (hlabels : t.labels.Nodup) (hrows : 0 < t.rowCount) :
    recordKeys t.toRecords = t.labels := by
  have hkeys (row : Nat) : Dict.keys (t.recordAt row) = t.labels := by
    rw [recordAt_eq hlabels, keys_entries]
  -- the first record brings all labels, and no later one brings another
  obtain ⟨first, later, hrange⟩ := List.exists_cons_of_ne_nil
    (List.ne_nil_of_length_pos (l := List.range t.rowCount) (by simpa using hrows))
  have hlater : ((later.map t.recordAt).flatMap Dict.keys).removeAll t.labels = [] := by
    rw [List.removeAll, List.filter_eq_nil_iff]
    intro key hkey
    obtain ⟨_, hrecord, hkey⟩ := List.mem_flatMap.1 hkey
    obtain ⟨row, -, rfl⟩ := List.mem_map.1 hrecord
    rw [hkeys] at hkey
    simpa using hkey
  rw [recordKeys_eq, toRecords, hrange, List.map_cons, List.flatMap_cons, hkeys,
    List.eraseDups_append, hlater, eraseDups_of_nodup hlabels]
  exact List.append_nil _

/-- The records hold a column under its label. -/
theorem map_toRecords (ht : t.Rectangular) (hlabels : t.labels.Nodup) (hheld : t.Held) {c : Column}
    (hc : c ∈ t.columns) :
    (t.toRecords.map fun r ↦ ((Dict.get? r c.name.label).map Cell.ofJson).getD .absent) =
      c.cells.map Cell.rendered := by
  have hentry {row : Nat} (hrow : row < t.rowCount) :
      ((Dict.get? (t.recordAt row) c.name.label).map Cell.ofJson).getD .absent =
        (c.cellAt row).rendered := by
    have hmem : (c.name.label, (c.cellAt row).toJson) ∈
        t.columns.map fun c ↦ (c.name.label, (c.cellAt row).toJson) := List.mem_map_of_mem hc
    have hlt : row < c.cells.length := by rwa [ht c hc]
    have hcell : c.cellAt row ∈ c.cells := by
      rw [Column.cellAt, List.getD_eq_getElem _ _ hlt]
      exact List.getElem_mem hlt
    rw [recordAt_eq hlabels, Dict.get?_of_mem (by rwa [keys_entries]) hmem, Option.map_some,
      Option.getD_some, Cell.ofJson_toJson (hheld c hc _ hcell)]
  have hcells : c.cells = (List.range t.rowCount).map c.cellAt := by
    rw [Column.map_cellAt_range (ht c hc).ge, ← ht c hc, List.take_length]
  rw [hcells, toRecords, List.map_map, List.map_map]
  exact List.map_congr_left fun row hrow ↦ hentry (List.mem_range.1 hrow)

/-- **What comes back of a table.** -/
theorem ofRecords_toRecords_eq (ht : t.Rectangular) (hlabels : t.labels.Nodup)
    (hrows : 0 < t.rowCount) (hheld : t.Held) : ofRecords t.toRecords = t.rendered := by
  rw [ofRecords, recordKeys_toRecords hlabels hrows, labels, List.map_map, rendered]
  exact congrArg Table.mk (List.map_congr_left fun c hc ↦
    congrArg (Column.mk (.plain c.name.label)) (map_toRecords ht hlabels hheld hc))

/-- **A table comes back from its records** with the same rows and columns, each under its label,
and every cell as it was, instants and doubles that are not finite apart.  The second time there
is nothing left to change. -/
theorem ofRecords_toRecords (ht : t.Rectangular) (hlabels : t.labels.Nodup)
    (hrows : 0 < t.rowCount) (hheld : t.Held) :
    ofRecords t.toRecords = t.rendered ∧
      ofRecords (ofRecords t.toRecords).toRecords = ofRecords t.toRecords := by
  have honce := ofRecords_toRecords_eq ht hlabels hrows hheld
  have htwice : ofRecords t.rendered.toRecords = t.rendered.rendered :=
    ofRecords_toRecords_eq ht.rendered (by rwa [labels_rendered]) (by rwa [rowCount_rendered])
      hheld.rendered
  refine ⟨honce, ?_⟩
  rw [honce, htwice, rendered_rendered]

/-- Readings with a cell of each kind, under names in one part, in several and in none. -/
def readings : Table := ⟨[
  ⟨.plain "at", [.instant ⟨1483228799, 1500000000⟩, .instant ⟨-1, 999999999⟩, .absent]⟩,
  ⟨⟨["level", "north"]⟩, [.float (-0.0), .float (1.0 / 0.0), .float (0.0 / 0.0)]⟩,
  ⟨⟨[]⟩, [.int 9223372036854775807, .bool true, .text "\"a\""]⟩]⟩

theorem readings_ofRecords_toRecords :
    (readings.Rectangular ∧ readings.labels.Nodup ∧ 0 < readings.rowCount ∧ readings.Held) ∧
      ofRecords readings.toRecords = ⟨[
        ⟨.plain "at", [.int 1483228800500, .int (-1), .absent]⟩,
        ⟨.plain "level, north", [.float (-0.0), .absent, .absent]⟩,
        ⟨.plain "", [.int 9223372036854775807, .bool true, .text "\"a\""]⟩]⟩ ∧
      ofRecords (ofRecords readings.toRecords).toRecords = ofRecords readings.toRecords := by
  have ht : readings.Rectangular := by decide
  have hlabels : readings.labels.Nodup := by decide
  have hrows : 0 < readings.rowCount := by decide
  have hheld : readings.Held := by decide
  obtain ⟨honce, htwice⟩ := ofRecords_toRecords ht hlabels hrows hheld
  refine ⟨⟨ht, hlabels, hrows, hheld⟩, honce.trans ?_, htwice⟩
  decide +kernel

end Table

end ChartFeed
