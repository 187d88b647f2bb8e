import ChartFeed.Proofs.Table.Transitivity
import ChartFeed.Proofs.Transform.Assignments

/-!
# Contributions of all columns that hold numbers

A contribution that names no columns takes the ones that hold numbers.  It chooses columns, but
then it looks up their numbers by name and stores the shares by name, and a name stands for the
first column that has it.  Where several columns have one name, the first may be one that was not
chosen.

* `Contribution.apply_unnamed` — a contribution without named columns always succeeds;
* `Contribution.getElem?_result_of_chosen`, `Contribution.getElem?_result_of_not_chosen` — what it
  makes of the column at a position;
* `Contribution.sharesUnder_eq_iff` — a column without numbers has only absent shares;
* `Table.Overwritten` — a column that was not chosen stands for one that was, and has cells to lose;
* `Step.bystanders_kept_iff` — these and no others are the columns that change without having been
  chosen; `Step.labels_overwritten` is about a column of texts that is lost.
-/

set_option autoImplicit false

namespace ChartFeed

/-- A column that does not take part when none are named: its name has several parts, it is the time
axis, or it does not hold numbers. -/
def Column.IsBystander (c : Column) : Prop :=
  c.name.parts.length ≠ 1 ∨ c.name = .plain timeAxis ∨ c.isNumeric = false

instance (c : Column) : Decidable c.IsBystander := inferInstanceAs (Decidable (_ ∨ _ ∨ _))

theorem Column.isNumeric_iff {c : Column} : c.isNumeric = true ↔
    (∃ cell ∈ c.cells, cell.isAbsent = false) ∧
      ∀ cell ∈ c.cells, cell.isAbsent = false → cell.isNumeric = true := by
  have himp (cell : Cell) : cell.isAbsent = true ∨ cell.isNumeric = true ↔
      cell.isAbsent = false → cell.isNumeric = true := by
    cases cell.isAbsent <;> simp
  simp [isNumeric, himp]

theorem ColumnName.plain_display {name : ColumnName} (h : name.parts.length = 1) :
    plain name.display = name := by
  obtain ⟨parts⟩ := name
  obtain ⟨only, rfl⟩ := List.length_eq_one_iff.1 h
  rfl

namespace Table

variable {t : Table} {name : String} {i : Nat}

/-- The position of a name is that of the first column with it. -/
theorem index?_eq_some_iff : t.index? name = some i ↔
    t.columnNames[i]? = some (.plain name) ∧ ∀ j < i, t.columnNames[j]? ≠ some (.plain name) := by
  rw [index?_eq, List.findIdx?_eq_some_iff_getElem]
  simp only [ColumnName.isPlain_iff, List.getElem?_eq_some_iff, Ne]
  constructor
  · rintro ⟨hi, hname, hfirst⟩
    exact ⟨⟨hi, hname⟩, fun j hj ⟨_, h⟩ ↦ hfirst j hj h⟩
  · rintro ⟨⟨hi, hname⟩, hfirst⟩
    exact ⟨hi, hname, fun j hj h ↦ hfirst j hj ⟨Nat.lt_trans hj hi, h⟩⟩

theorem name_eq_of_index? {c : Column} (h : t.index? name = some i)
    (hc : t.columns[i]? = some c) : c.name = .plain name := by
  have hname := (index?_eq_some_iff.1 h).1
  rw [columnNames, List.getElem?_map, hc] at hname
  exact Option.some.inj hname

theorem source_eq_of_index? {c : Column} (h : t.index? name = some i)
    (hc : t.columns[i]? = some c) : t.source name = c := by
  rw [source, ← getElem?_of_index? h, hc]
  rfl

/-- Where the name says what the cells are, every entry is as good as the last. -/
theorem lastEntry_map {names : List String} {cellsOf : String → List Cell} (h : name ∈ names) :
    LastEntry (names.map fun n ↦ (n, cellsOf n)) name (cellsOf name) := by
  obtain ⟨later, earlier, hsplit, hlater⟩ := List.eq_append_cons_of_mem (List.mem_reverse.2 h)
  have hnames : names = earlier.reverse ++ name :: later.reverse := by
    rw [← List.reverse_reverse names, hsplit]
    simp
  refine ⟨earlier.reverse.map fun n ↦ (n, cellsOf n), later.reverse.map fun n ↦ (n, cellsOf n),
    ?_, ?_⟩
  · rw [hnames, List.map_append, List.map_cons]
  · rw [List.map_map]
    simpa using hlater

/-- A column stands for another one that takes part, as the first of its name, and has cells that
are not absent. -/
structure Overwritten (t : Table) (i : Nat) (c : Column) : Prop where
  namesake : ∃ d ∈ t.columns, d.name = c.name ∧ Contribution.takesPart d = true
  first : ∀ j < i, t.columnNames[j]? ≠ some c.name
  loses : ∃ cell ∈ c.cells, cell ≠ .absent

end Table

namespace Contribution

/-- The contribution that names no columns. -/
def unnamed (o : Orientation) : Contribution := ⟨o, none⟩

/-- It is what options without columns ask for. -/
theorem ofOptions_unnamed (o : Orientation) : ofOptions ⟨o, none, none⟩ = .ok (unnamed o) := rfl

variable {o : Orientation} {t : Table} {c : Column} {name : String} {i : Nat}

/-- The names of the columns that are chosen. -/
def chosenNames (t : Table) : List String :=
  (t.columns.filter takesPart).map fun c ↦ c.name.display

theorem takesPart_eq_false_iff : takesPart c = false ↔ c.IsBystander := by
  rw [takesPart, Column.IsBystander, Bool.and_eq_false_iff, Bool.and_eq_false_iff, or_assoc,
    beq_eq_false_iff_ne, Bool.not_eq_false', ColumnName.isPlain_iff]

/-- Of two columns with one name the other takes part only if this one holds no numbers. -/
theorem isNumeric_of_namesake {d : Column} (hc : c.IsBystander) (hd : takesPart d = true)
    (hname : d.name = c.name) : c.isNumeric = false := by
  by_contra hnumeric
  rw [← takesPart_eq_false_iff, takesPart, ← hname] at hc
  rw [takesPart, Bool.and_eq_true] at hd
  rw [hd.1, Bool.true_and] at hc
  exact hnumeric hc

theorem length_parts_of_takesPart (h : takesPart c = true) : c.name.parts.length = 1 := by
  rw [takesPart, Bool.and_eq_true, Bool.and_eq_true, beq_iff_eq] at h
  exact h.1.1

/-! ## Shares under a name -/

/-- What is stored under a name: the shares of the numbers of the first column with that name. -/
def sharesUnder (o : Orientation) (t : Table) (name : String) : List Cell :=
  match o with
  | .column => columnShares (t.source name).numbers
  | .row =>
    rowShares ((List.range t.rowCount).map (rowTotal ((unnamed o).series t)))
      (t.source name).numbers

theorem targetNames_unnamed (o : Orientation) (t : Table) :
    (unnamed o).targetNames t = (chosenNames t).map fun name ↦ (name, name) := by
  rw [chosenNames, List.map_map]
  rfl

theorem shares_unnamed (o : Orientation) (t : Table) :
    shares o t.rowCount ((unnamed o).series t) = (chosenNames t).map (sharesUnder o t) := by
  have hseries {α : Type} (f : List (Option Float) → α) : ((unnamed o).series t).map f =
      (chosenNames t).map fun name ↦ f (t.source name).numbers := by
    rw [series, targetNames_unnamed, List.map_map, List.map_map]
    rfl
  cases o with
  | column => exact hseries columnShares
  | row => exact hseries (rowShares _)

/-- Nothing but these is stored. -/
theorem result_unnamed (o : Orientation) (t : Table) : (unnamed o).result t =
    t.upsertAll ((chosenNames t).map fun name ↦ (name, sharesUnder o t name)) := by
  have hnames : ((unnamed o).targetNames t).map Prod.snd = chosenNames t := by
    rw [targetNames_unnamed, List.map_map]
    exact List.map_id _
  rw [result, hnames, List.map_prod_left_eq_zip]
  exact congrArg (fun cells ↦ t.upsertAll ((chosenNames t).zip cells)) (shares_unnamed o t)

/-- **A contribution without named columns succeeds** on every table. -/
theorem apply_unnamed (o : Orientation) (t : Table) :
    (unnamed o).apply t = .ok ((unnamed o).result t) := by
  rw [apply_eq]
  rfl

/-- A chosen name is that of a column. -/
theorem missing_chosenNames (t : Table) : t.missing (chosenNames t) = [] := by
  refine Table.missing_eq_nil_iff.2 fun name hname ↦ ?_
  obtain ⟨d, hd, rfl⟩ := List.mem_map.1 hname
  obtain ⟨hmem, htakes⟩ := List.mem_filter.1 hd
  exact column?_display hmem htakes

theorem columnNames_result_unnamed (o : Orientation) (t : Table) :
    ((unnamed o).result t).columnNames = t.columnNames := by
  rw [result_unnamed, Table.columnNames_upsertAll, List.map_map]
  have hmap : (chosenNames t).map (Prod.fst ∘ fun name ↦ (name, sharesUnder o t name)) =
      chosenNames t := List.map_id _
  rw [hmap, missing_chosenNames]
  exact List.append_nil _

/-- The first column with the name of one that was chosen gets the shares. -/
theorem getElem?_result_of_chosen (o : Orientation) (hname : name ∈ chosenNames t)
    (hi : t.index? name = some i) :
    ((unnamed o).result t).columns[i]? = some ⟨.plain name, sharesUnder o t name⟩ := by
  rw [result_unnamed]
  exact (t.assigns_upsertAll _).replaced name _ (Table.lastEntry_map hname) i hi

/-- Every other column stays. -/
theorem getElem?_result_of_not_chosen (o : Orientation) (hi : i < t.columns.length)
    (h : ∀ name ∈ chosenNames t, t.index? name ≠ some i) :
    ((unnamed o).result t).columns[i]? = t.columns[i]? := by
  rw [result_unnamed]
  refine (t.assigns_upsertAll _).kept i hi ?_
  rw [List.map_map]
  exact List.forall_mem_map.2 h

/-! ## What shares are -/

theorem share_none (total : Float) : share total none = .absent := by
  rw [share]
  split <;> rfl

theorem share_eq_absent_or_isNumber (total : Float) (value : Option Float) :
    share total value = .absent ∨ (share total value).IsNumber := by
  rw [share]
  split
  · exact .inl rfl
  · cases value with
    | none => exact .inl rfl
    | some x =>
      rw [Option.map_some, Cell.ofFloat?]
      split
      · next hfinite => exact .inr ⟨rfl, Cell.isAbsent_float_of_isFinite hfinite⟩
      · exact .inl rfl

theorem exists_share_of_mem {cell : Cell} (h : cell ∈ sharesUnder o t name) :
    ∃ total, ∃ value ∈ (t.source name).numbers, share total value = cell := by
  cases o with
  | column =>
    obtain ⟨value, hvalue, rfl⟩ := List.mem_map.1 h
    exact ⟨_, value, hvalue, rfl⟩
  | row =>
    obtain ⟨⟨value, total⟩, hmem, rfl⟩ := List.mem_map.1 h
    exact ⟨total, value, (List.of_mem_zip hmem).1, rfl⟩

theorem length_sharesUnder (ht : t.Rectangular) (hname : name ∈ chosenNames t) :
    (sharesUnder o t name).length = t.rowCount := by
  have hcolumns : t.HasColumns (unnamed o).named := fun _ h ↦ nomatch h
  have hmem : sharesUnder o t name ∈ shares o t.rowCount ((unnamed o).series t) := by
    rw [shares_unnamed]
    exact List.mem_map_of_mem hname
  exact length_of_mem_shares (length_of_mem_series ht hcolumns) hmem

/-- **A column that holds no numbers is like its own shares** only if it has no cells to lose. -/
theorem sharesUnder_eq_iff (ht : t.Rectangular) (hname : name ∈ chosenNames t)
    (hnumeric : (t.source name).isNumeric = false) :
    sharesUnder o t name = (t.source name).cells ↔
      ∀ cell ∈ (t.source name).cells, cell = .absent := by
  have hcolumns : t.HasColumns (chosenNames t) := Table.missing_eq_nil_iff.1 (missing_chosenNames t)
  have hlength : (t.source name).cells.length = t.rowCount := ht.length_source hcolumns hname
  constructor
  · intro heq cell hcell
    by_contra hne
    -- then some share is a number, and all that are present are
    refine Bool.false_ne_true (hnumeric.symm.trans (Column.isNumeric_iff.2 ?_))
    have hnumber (other : Cell) (hother : other ∈ (t.source name).cells) :
        other = .absent ∨ other.IsNumber := by
      rw [← heq] at hother
      obtain ⟨total, value, -, rfl⟩ := exists_share_of_mem hother
      exact share_eq_absent_or_isNumber total value
    refine ⟨⟨cell, hcell, ((hnumber cell hcell).resolve_left hne).2⟩,
      fun other hother hpresent ↦ ?_⟩
    rcases hnumber other hother with rfl | h
    · cases hpresent
    · exact h.1
  · intro hall
    have hshares : ∀ cell ∈ sharesUnder o t name, cell = .absent := by
      intro cell hcell
      obtain ⟨total, value, hvalue, rfl⟩ := exists_share_of_mem hcell
      obtain ⟨source, hsource, rfl⟩ := List.mem_map.1 hvalue
      rw [hall source hsource]
      exact share_none total
    rw [List.eq_replicate_of_mem hshares, List.eq_replicate_of_mem hall, hlength,
      length_sharesUnder ht hname]

/-! ## The columns that change -/

variable {i : Nat}

/-- The column of a chosen name is the first of its name, and shares it with one that takes part. -/
theorem exists_index?_iff (hc : t.columns[i]? = some c) :
    (∃ name ∈ chosenNames t, t.index? name = some i) ↔
      (∃ d ∈ t.columns, d.name = c.name ∧ takesPart d = true) ∧
        ∀ j < i, t.columnNames[j]? ≠ some c.name := by
  constructor
  · rintro ⟨name, hname, hindex⟩
    obtain ⟨d, hd, rfl⟩ := List.mem_map.1 hname
    obtain ⟨hmem, htakes⟩ := List.mem_filter.1 hd
    have hcname := Table.name_eq_of_index? hindex hc
    refine ⟨⟨d, hmem, ?_, htakes⟩, ?_⟩
    · rw [hcname, ColumnName.plain_display (length_parts_of_takesPart htakes)]
    · rw [hcname]
      exact (Table.index?_eq_some_iff.1 hindex).2
  · rintro ⟨⟨d, hmem, hdname, htakes⟩, hfirst⟩
    refine ⟨d.name.display, List.mem_map_of_mem (List.mem_filter.2 ⟨hmem, htakes⟩), ?_⟩
    rw [Table.index?_eq_some_iff, ColumnName.plain_display (length_parts_of_takesPart htakes),
      hdname]
    refine ⟨?_, hfirst⟩
    rw [Table.columnNames, List.getElem?_map, hc]
    rfl

/-- Every column is kept but for those that are overwritten. -/
theorem getElem?_result_eq_iff (o : Orientation) (ht : t.Rectangular)
    (hc : t.columns[i]? = some c) (hby : c.IsBystander) :
    ((unnamed o).result t).columns[i]? = some c ↔ ¬ t.Overwritten i c := by
  by_cases hchosen : ∃ name ∈ chosenNames t, t.index? name = some i
  · obtain ⟨⟨d, hmem, hdname, htakes⟩, hfirst⟩ := (exists_index?_iff hc).1 hchosen
    obtain ⟨name, hname, hindex⟩ := hchosen
    have hsource := Table.source_eq_of_index? hindex hc
    have hnumeric : (t.source name).isNumeric = false := by
      rw [hsource]
      exact isNumeric_of_namesake hby htakes hdname
    have hkept : (⟨c.name, sharesUnder o t name⟩ : Column) = c ↔ sharesUnder o t name = c.cells :=
      ⟨congrArg Column.cells, fun h ↦ by rw [h]⟩
    rw [getElem?_result_of_chosen o hname hindex, ← Table.name_eq_of_index? hindex hc,
      Option.some_inj, hkept, ← hsource, sharesUnder_eq_iff ht hname hnumeric, hsource]
    refine ⟨fun hall hover ↦ ?_, fun hover cell hcell ↦ ?_⟩
    · obtain ⟨cell, hcell, hne⟩ := hover.loses
      exact hne (hall cell hcell)
    · by_contra hne
      exact hover ⟨⟨d, hmem, hdname, htakes⟩, hfirst, cell, hcell, hne⟩
  · have hi : i < t.columns.length := (List.getElem?_eq_some_iff.1 hc).1
    rw [getElem?_result_of_not_chosen o hi fun name hname hindex ↦ hchosen ⟨name, hname, hindex⟩,
      hc]
    exact iff_of_true rfl fun hover ↦
      hchosen ((exists_index?_iff hc).2 ⟨hover.namesake, hover.first⟩)

/-- Columns with a name of several parts and the time axis do not stand for others. -/
theorem name_of_overwritten (h : t.Overwritten i c) :
    c.name.parts.length = 1 ∧ c.name ≠ .plain timeAxis := by
  obtain ⟨⟨d, -, hname, htakes⟩, -, -⟩ := h
  rw [← hname]
  rw [takesPart, Bool.and_eq_true, Bool.and_eq_true, beq_iff_eq, Bool.not_eq_true'] at htakes
  refine ⟨htakes.1.1, fun haxis ↦ ?_⟩
  exact Bool.false_ne_true (htakes.1.2.symm.trans (ColumnName.isPlain_iff.2 haxis))

end Contribution

/-! ## Tables of records after any steps -/

namespace Step

open Contribution (unnamed)

/-- **Columns that are not chosen are kept, but for those that stand for another.**  Whatever table
any steps make of records, a contribution without named columns succeeds on it and leaves the names
of all columns as and where they are.  Columns with a name of several parts and the time axis stay
exactly.  So does a column without numbers unless it is overwritten: it is the first of a name under
which another column takes part, and has a cell that is not absent. -/
theorem bystanders_kept_iff {records : List (Dict Json)} {steps : List Step} {t : Table}
    (h : applySteps steps (.ofRecords records) = .ok t) (o : Orientation) :
    ∃ out, (unnamed o).apply t = .ok out ∧ out.columnNames = t.columnNames ∧
      ∀ i c, t.columns[i]? = some c → c.IsBystander →
        (out.columns[i]? = some c ↔ ¬ t.Overwritten i c) ∧
          (c.name.parts.length ≠ 1 ∨ c.name = .plain timeAxis → out.columns[i]? = some c) := by
  have ht : t.Rectangular := rectangular_applySteps (Table.rectangular_ofRecords records) h
  refine ⟨_, Contribution.apply_unnamed o t, Contribution.columnNames_result_unnamed o t, ?_⟩
  intro i c hc hby
  have hkept := Contribution.getElem?_result_eq_iff o ht hc hby
  refine ⟨hkept, fun hname ↦ hkept.2 fun hover ↦ ?_⟩
  obtain ⟨hparts, haxis⟩ := Contribution.name_of_overwritten hover
  exact hname.elim (absurd hparts) haxis

/-- Two records, each with a day, a text and a number. -/
def labelledDays : List (Dict Json) := [
  [("day", .str "monday"), ("label", .str "a"), ("y", .int 1)],
  [("day", .str "tuesday"), ("label", .str "b"), ("y", .int 3)]]

/-- A selection as a request writes it, of two columns under one name. -/
def selectNamesakes : Json := .obj [
  ("operation", .str "select"),
  ("options", .obj [
    ("columns", .obj [("day", .str "day"), ("label", .str "x"), ("y", .str "x")])])]

/-- The columns that are selected. -/
def namesakes : Table := ⟨[
  ⟨.plain "day", [.text "monday", .text "tuesday"]⟩,
  ⟨.plain "x", [.text "a", .text "b"]⟩,
  ⟨.plain "x", [.int 1, .int 3]⟩]⟩

theorem applySteps_selectNamesakes : ∃ steps, readAll [selectNamesakes] = .ok steps ∧
    applySteps steps (.ofRecords labelledDays) = .ok namesakes := by
  refine bind_eq_ok.1 (?_ : (readAll [selectNamesakes] >>= fun steps ↦
    applySteps steps (.ofRecords labelledDays)) = .ok namesakes)
  decide +kernel

/-- The days are kept, and the labels are not. -/
theorem namesakes_bystanders_kept :
    ∃ steps out, applySteps steps (.ofRecords labelledDays) = .ok namesakes ∧
      (unnamed .row).apply namesakes = .ok out ∧
      out.columns[0]? = some ⟨.plain "day", [.text "monday", .text "tuesday"]⟩ ∧
      out.columns[1]? ≠ some ⟨.plain "x", [.text "a", .text "b"]⟩ := by
  obtain ⟨steps, -, hsteps⟩ := applySteps_selectNamesakes
  obtain ⟨out, hout, -, hkept⟩ := bystanders_kept_iff hsteps .row
  refine ⟨steps, out, hsteps, hout, (hkept 0 _ rfl (by decide)).1.2 ?_, fun heq ↦ ?_⟩
  · rintro ⟨⟨d, hd, hname, htakes⟩, -, -⟩
    revert d
    decide
  · exact (hkept 1 _ rfl (by decide)).1.1 heq ⟨by decide, by decide, by decide⟩

/-- **Texts are lost** where their column stands for one of numbers: every label is absent after a
contribution, and the numbers are no shares. -/
theorem labels_overwritten :
    ∃ steps, readAll [selectNamesakes] = .ok steps ∧
      applySteps steps (.ofRecords labelledDays) = .ok namesakes ∧
      Column.IsBystander ⟨.plain "x", [.text "a", .text "b"]⟩ ∧
      (unnamed .column).apply namesakes = .ok ⟨[
        ⟨.plain "day", [.text "monday", .text "tuesday"]⟩,
        ⟨.plain "x", [.absent, .absent]⟩,
        ⟨.plain "x", [.int 1, .int 3]⟩]⟩ := by
  obtain ⟨steps, hread, hsteps⟩ := applySteps_selectNamesakes
  refine ⟨steps, hread, hsteps, by decide, ?_⟩
  decide +kernel

end Step

end ChartFeed
