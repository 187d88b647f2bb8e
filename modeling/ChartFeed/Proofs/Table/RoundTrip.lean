import ChartFeed.Proofs.Json.Restoring
import ChartFeed.Proofs.Json.RoundTrip
import ChartFeed.Proofs.Time.RoundTrip
import ChartFeed.Proofs.Transform.Finite
import ChartFeed.Table.Stored

/-!
# Stored tables are read back

The stored form of a table keeps the kinds of cells apart, so it is read as the table that was
stored.  But JSON has no number for an infinity or for what is no number: a double that is not
finite is stored as null, and null is no double.

## What is here

* `Cell.Storable` — what the text of a cell takes for granted: an integer of 64 bits, an instant in
  range, and of a finite double that its own text is read as this double;
* `Cell.ofStored_toStored`, `Column.ofStored_toStored`, `Table.ofStored_toStored` — what is finite
  is read back from its stored form, and `Cell.finite_of_ofStored`, … — nothing else is read at
  all;
* `Table.readable_toStored` — the stored form of a table is printed and read without loss;
* `Table.ofStoredText_text` — so the text of a table is read as the table exactly when its doubles
  are finite, and is refused otherwise.
-/

set_option autoImplicit false

namespace ChartFeed

open Dict (keys)
open Json (Readable)

/-! ## Cells -/

namespace Cell

/-- A cell that a table can hold, with a text for its double that is read as this double. -/
def Storable : Cell → Prop
  | .int n => fitsInt64 n = true
  | .float x => x.isFinite = true → (Number.float x).ReadsBack
  | .instant t => t.InRange
  | .absent | .bool _ | .text _ => True

instance (c : Cell) : Decidable c.Storable :=
  match c with
  | .int n => inferInstanceAs (Decidable (fitsInt64 n = true))
  | .float x => inferInstanceAs (Decidable (x.isFinite = true → (Number.float x).ReadsBack))
  | .instant t => inferInstanceAs (Decidable t.InRange)
  | .absent | .bool _ | .text _ => .isTrue trivial

variable {c : Cell}

theorem readable_tagged {kind : String} {content : Json} (h : Readable 0 content) :
    Readable 1 (tagged kind content) :=
  .obj (List.forall_mem_singleton.2 h)

theorem readable_toStored (h : c.Storable) : Readable 1 c.toStored := by
  cases c with
  | absent => exact .str 1 _
  | bool b => exact readable_tagged (.bool 0 b)
  | int n =>
    have hfits : int64Min ≤ n ∧ n ≤ int64Max := by simpa [Storable, fitsInt64] using h
    have hmax : int64Max ≤ (uint64Max : Int) := by decide
    exact readable_tagged (.num 0 (Number.readsBack_int ⟨hfits.1, hfits.2.trans hmax⟩))
  | float x =>
    refine readable_tagged ?_
    rw [Json.ofFloat]
    split
    · next hx => exact .num 0 (h hx)
    · exact .null 0
  | text s => exact readable_tagged (.str 0 s)
  | instant t => exact readable_tagged (.str 0 _)

/-- **What is finite is read back.** -/
theorem ofStored_toStored (h : c.Storable) (hfinite : c.Finite) : ofStored c.toStored = .ok c := by
  cases c with
  | absent | bool | text => rfl
  | int n =>
    have hread : Shape.signed (.int n) = .ok n := if_pos h
    show (Shape.signed (.int n)).map Cell.int = _
    rw [hread]
    rfl
  | float x =>
    have hnumber : Json.ofFloat x = .num (.float x) := if_pos hfinite
    show (Shape.float (Json.ofFloat x)).map Cell.float = _
    rw [hnumber]
    rfl
  | instant t =>
    have hread : Iso.relaxed (t.isoText "Z").toList = some t := Iso.relaxed_isoText h
    rw [toStored, tagged, ofStored, ofTagged, Shape.text]
    simp only [bind, Except.bind, hread]
    rfl

/-- What is read was finite. -/
theorem finite_of_ofStored {d : Cell} (h : ofStored c.toStored = .ok d) : c.Finite := by
  cases c with
  | float x =>
    by_contra hx
    have hnull : Json.ofFloat x = .null := if_neg hx
    rw [toStored, hnull] at h
    cases h
  | absent | bool | int | text | instant => trivial

end Cell

/-! ## Columns -/

namespace Column

variable {c : Column}

/-- A stored column is read when its cells are. -/
theorem ofStored_of_items {cells : List Cell}
    (h : Shape.items Cell.ofStored (.arr (c.cells.map Cell.toStored)) = .ok cells) :
    ofStored c.toStored = .ok ⟨c.name, cells⟩ := by
  have hname : Shape.items Shape.text (.arr (c.name.parts.map .str)) = .ok c.name.parts :=
    Shape.items_map_iff.2 fun _ _ ↦ rfl
  have hentries : storedRecord.entries c.toStored = .ok
      [("name", .arr (c.name.parts.map .str)), ("values", .arr (c.cells.map Cell.toStored))] := by
    refine Record.entries_eq_ok rfl (by simp [keys]) ?_ rfl
    refine List.forall_mem_cons.2 ⟨fun f hf ↦ ?_, List.forall_mem_singleton.2 fun f hf ↦ ?_⟩
    · cases hf
      exact Field.check_of hname ..
    · cases hf
      exact Field.check_of h ..
  rw [ofStored, hentries]
  show (do
    let parts ← Shape.items Shape.text (.arr (c.name.parts.map .str))
    let cells ← Shape.items Cell.ofStored (.arr (c.cells.map Cell.toStored))
    return (⟨⟨parts⟩, cells⟩ : Column)) = _
  rw [hname, h]
  rfl

theorem ofStored_toStored (h : ∀ cell ∈ c.cells, cell.Storable) (hfinite : c.Finite) :
    ofStored c.toStored = .ok c :=
  ofStored_of_items (Shape.items_map_iff.2 fun cell hcell ↦
    Cell.ofStored_toStored (h cell hcell) (hfinite cell hcell))

theorem finite_of_ofStored {d : Column} (h : ofStored c.toStored = .ok d) : c.Finite := by
  simp only [ofStored, bind_eq_ok] at h
  obtain ⟨e, he, _, -, cells, hcells, -⟩ := h
  rw [Record.entries_obj he] at hcells
  replace hcells : Shape.items Cell.ofStored (.arr (c.cells.map Cell.toStored)) =
    .ok cells := hcells
  intro cell hcell
  obtain ⟨read, hread⟩ := Shape.exists_of_items_map hcells cell hcell
  exact Cell.finite_of_ofStored hread

theorem readable_toStored (h : ∀ cell ∈ c.cells, cell.Storable) : Readable 3 c.toStored := by
  have hname : Readable 2 (.arr (c.name.parts.map .str)) := by
    refine .arr (List.forall_mem_map.2 fun part _ ↦ .str 1 part)
  have hcells : Readable 2 (.arr (c.cells.map Cell.toStored)) :=
    .arr (List.forall_mem_map.2 fun cell hcell ↦ Cell.readable_toStored (h cell hcell))
  exact .obj (List.forall_mem_cons.2 ⟨hname, List.forall_mem_singleton.2 hcells⟩)

end Column

/-! ## Tables -/

namespace Table

variable {t : Table}

/-- Every cell of the table is one that a table can hold, with a text that is read back. -/
def Storable (t : Table) : Prop := ∀ c ∈ t.columns, ∀ cell ∈ c.cells, cell.Storable

instance (t : Table) : Decidable t.Storable :=
  inferInstanceAs (Decidable (∀ c ∈ t.columns, ∀ cell ∈ c.cells, cell.Storable))

theorem ofStored_toStored (h : t.Storable) (hfinite : t.Finite) : ofStored t.toStored = .ok t := by
  have hcolumns : Shape.items Column.ofStored (.arr (t.columns.map Column.toStored)) =
      .ok t.columns :=
    Shape.items_map_iff.2 fun c hc ↦ Column.ofStored_toStored (h c hc) (hfinite c hc)
  have hentries : storedRecord.entries t.toStored = .ok
      [("columns", .arr (t.columns.map Column.toStored))] := by
    refine Record.entries_eq_ok rfl (by simp [keys]) ?_ rfl
    refine List.forall_mem_singleton.2 fun f hf ↦ ?_
    cases hf
    exact Field.check_of hcolumns ..
  rw [ofStored, hentries]
  show (do
    let columns ← Shape.items Column.ofStored (.arr (t.columns.map Column.toStored))
    return (⟨columns⟩ : Table)) = _
  rw [hcolumns]
  rfl

theorem finite_of_ofStored {u : Table} (h : ofStored t.toStored = .ok u) : t.Finite := by
  simp only [ofStored, bind_eq_ok] at h
  obtain ⟨e, he, columns, hcolumns, -⟩ := h
  rw [Record.entries_obj he] at hcolumns
  replace hcolumns : Shape.items Column.ofStored (.arr (t.columns.map Column.toStored)) =
    .ok columns := hcolumns
  intro c hc
  obtain ⟨read, hread⟩ := Shape.exists_of_items_map hcolumns c hc
  exact Column.finite_of_ofStored hread

theorem readable_toStored (h : t.Storable) : Readable 5 t.toStored := by
  have hcolumns : Readable 4 (.arr (t.columns.map Column.toStored)) :=
    .arr (List.forall_mem_map.2 fun c hc ↦ Column.readable_toStored (h c hc))
  exact .obj (List.forall_mem_singleton.2 hcolumns)

/-- **The text of a table is read as the table when its doubles are finite**, and is refused when
one of them is not. -/
theorem ofStoredText_text (t : Table) (h : t.Storable) :
    ofStoredText t.toStored.text = if t.Finite then some t else none := by
  rw [ofStoredText, Json.read_text (readable_toStored h) (by decide)]
  show (ofStored t.toStored).toOption = _
  by_cases hfinite : t.Finite
  · rw [if_pos hfinite, ofStored_toStored h hfinite]
    rfl
  · rw [if_neg hfinite]
    cases hread : ofStored t.toStored with
    | ok u => exact absurd (finite_of_ofStored hread) hfinite
    | error m => rfl

/-! ## Examples -/

/-- A table with a cell of each kind, and a column of a pivot. -/
def mixed : Table := ⟨[
  ⟨.plain "day", [.instant ⟨1483228799, 1500000000⟩, .instant ⟨-8334601228800, 0⟩]⟩,
  ⟨⟨["sales", "\"north\"\n"]⟩, [.float 0.5, .float (-1.5e300)]⟩,
  ⟨.plain "", [.int (-9223372036854775808), .absent]⟩,
  ⟨⟨[]⟩, [.bool true, .text "tab\t\\"]⟩]⟩

theorem mixed_ofStoredText_text : mixed.Rectangular ∧ mixed.Storable ∧ mixed.Finite ∧
    ofStoredText mixed.toStored.text = some mixed := by
  have hrect : mixed.Rectangular := by decide
  have h : mixed.Storable := by decide +kernel
  have hfinite : mixed.Finite := by decide +kernel
  exact ⟨hrect, h, hfinite, (ofStoredText_text mixed h).trans (if_pos hfinite)⟩

/-- A table with an infinity. -/
def endless : Table := ⟨[⟨.plain "x", [.float (1.0 / 0.0)]⟩]⟩

/-- **An infinity is stored as null** and cannot be read back, nor can any of its table. -/
theorem endless_lost : endless.Rectangular ∧ endless.Storable ∧
    endless.toStored.text =
      "\x7b\"columns\":[\x7b\"name\":[\"x\"],\"values\":[\x7b\"Float\":null\x7d]\x7d]\x7d" ∧
    ofStoredText endless.toStored.text = none := by
  decide +kernel

end Table

end ChartFeed
