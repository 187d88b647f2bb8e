import ChartFeed.Proofs.Decimal.Signs
import ChartFeed.Proofs.Transform.Overflow

/-!
# Differences, row by row

The row that a row is compared with is found by subtracting a distance, which may be any integer of
64 bits.  That can be before the first row or after the last one, and nothing is stored then.

* `Difference.Fits`, `Difference.fits_iff` — the places of these rows are integers of 64 bits, too,
  exactly when that of the last row is.
* `Difference.Law` — the law of differences: which numbers are subtracted in a row.
* `Difference.Turned` — a distance the other way gives the same differences in other rows, with the
  sign turned, except for two equal numbers.  Their difference is zero either way, and not minus
  zero.
* `Difference.law_of_fits` — both laws hold for the columns that are stored.
-/

set_option autoImplicit false

namespace ChartFeed

/-! ## Turning the sign -/

namespace Cell

/-- The cell with the opposite double. -/
def opposite : Cell → Cell
  | .float x => .float (-x)
  | c => c

theorem opposite_ofFloat? (x : Float) : (ofFloat? (some x)).opposite = ofFloat? (some (-x)) := by
  rw [ofFloat?, ofFloat?, Decimal.isFinite_neg]
  split <;> rfl

/-- **A difference and that of the sides changed over** are opposite, or both are zero. -/
theorem opposite_ofFloat?_sub (x y : Float) :
    ofFloat? (some (x - y)) = (ofFloat? (some (y - x))).opposite ∨
      x = y ∧ ofFloat? (some (x - y)) = .float 0.0 := by
  by_cases hne : y = x
  · subst hne
    cases hfinite : y.isFinite with
    | true =>
      rw [Decimal.sub_self_of_isFinite hfinite]
      exact .inr ⟨rfl, rfl⟩
    | false =>
      rw [ofFloat?, Decimal.isFinite_sub_self hfinite]
      exact .inl rfl
  · rw [opposite_ofFloat?, Decimal.neg_sub_of_ne hne]
    exact .inl rfl

end Cell

/-! ## Places of rows -/

namespace Difference

/-- The rows that so many rows are compared with have places of 64 bits. -/
def Fits (rows : Nat) (periods : Int) : Prop :=
  ∀ row < rows, (partner row periods).isSome = true

instance (rows : Nat) (periods : Int) : Decidable (Fits rows periods) :=
  inferInstanceAs (Decidable (∀ row < rows, _))

theorem isSome_partner_iff {row : Nat} {periods : Int} :
    (partner row periods).isSome = true ↔ fitsInt64 (row - periods) = true := by
  simp [partner]

theorem Fits.partner_eq {rows : Nat} {periods : Int} (h : Fits rows periods) {row : Nat}
    (hrow : row < rows) : partner row periods = some (row - periods) :=
  if_pos (isSome_partner_iff.1 (h row hrow))

/-- **The last row decides**: before the first row there is room for every distance. -/
theorem fits_iff {rows : Nat} {periods : Int} (hperiods : fitsInt64 periods = true) :
    Fits rows periods ↔ rows - 1 - periods ≤ int64Max := by
  have hbounds := fitsInt64_iff.1 hperiods
  simp only [int64Min, int64Max] at hbounds
  simp only [Fits, isSome_partner_iff, fitsInt64_iff, int64Min, int64Max]
  constructor
  · intro h
    cases rows with
    | zero => omega
    | succ rows =>
      have hlast := (h rows (Nat.lt_succ_self rows)).2
      omega
  · intro h row hrow
    omega

/-! ## The law -/

/-- The law of the differences of a column. -/
structure Law (periods : Int) (values : List (Option Float)) (cells : List Cell) : Prop where
  length_eq : cells.length = values.length
  /-- Two numbers have a difference, if it is finite. -/
  present : ∀ (row other : Nat) (x y : Float), (other : Int) = row - periods →
    values[row]? = some (some x) → values[other]? = some (some y) →
      cells[row]? = some (if (x - y).isFinite then .float (x - y) else .absent)
  /-- Without two numbers there is none. -/
  absent : ∀ row < values.length, (∀ (other : Nat) (x y : Float), (other : Int) = row - periods →
    values[row]? = some (some x) → values[other]? ≠ some (some y)) → cells[row]? = some .absent

/-- The differences of a column for a distance, and for the same distance the other way. -/
def Turned (periods : Int) (values : List (Option Float)) (cells turned : List Cell) : Prop :=
  ∀ row other : Nat, (other : Int) = row + periods → row < values.length → other < values.length →
    turned[row]? = cells[other]?.map Cell.opposite ∨
      ∃ x, values[row]? = some (some x) ∧ values[other]? = some (some x) ∧
        turned[row]? = some (.float 0.0) ∧ cells[other]? = some (.float 0.0)

variable {periods : Int} {values : List (Option Float)} {row other : Nat} {x y : Float}

theorem valueAt_eq_some_iff {place : Int} : valueAt values place = some x ↔
    ∃ row : Nat, (row : Int) = place ∧ values[row]? = some (some x) := by
  rw [valueAt]
  split
  · next hneg =>
    refine iff_of_false (Option.some_ne_none x).symm ?_
    rintro ⟨row, rfl, -⟩
    exact Int.not_lt.2 (Int.natCast_nonneg row) hneg
  · next hpos =>
    rw [Option.join_eq_some_iff]
    constructor
    · exact fun h ↦ ⟨place.toNat, Int.toNat_of_nonneg (Int.not_lt.1 hpos), h⟩
    · rintro ⟨row, rfl, h⟩
      exact h

theorem getElem?_of_valueAt (h : valueAt values row = some x) : values[row]? = some (some x) := by
  obtain ⟨row', hrow, hx⟩ := valueAt_eq_some_iff.1 h
  rwa [Int.ofNat.inj hrow] at hx

theorem getElem?_differences (periods : Int) (hrow : row < values.length) :
    (differences periods values)[row]? = some (differenceAt values periods row) := by
  rw [differences, List.getElem?_map, List.getElem?_range hrow, Option.map_some]

/-- The value that a row is compared with, when its place is an integer of 64 bits. -/
theorem partner_bind_valueAt (h : Fits values.length periods) (hrow : row < values.length) :
    (partner row periods).bind (valueAt values) = valueAt values (row - periods) := by
  rw [h.partner_eq hrow, Option.bind_some]

/-- **Differences follow the law.** -/
theorem law_differences (h : Fits values.length periods) :
    Law periods values (differences periods values) := by
  refine ⟨length_differences .., fun row other x y hother hx hy ↦ ?_, fun row hrow hnone ↦ ?_⟩
  · have hvalue : valueAt values row = some x := valueAt_eq_some_iff.2 ⟨row, rfl, hx⟩
    have hpartner : valueAt values (row - periods) = some y :=
      valueAt_eq_some_iff.2 ⟨other, hother, hy⟩
    obtain ⟨hrow, -⟩ := List.getElem?_eq_some_iff.1 hx
    rw [getElem?_differences periods hrow, differenceAt, partner_bind_valueAt h hrow, hvalue,
      hpartner]
    rfl
  · rw [getElem?_differences periods hrow, differenceAt, partner_bind_valueAt h hrow]
    split
    · next x y hvalue hpartner =>
      obtain ⟨other, hother, hy⟩ := valueAt_eq_some_iff.1 hpartner
      exact absurd hy (hnone other x y hother (getElem?_of_valueAt hvalue))
    · rfl

/-- **The same distance the other way** compares the same rows. -/
theorem turned_differences (h : Fits values.length periods) (h' : Fits values.length (-periods)) :
    Turned periods values (differences periods values) (differences (-periods) values) := by
  intro row other hother hrow hlt
  have hback : (row : Int) - -periods = other := by rw [hother, sub_neg_eq_add]
  have hahead : (other : Int) - periods = row := by rw [hother, add_sub_cancel_right]
  rw [getElem?_differences _ hrow, getElem?_differences _ hlt, Option.map_some, Option.some_inj,
    differenceAt, differenceAt, partner_bind_valueAt h hlt, partner_bind_valueAt h' hrow, hback,
    hahead]
  cases hx : valueAt values row with
  | none => cases valueAt values other <;> exact .inl rfl
  | some x =>
    cases hy : valueAt values other with
    | none => exact .inl rfl
    | some y =>
      refine (Cell.opposite_ofFloat?_sub x y).imp id ?_
      rintro ⟨rfl, hzero⟩
      exact ⟨x, getElem?_of_valueAt hx, getElem?_of_valueAt hy, congrArg some hzero,
        congrArg some hzero⟩

/-! ## The transform -/

/-- The same differences the other way. -/
def turned (d : Difference) : Difference := { d with periods := -d.periods }

variable {d : Difference} {t : Table}

theorem exists_apply (hcolumns : t.HasColumns d.columns.keys) :
    ∃ out, d.apply t = .ok out ∧ ∀ dest source, (dest, source) ∈ storedSources d.columns.entries →
      (out.source dest).cells = differences d.periods (t.source source).numbers := by
  obtain ⟨out, hout, hstored⟩ := Table.exists_assign hcolumns (differences d.periods)
  refine ⟨out, hout, fun dest source hdest ↦ ?_⟩
  rw [Table.source, hstored dest source hdest, Option.getD_some]

/-- **The law of differences.**  Take a distance of 64 bits.  No row is compared with one beyond the
integers of 64 bits exactly when the last row is not.  Then every column that is stored follows the
law.  If this is so for the distance the other way, too, then the rows that are compared the other
way round have opposite differences, or none, or they have the same number, and then both
differences are zero. -/
theorem law_of_fits (hperiods : fitsInt64 d.periods = true) (ht : t.Rectangular)
    (hcolumns : t.HasColumns d.columns.keys) :
    (Fits t.rowCount d.periods ↔ t.rowCount - 1 - d.periods ≤ int64Max) ∧
      (Fits t.rowCount d.periods → ∃ out, d.apply t = .ok out ∧
        (∀ dest source, (dest, source) ∈ storedSources d.columns.entries →
          (out.source dest).cells.length = t.rowCount ∧
            Law d.periods (t.source source).numbers (out.source dest).cells) ∧
        (fitsInt64 d.turned.periods = true → Fits t.rowCount d.turned.periods →
          ∃ back, d.turned.apply t = .ok back ∧
            ∀ dest source, (dest, source) ∈ storedSources d.columns.entries →
              Turned d.periods (t.source source).numbers (out.source dest).cells
                (back.source dest).cells)) := by
  have hlength {dest source : String} (hdest : (dest, source) ∈ storedSources d.columns.entries) :
      (t.source source).numbers.length = t.rowCount := by
    rw [Column.numbers, List.length_map]
    exact ht.length_source hcolumns
      (List.mem_map_of_mem (f := Prod.fst) (mem_of_mem_storedSources hdest))
  refine ⟨fits_iff hperiods, fun hfits ↦ ?_⟩
  obtain ⟨out, hout, hstored⟩ := exists_apply hcolumns
  refine ⟨out, hout, fun dest source hdest ↦ ?_, fun _ hturned ↦ ?_⟩
  · rw [hstored dest source hdest, length_differences]
    exact ⟨hlength hdest, law_differences (hlength hdest ▸ hfits)⟩
  · obtain ⟨back, hback, hstored'⟩ := exists_apply (d := d.turned) hcolumns
    refine ⟨back, hback, fun dest source hdest ↦ ?_⟩
    rw [hstored dest source hdest, hstored' dest source hdest]
    exact turned_differences (hlength hdest ▸ hfits) (hlength hdest ▸ hturned)

/-- Each level and the one before it. -/
def rise : Difference := ⟨⟨[("level", "rise")], by decide⟩, 1⟩

/-- Levels with a gap. -/
def levels : Table := ⟨[⟨.plain "level", [.int 2, .int 5, .absent, .float 5.5, .int 5]⟩]⟩

/-- A rise that is looked at from the row before is a fall. -/
theorem law_rise :
    ∃ out back, fitsInt64 rise.periods = true ∧ levels.Rectangular ∧
      levels.HasColumns rise.columns.keys ∧ Fits levels.rowCount rise.periods ∧
      rise.apply levels = .ok out ∧ rise.turned.apply levels = .ok back ∧
      (out.source "rise").cells = [.absent, .float 3.0, .absent, .absent, .float (-0.5)] ∧
      (back.source "rise").cells[0]? = some (.float (-3.0)) := by
  obtain ⟨hfits, hlaws⟩ :=
    law_of_fits (d := rise) (t := levels) (by decide) (by decide) (by decide)
  obtain ⟨out, hout, -, hturned⟩ := hlaws (hfits.2 (by decide))
  obtain ⟨back, hback, hopposite⟩ := hturned (by decide) (by decide)
  have hcells : (out.source "rise").cells =
      [.absent, .float 3.0, .absent, .absent, .float (-0.5)] := by
    have hcomputed : rise.apply levels = .ok ⟨[
        ⟨.plain "level", [.int 2, .int 5, .absent, .float 5.5, .int 5]⟩,
        ⟨.plain "rise", [.absent, .float 3.0, .absent, .absent, .float (-0.5)]⟩]⟩ := by
      decide +kernel
    rw [Except.ok.inj (hout.symm.trans hcomputed)]
    rfl
  refine ⟨out, back, by decide, by decide, by decide, hfits.2 (by decide), hout, hback, hcells, ?_⟩
  have hrows := hopposite "rise" "level" (by decide) 0 1 rfl (by decide) (by decide)
  rw [hcells] at hrows
  refine hrows.elim (fun hfall ↦ hfall.trans ?_) ?_
  · decide +kernel
  · rintro ⟨x, hx, hy, -⟩
    rw [← hy] at hx
    exact absurd hx (by decide +kernel)

/-- Levels that stay the same. -/
def stillLevels : Table := ⟨[⟨.plain "level", [.int 5, .int 5]⟩]⟩

/-- **Two ways in which differences are not what one expects.**  With nearly the least distance of
64 bits the second row is compared with one whose place is beyond them.  And levels that stay the
same rise by zero and fall by zero, which is not minus zero. -/
theorem stillLevels_rise :
    fitsInt64 (int64Min + 1) = true ∧ int64Min + 1 ≠ int64Min ∧
      ¬ Fits stillLevels.rowCount (int64Min + 1) ∧
      ∃ out back, rise.apply stillLevels = .ok out ∧ rise.turned.apply stillLevels = .ok back ∧
        (out.source "rise").cells = [.absent, .float 0.0] ∧
        (back.source "rise").cells = [.float 0.0, .absent] ∧
        Cell.opposite (.float 0.0) = .float (-0.0) ∧ Cell.float (-0.0) ≠ .float 0.0 := by
  refine ⟨by decide, by decide, by decide, _, _, rfl, rfl, ?_⟩
  decide +kernel

end Difference

end ChartFeed
