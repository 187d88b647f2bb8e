import Mathlib
import ChartFeed.Proofs.Transform.Finite
import ChartFeed.Proofs.Transform.Labels

/-!
# Records through a table

A table made of records gives records again, one for each: under every key of any of them, in the
order in which the keys first appear, with null where a record does not have the key.

* `Table.recordKeys_eq` — the columns are the keys in the order in which they first appear;
* `Cell.toJson_ofJson` — a cell keeps a scalar, unless it is an integer that does not fit 64 bits
  with a sign, `Json.stored`;
* `Table.recordAt_ofRecords` — a row holds what its record holds;
* `Table.toRecords_ofRecords` — all of this for the whole list.
-/

set_option autoImplicit false

namespace ChartFeed

/-! ## Cells -/

namespace Json

/-- Neither an array nor an object. -/
def IsScalar : Json → Prop
  | .null | .bool _ | .num _ | .str _ => True
  | .arr _ | .obj _ => False

/-- What a cell keeps of a scalar: the scalar itself, and for an integer that is too great for a
cell the nearest double. -/
def stored : Json → Json
  | .num (.int n) => if n ≤ int64Max then .num (.int n) else .num (.float (Float.ofInt n))
  | v => v

end Json

/-- **A cell keeps a scalar**, great integers apart. -/
theorem Cell.toJson_ofJson {v : Json} (hscalar : v.IsScalar) (h : v.WellFormed) :
    (ofJson v).toJson = v.stored := by
  cases v with
  | null | bool | str => rfl
  | arr | obj => exact hscalar.elim
  | num n =>
    cases n with
    | float x =>
      have hfinite : x.isFinite = true := h
      change Json.ofFloat x = _
      rw [Json.ofFloat, if_pos hfinite]
      rfl
    | int n =>
      have hrange : int64Min ≤ n ∧ n ≤ uint64Max := h
      by_cases hle : n ≤ int64Max
      · have hint : (Json.num (.int n)).asInt64? = some n :=
          if_pos (fitsInt64_iff.2 ⟨hrange.1, hle⟩)
        rw [ofJson, hint, Json.stored, if_pos hle]
        rfl
      · have hint : (Json.num (.int n)).asInt64? = none :=
          if_neg fun hfits ↦ hle (fitsInt64_iff.1 hfits).2
        have hfinite := finite_ofJson h
        rw [ofJson, hint] at hfinite
        rw [ofJson, hint, Json.stored, if_neg hle]
        exact if_pos hfinite

/-! ## Keys -/

namespace Table

variable {records : List (Dict Json)}

/-- **The keys in the order in which they first appear.** -/
theorem recordKeys_eq (records : List (Dict Json)) :
    recordKeys records = (records.flatMap Dict.keys).eraseDups := by
  -- what has been collected stays in front, and is left out of what follows
  have hcollect (ks acc : List String) :
      ks.foldl (fun acc k ↦ if acc.contains k then acc else acc ++ [k]) acc =
        acc ++ (ks.filter fun k ↦ !acc.contains k).eraseDups := by
    induction ks generalizing acc with
    | nil => simp
    | cons k ks ih =>
      rw [List.foldl_cons]
      split
      · next hmem => rw [ih, List.filter_cons_of_neg (by simpa using hmem)]
      · next hnew =>
        rw [ih, List.filter_cons_of_pos (by simpa using hnew), List.eraseDups_cons,
          List.filter_filter, List.append_assoc, List.singleton_append]
        congr 3
        refine List.filter_congr fun k' _ ↦ ?_
        simp only [List.contains_append, List.contains_cons, List.contains_nil, Bool.or_false,
          Bool.not_or, Bool.and_comm]
  rw [recordKeys, hcollect]
  simp

/-! ## Rows -/

theorem rowCount_ofRecords (h : ∃ r ∈ records, r ≠ []) :
    (ofRecords records).rowCount = records.length := by
  have hkeys : recordKeys records ≠ [] := by
    obtain ⟨r, hr, hne⟩ := h
    obtain ⟨entry, rest, rfl⟩ := List.exists_cons_of_ne_nil hne
    have hmem : entry.1 ∈ recordKeys records := by
      rw [recordKeys_eq, List.mem_eraseDups, List.mem_flatMap]
      exact ⟨_, hr, List.mem_cons_self ..⟩
    exact List.ne_nil_of_mem hmem
  obtain ⟨key, keys, hcons⟩ := List.exists_cons_of_ne_nil hkeys
  rw [ofRecords, hcons]
  exact List.length_map _

/-- **A row holds what its record holds.** -/
theorem recordAt_ofRecords {row : ℕ} (h : row < records.length) :
    (ofRecords records).recordAt row = (recordKeys records).map fun key ↦
      (key, (((Dict.get? records[row] key).map Cell.ofJson).getD .absent).toJson) := by
  have hlabels : (ofRecords records).labels.Nodup := by
    rw [labels_ofRecords]
    exact nodup_recordKeys records
  rw [recordAt_eq hlabels, ofRecords, List.map_map]
  refine List.map_congr_left fun key _ ↦ ?_
  simp only [Function.comp, Column.cellAt, ColumnName.label_plain]
  rw [List.getD_eq_getElem _ _ (by simpa using h), List.getElem_map]

/-- **Records come back** from a table, in order, with the keys of all of them: each key holds what
is stored of its own value, or null. -/
theorem toRecords_ofRecords
    (hrecords : ∀ r ∈ records, ∀ entry ∈ r, entry.2.IsScalar ∧ entry.2.WellFormed)
    (hkeys : ∃ r ∈ records, r ≠ []) :
    (ofRecords records).toRecords = records.map fun r ↦
      (records.flatMap Dict.keys).eraseDups.map fun key ↦
        (key, ((Dict.get? r key).map Json.stored).getD .null) := by
  rw [toRecords, rowCount_ofRecords hkeys]
  refine List.ext_getElem (by simp) fun row hrow _ ↦ ?_
  have hlength : row < records.length := by simpa using hrow
  rw [List.getElem_map, List.getElem_range, List.getElem_map, recordAt_ofRecords hlength,
    recordKeys_eq]
  refine List.map_congr_left fun key _ ↦ ?_
  cases hvalue : Dict.get? records[row] key with
  | none => rfl
  | some v =>
    obtain ⟨hscalar, hv⟩ :=
      hrecords _ (List.getElem_mem hlength) _ (Dict.mem_of_get? hvalue)
    simp only [Option.map_some, Option.getD_some, Cell.toJson_ofJson hscalar hv]

/-- Two records with a key each that the other does not have, and an integer that just fits. -/
def sparseRecords : List (Dict Json) :=
  [[("n", .int 9223372036854775807), ("shop", .str "north")], [("open", .bool true), ("n", .null)]]

theorem toRecords_sparseRecords :
    ((∀ r ∈ sparseRecords, ∀ entry ∈ r, entry.2.IsScalar ∧ entry.2.WellFormed) ∧
        ∃ r ∈ sparseRecords, r ≠ []) ∧
      (ofRecords sparseRecords).toRecords =
        [[("n", .int 9223372036854775807), ("shop", .str "north"), ("open", .null)],
          [("n", .null), ("shop", .null), ("open", .bool true)]] := by
  have hrecords : ∀ r ∈ sparseRecords, ∀ entry ∈ r, entry.2.IsScalar ∧ entry.2.WellFormed := by
    simp only [sparseRecords, List.forall_mem_cons]
    simp [Json.IsScalar, Json.WellFormed, Json.int, Number.Representable, int64Min, uint64Max]
  have hkeys : ∃ r ∈ sparseRecords, r ≠ [] := by simp [sparseRecords]
  refine ⟨⟨hrecords, hkeys⟩, (toRecords_ofRecords hrecords hkeys).trans ?_⟩
  decide +kernel

/-- The greatest unsigned integer comes back as a double. -/
theorem toRecords_greatest :
    (ofRecords [[("n", .int 18446744073709551615)]]).toRecords =
        [[("n", .num (.float 18446744073709551616.0))]] ∧
      (ofRecords [[("n", .int 18446744073709551615)]]).toRecords ≠
        [[("n", .int 18446744073709551615)]] := by
  decide +kernel

end Table

end ChartFeed
