import ChartFeed.Proofs.Json.Restoring
import ChartFeed.Proofs.Query.Normalization

/-!
# Requests are written as they were read

A request may be spelled in many ways: the number of a datasource as a text, a result type as an
object, a record as an array, a field as null or not at all.  It is written in one way, and what is
written is read as the same request.

## What is here

* `DatasourceRef.restores` and the writers of `Request.toFields` — what each known field is written
  as is read back;
* `Record.checkEntries_append` — fields that a record does not know are skipped, wherever they
  stand;
* `Request.ReadFrom.toFields` — a request is read from the fields that are written for it;
* `Request.Rewritten` — the written fields next to those of the object: the known ones first, then
  the others as they were;
* `Request.read_toJson` — reading, writing and reading again.
-/

set_option autoImplicit false

namespace ChartFeed

open Dict (get? keys)

/-! ## Writers -/

namespace DatasourceRef

theorem fitsInt64_of_readId {v : Json} {n : Int} (h : readId v = .ok n) : fitsInt64 n = true := by
  match v with
  | .num (.int m) =>
    rw [readId] at h
    split at h
    · next hm =>
      cases h
      exact hm
    · cases h
  | .str s =>
    rw [readId] at h
    split at h
    · split at h
      · next hm =>
        cases h
        exact hm
      · cases h
    · cases h
  | .num (.float _) | .null | .bool _ | .arr _ | .obj _ => cases h

theorem restores : Shape.Restores read toJson where
  read_write {v r} h := by
    simp only [read, bind_eq_ok, pure_eq_ok] at h
    obtain ⟨d, -, id, hid, kind, -, rfl⟩ := h
    have hfits : readId (.int id) = .ok id := by
      obtain ⟨w, -, hw⟩ : ∃ w, get? d "id" = some w ∧ readId w = .ok id := by
        rw [Dict.required] at hid
        split at hid
        · next w hw => exact ⟨w, hw, hid⟩
        · cases hid
      rw [Json.int, readId, if_pos (fitsInt64_of_readId hw)]
    have hentries : record.entries (toJson ⟨id, kind⟩) =
        .ok [("id", .int id), ("type", .str kind)] := by
      refine Record.entries_eq_ok rfl (by simp [keys]) ?_ rfl
      refine List.forall_mem_cons.2 ⟨fun f hf ↦ ?_, List.forall_mem_singleton.2 fun f hf ↦ ?_⟩
      · cases hf
        exact Field.check_of hfits ..
      · cases hf
        rfl
    rw [read, hentries]
    show (do
      let id ← readId (.int id)
      let kind ← Shape.text (.str kind)
      return (⟨id, kind⟩ : DatasourceRef)) = .ok ⟨id, kind⟩
    rw [hfits]
    rfl
  write_ne_null _ _ := nofun

end DatasourceRef

namespace ResultType

theorem get?_names_name (t : ResultType) : get? names t.name = some t := by
  cases t <;> rfl

end ResultType

namespace Request

theorem restores_texts : Shape.Restores texts textsJson := Shape.restores_items Shape.restores_text

theorem restores_sortTerms : Shape.Restores sortTerms sortTermsJson :=
  Shape.restores_items (Shape.restores_pair Shape.restores_any Shape.restores_boolean)

theorem restores_values : Shape.Restores (Shape.items Shape.any) .arr := by
  have h := Shape.restores_items Shape.restores_any
  simp only [List.map_id_fun] at h
  exact h

theorem restores_layers : Shape.Restores (Shape.items Shape.fields) fun ls ↦ .arr (ls.map .obj) :=
  Shape.restores_items Shape.restores_fields

theorem restores_resultType :
    Shape.Restores (Shape.variant ResultType.names) fun t ↦ .str t.name :=
  Shape.restores_variant ResultType.get?_names_name

end Request

/-! ## Fields of records -/

theorem Record.field?_eq_none_iff {r : Record} {name : String} :
    r.field? name = none ↔ name ∉ r.names := by
  simp [field?, names]

/-- An open record skips the fields that it does not know. -/
theorem Record.checkEntries_append {r : Record} (hopen : r.closed = false) {seen : List String}
    {d rest : Dict Json} (hrest : ∀ entry ∈ rest, r.field? entry.1 = none) :
    r.checkEntries seen (d ++ rest) = r.checkEntries seen d := by
  induction d generalizing seen with
  | nil =>
    rw [List.nil_append]
    induction rest with
    | nil => rfl
    | cons entry rest ih =>
      obtain ⟨key, v⟩ := entry
      obtain ⟨hkey, hrest⟩ := List.forall_mem_cons.1 hrest
      simp only [checkEntries] at hkey ⊢
      simp only [hkey, hopen]
      exact ih hrest
  | cons entry d ih =>
    rw [List.cons_append, checkEntries, checkEntries]
    simp only [ih]

namespace Request

/-! ## Known and unknown fields -/

/-- The known fields of a request as they are written. -/
def knownFields (r : Request) : Dict Json := toFields { r with legacy := [] }

theorem toFields_eq (r : Request) : r.toFields = r.knownFields ++ r.legacy := rfl

theorem keys_knownFields (r : Request) : keys r.knownFields = record.names := rfl

/-- A known field is written as it has to be, and as null exactly when it was left out or null. -/
structure Restored (d : Dict Json) (entry : String × Json) : Prop where
  checked : ∀ f, record.field? entry.1 = some f → f.check entry.2 = .ok ()
  null_iff : entry.2 = .null ↔ (get? d entry.1).getD .null = .null

variable {d : Dict Json} {r : Request}

theorem restored_of_optional {α : Type} {reader : Reader α} {write : α → Json}
    (h : Shape.Restores reader write) {name : String} {a : Option α}
    (ha : d.optional name reader = .ok a)
    (hfield : record.field? name = some (optionalField name reader)) :
    Restored d (name, Json.ofOption write a) where
  checked f hf := by
    cases hfield.symm.trans hf
    rw [Shape.optional_field_eq] at ha
    exact Field.check_of ((Shape.restores_optional h).read_write ha) ..
  null_iff := by
    rw [Shape.optional_field_eq] at ha
    exact h.ofOption_eq_null_iff ha

theorem ReadFrom.restored (h : r.ReadFrom d) : ∀ entry ∈ r.knownFields, Restored d entry := by
  simp only [knownFields, toFields, List.append_nil, List.forall_mem_cons]
  exact ⟨restored_of_optional DatasourceRef.restores h.datasource rfl,
    restored_of_optional restores_resultType h.resultType rfl,
    restored_of_optional restores_layers h.annotationLayers rfl,
    restored_of_optional Shape.restores_fields h.appliedTimeExtras rfl,
    restored_of_optional Shape.restores_text h.granularity rfl,
    restored_of_optional restores_values h.metrics rfl,
    restored_of_optional restores_texts h.groupby rfl,
    restored_of_optional restores_values h.filters rfl,
    restored_of_optional Shape.restores_text h.timeRange rfl,
    restored_of_optional Shape.restores_text h.timeShift rfl,
    restored_of_optional Shape.restores_boolean h.isTimeseries rfl,
    restored_of_optional Shape.restores_unsigned h.timeseriesLimit rfl,
    restored_of_optional Shape.restores_any h.timeseriesLimitMetric rfl,
    restored_of_optional Shape.restores_unsigned h.rowLimit rfl,
    restored_of_optional Shape.restores_unsigned h.rowOffset rfl,
    restored_of_optional Shape.restores_boolean h.orderDesc rfl,
    restored_of_optional Shape.restores_fields h.extras rfl,
    restored_of_optional restores_texts h.columns rfl,
    restored_of_optional restores_sortTerms h.orderby rfl,
    restored_of_optional restores_values h.postProcessing rfl,
    restored_of_optional Shape.restores_boolean h.isRowcount rfl, by simp⟩

/-- The unknown fields of a request are unknown. -/
theorem ReadFrom.field?_legacy (h : r.ReadFrom d) :
    ∀ entry ∈ r.legacy, record.field? entry.1 = none := by
  intro entry hentry
  rw [h.legacy] at hentry
  exact Option.isNone_iff_eq_none.1 (List.mem_filter.1 hentry).2

/-- The known fields of a request are known. -/
theorem field?_knownFields (r : Request) :
    ∀ entry ∈ r.knownFields, record.field? entry.1 ≠ none := by
  intro entry hentry hnone
  refine Record.field?_eq_none_iff.1 hnone ?_
  rw [← keys_knownFields r]
  exact Dict.mem_keys_of_mem hentry

theorem nodup_names : record.names.Nodup := by decide

/-- **A request is read from the fields that are written for it.** -/
theorem ReadFrom.toFields (h : r.ReadFrom d) : r.ReadFrom r.toFields where
  checked := by
    rw [toFields_eq, Record.checkEntries_append rfl h.field?_legacy]
    refine (Record.checkEntries_eq_ok_iff rfl ?_ (by simp)).2 fun entry hentry ↦
      (h.restored entry hentry).checked
    rw [keys_knownFields]
    exact nodup_names
  datasource := DatasourceRef.restores.field h.datasource rfl
  resultType := restores_resultType.field h.resultType rfl
  annotationLayers := restores_layers.field h.annotationLayers rfl
  appliedTimeExtras := Shape.restores_fields.field h.appliedTimeExtras rfl
  granularity := Shape.restores_text.field h.granularity rfl
  metrics := restores_values.field h.metrics rfl
  groupby := restores_texts.field h.groupby rfl
  filters := restores_values.field h.filters rfl
  timeRange := Shape.restores_text.field h.timeRange rfl
  timeShift := Shape.restores_text.field h.timeShift rfl
  isTimeseries := Shape.restores_boolean.field h.isTimeseries rfl
  timeseriesLimit := Shape.restores_unsigned.field h.timeseriesLimit rfl
  timeseriesLimitMetric := Shape.restores_any.field h.timeseriesLimitMetric rfl
  rowLimit := Shape.restores_unsigned.field h.rowLimit rfl
  rowOffset := Shape.restores_unsigned.field h.rowOffset rfl
  orderDesc := Shape.restores_boolean.field h.orderDesc rfl
  extras := Shape.restores_fields.field h.extras rfl
  columns := restores_texts.field h.columns rfl
  orderby := restores_sortTerms.field h.orderby rfl
  postProcessing := restores_values.field h.postProcessing rfl
  isRowcount := Shape.restores_boolean.field h.isRowcount rfl
  legacy := by
    have hknown : (r.knownFields.filter fun entry ↦ (record.field? entry.1).isNone) = [] :=
      List.filter_eq_nil_iff.2 fun entry hentry ↦ by simpa using r.field?_knownFields entry hentry
    have hunknown : (r.legacy.filter fun entry ↦ (record.field? entry.1).isNone) = r.legacy :=
      List.filter_eq_self.2 fun entry hentry ↦ by simpa using h.field?_legacy entry hentry
    rw [toFields_eq, List.filter_append, hknown, hunknown, List.nil_append]

/-- The written fields of a request next to the fields of the object that it was read from. -/
structure Rewritten (d known written : Dict Json) : Prop where
  /-- First come the known fields, then the others as they were. -/
  written_eq : written = known ++ d.filter fun entry ↦ (record.field? entry.1).isNone
  /-- The known fields are written all, in the order of the record. -/
  keys_known : keys known = record.names
  count : known.length = 21
  /-- A known field is null exactly when it was left out or null. -/
  null_iff : ∀ entry ∈ known,
    entry.2 = .null ↔ get? d entry.1 = none ∨ get? d entry.1 = some .null
  /-- No key is lost. -/
  kept : ∀ key ∈ keys d, key ∈ keys written
  /-- No key is there twice. -/
  nodup : (keys d).Nodup → (keys written).Nodup

theorem ReadFrom.rewritten (h : r.ReadFrom d) : Rewritten d r.knownFields r.toFields where
  written_eq := by rw [toFields_eq, h.legacy]
  keys_known := r.keys_knownFields
  count := rfl
  null_iff entry hentry := by
    rw [(h.restored entry hentry).null_iff]
    cases get? d entry.1 <;> simp
  kept key hkey := by
    rw [toFields_eq, Dict.keys_append, List.mem_append, keys_knownFields]
    by_cases hknown : key ∈ record.names
    · exact .inl hknown
    · obtain ⟨entry, hentry, rfl⟩ := List.mem_map.1 hkey
      refine .inr (Dict.mem_keys_of_mem (v := entry.2) ?_)
      rw [h.legacy, List.mem_filter, Record.field?_eq_none_iff.2 hknown]
      exact ⟨hentry, rfl⟩
  nodup hd := by
    rw [toFields_eq, Dict.keys_append, keys_knownFields]
    refine List.nodup_append'.2 ⟨nodup_names, ?_, ?_⟩
    · rw [h.legacy]
      exact (List.filter_sublist.map Prod.fst).nodup hd
    · intro key hknown hkey
      obtain ⟨entry, hentry, rfl⟩ := List.mem_map.1 hkey
      exact Record.field?_eq_none_iff.1 (h.field?_legacy entry hentry) hknown

/-- **Writing a request restores it.**  Whatever a request was read from, it is written as its known
fields followed by the unknown ones of the object, and what is written is read as the same
request. -/
theorem read_toJson {v : Json} {r : Request} (h : read v = .ok r) :
    read r.toJson = .ok r ∧
      ∃ d known, v = .obj d ∧ Rewritten d known r.toFields := by
  obtain ⟨d, rfl, hr⟩ := read_eq_ok h
  exact ⟨read_eq_of_readFrom hr.toFields, d, r.knownFields, rfl, hr.rewritten⟩

/-! ## An example -/

/-- A request in unusual spellings, with fields of a former version in between. -/
def unusual : Json := .obj [
  ("since", .str "1 week ago"),
  ("datasource", .obj [("type", .str "table"), ("id", .str " 42 ")]),
  ("groupby", .null),
  ("result_type", .obj [("samples", .null)]),
  ("granularity_sqla", .str "ds"),
  ("orderby", .arr [.arr [.str "ds", .bool false]]),
  ("row_limit", .nat 0)]

/-- What is read from it. -/
def unusualRead : Request where
  datasource := some ⟨42, "table"⟩
  resultType := some .samples
  annotationLayers := none
  appliedTimeExtras := none
  granularity := none
  metrics := none
  groupby := none
  filters := none
  timeRange := none
  timeShift := none
  isTimeseries := none
  timeseriesLimit := none
  timeseriesLimitMetric := none
  rowLimit := some 0
  rowOffset := none
  orderDesc := none
  extras := none
  columns := none
  orderby := some [(.str "ds", false)]
  postProcessing := none
  isRowcount := none
  legacy := [("since", .str "1 week ago"), ("granularity_sqla", .str "ds")]

theorem unusual_read_toJson :
    read unusual = .ok unusualRead ∧ read unusualRead.toJson = .ok unusualRead ∧
      ∃ d known, unusual = .obj d ∧ Rewritten d known unusualRead.toFields := by
  have hread : read unusual = .ok unusualRead := by decide +kernel
  exact ⟨hread, read_toJson hread⟩

end Request

end ChartFeed
