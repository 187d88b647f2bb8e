import ChartFeed.Proofs.Json.Reading
import ChartFeed.Query.Normal

/-!
# What a query takes from a request

A request is read field by field and a query is made of it step by step, and either may fail at any
of them.  This file says once what a success means, so that nobody else has to look inside.

* `RawRequest` — the fields of a request as they are submitted;
* `Request.ReadFrom` — the fields of an object that a request was read from, and
  `Request.ofFields_eq_ok` that a request is read from them only;
* `Request.wellFormed_of_fields`, … — the parts of a well-formed request are well formed;
* `Query.NormalOf` — what each field of a query comes from, and `Query.ofRequest_eq_ok` likewise;
* `Request.ReadFrom.rewrite`, `Query.ofRequest_rewrite` — what becomes of a request when its
  granularity, its extras and its unknown fields are rewritten.
-/

set_option autoImplicit false

namespace ChartFeed

open Dict (get? keys)

/-! ## Requests -/

theorem DatasourceRef.respects_read : Shape.Respects DatasourceRef.read Eq := by
  intro v w s s' hvw hs hs'
  simp only [read, bind_eq_ok, pure_eq_ok] at hs hs'
  obtain ⟨d, hd, id, hid, kind, hkind, rfl⟩ := hs
  obtain ⟨e, he, id', hid', kind', hkind', rfl⟩ := hs'
  have hde := Record.entries_alike hvw hd he
  have hreadId : Shape.Respects readId Eq := Shape.respects_scalar nofun nofun
  rw [hde.required hreadId hid hid', hde.required Shape.respects_text hkind hkind']

/-- The fields of a request as they are submitted. -/
structure RawRequest where
  fields : Dict Json
  /-- No object repeats a key, and every number can be written. -/
  wellFormed : (Json.obj fields).WellFormed

namespace Request

theorem respects_sortTerms : Shape.Respects sortTerms
    (List.Forall₂ fun s t ↦ Json.Alike s.1 t.1 ∧ s.2 = t.2) :=
  Shape.respects_items (Shape.respects_pair Shape.respects_any Shape.respects_boolean)

/-- The fields of an object are those of a request, under their names; the others are kept. -/
structure ReadFrom (r : Request) (d : Dict Json) : Prop where
  checked : record.checkEntries [] d = .ok ()
  datasource : d.optional "datasource" DatasourceRef.read = .ok r.datasource
  resultType : d.optional "result_type" (Shape.variant ResultType.names) = .ok r.resultType
  annotationLayers :
    d.optional "annotation_layers" (Shape.items Shape.fields) = .ok r.annotationLayers
  appliedTimeExtras : d.optional "applied_time_extras" Shape.fields = .ok r.appliedTimeExtras
  granularity : d.optional "granularity" Shape.text = .ok r.granularity
  metrics : d.optional "metrics" (Shape.items Shape.any) = .ok r.metrics
  groupby : d.optional "groupby" texts = .ok r.groupby
  filters : d.optional "filters" (Shape.items Shape.any) = .ok r.filters
  timeRange : d.optional "time_range" Shape.text = .ok r.timeRange
  timeShift : d.optional "time_shift" Shape.text = .ok r.timeShift
  isTimeseries : d.optional "is_timeseries" Shape.boolean = .ok r.isTimeseries
  timeseriesLimit : d.optional "timeseries_limit" Shape.unsigned = .ok r.timeseriesLimit
  timeseriesLimitMetric :
    d.optional "timeseries_limit_metric" Shape.any = .ok r.timeseriesLimitMetric
  rowLimit : d.optional "row_limit" Shape.unsigned = .ok r.rowLimit
  rowOffset : d.optional "row_offset" Shape.unsigned = .ok r.rowOffset
  orderDesc : d.optional "order_desc" Shape.boolean = .ok r.orderDesc
  extras : d.optional "extras" Shape.fields = .ok r.extras
  columns : d.optional "columns" texts = .ok r.columns
  orderby : d.optional "orderby" sortTerms = .ok r.orderby
  postProcessing : d.optional "post_processing" (Shape.items Shape.any) = .ok r.postProcessing
  isRowcount : d.optional "is_rowcount" Shape.boolean = .ok r.isRowcount
  legacy : r.legacy = d.filter fun entry ↦ (record.field? entry.1).isNone

theorem ofFields_eq_ok {d : Dict Json} {r : Request} : ofFields d = .ok r ↔ r.ReadFrom d := by
  constructor
  · intro h
    simp only [ofFields, bind_eq_ok, pure_eq_ok] at h
    obtain ⟨_, h₁, _, h₂, _, h₃, _, h₄, _, h₅, _, h₆, _, h₇, _, h₈, _, h₉, _, h₁₀, _, h₁₁, _, h₁₂,
      _, h₁₃, _, h₁₄, _, h₁₅, _, h₁₆, _, h₁₇, _, h₁₈, _, h₁₉, _, h₂₀, _, h₂₁, _, h₂₂, rfl⟩ := h
    exact ⟨h₁, h₂, h₃, h₄, h₅, h₆, h₇, h₈, h₉, h₁₀, h₁₁, h₁₂, h₁₃, h₁₄, h₁₅, h₁₆, h₁₇, h₁₈, h₁₉,
      h₂₀, h₂₁, h₂₂, rfl⟩
  · intro h
    simp only [ofFields, bind_eq_ok, pure_eq_ok]
    exact ⟨_, h.checked, _, h.datasource, _, h.resultType, _, h.annotationLayers, _,
      h.appliedTimeExtras, _, h.granularity, _, h.metrics, _, h.groupby, _, h.filters, _,
      h.timeRange, _, h.timeShift, _, h.isTimeseries, _, h.timeseriesLimit, _,
      h.timeseriesLimitMetric, _, h.rowLimit, _, h.rowOffset, _, h.orderDesc, _, h.extras, _,
      h.columns, _, h.orderby, _, h.postProcessing, _, h.isRowcount, by rw [← h.legacy]⟩

theorem read_eq_ok {v : Json} {r : Request} (h : read v = .ok r) :
    ∃ d, v = .obj d ∧ r.ReadFrom d := by
  cases v with
  | obj d =>
    rw [read] at h
    split at h
    · next r' hr' =>
      cases h
      exact ⟨d, rfl, ofFields_eq_ok.1 hr'⟩
    · cases h
  | null | bool | num | str | arr => cases h

/-- The values of a field that holds a list of anything are those of the object. -/
theorem wellFormed_of_items {d : Dict Json} (hd : (Json.obj d).WellFormed) {name : String}
    {values : Option (List Json)} (h : d.optional name (Shape.items Shape.any) = .ok values) :
    ∀ v ∈ values.getD [], v.WellFormed := by
  have hself := (Dict.Alike.refl hd).optional (Shape.respects_items Shape.respects_any) h h
  cases hself with
  | none => simp
  | some hitems => exact (Json.forall₂_alike_iff.1 hitems).1

/-- The fields of a field that holds an object are those of the object. -/
theorem wellFormed_of_fields {d : Dict Json} (hd : (Json.obj d).WellFormed) {name : String}
    {fields : Option (Dict Json)} (h : d.optional name Shape.fields = .ok fields) :
    (Json.obj (fields.getD [])).WellFormed := by
  have hself := (Dict.Alike.refl hd).optional Shape.respects_fields h h
  cases hself with
  | none => exact Json.wellFormed_obj_iff.2 ⟨by simp [keys], by simp⟩
  | some hfields => exact hfields.left

theorem wellFormed_legacy {d : Dict Json} (hd : (Json.obj d).WellFormed) {r : Request}
    (hr : r.ReadFrom d) : (Json.obj r.legacy).WellFormed := by
  obtain ⟨hkeys, hvalues⟩ := Json.wellFormed_obj_iff.1 hd
  rw [hr.legacy]
  refine Json.wellFormed_obj_iff.2
    ⟨?_, fun entry hentry ↦ hvalues entry (List.mem_filter.1 hentry).1⟩
  exact (List.filter_sublist.map Prod.fst).nodup hkeys

end Request

/-! ## Reading requests that are rewritten -/

theorem Dict.optional_congr {α : Type} {d e : Dict Json} {name : String} (reader : Reader α)
    (h : get? e name = get? d name) : e.optional name reader = d.optional name reader := by
  rw [Dict.optional, Dict.optional, h]

namespace Request

theorem read_eq_of_readFrom {d : Dict Json} {r : Request} (h : r.ReadFrom d) :
    read (.obj d) = .ok r := by
  rw [read, ofFields_eq_ok.2 h]

/-- A field is populated when it has a value that is not null. -/
theorem isPopulated_of_optional {α : Type} {d : Dict Json} {name : String} {reader : Reader α}
    {a : Option α} (h : d.optional name reader = .ok a) :
    Migration.isPopulated d name = a.isSome := by
  rw [Migration.isPopulated]
  rcases Dict.optional_eq_ok h with ⟨hnone | hnull, rfl⟩ | ⟨v, x, hv, hne, -, rfl⟩
  · rw [hnone]
    rfl
  · rw [hnull]
    rfl
  · rw [hv]
    cases v with
    | null => exact absurd rfl hne
    | bool | num | str | arr | obj => rfl

/-- The fields that are rewritten are known and take texts and objects. -/
theorem field?_rewritten :
    record.field? "granularity" = some (optionalField "granularity" Shape.text) ∧
      record.field? "extras" = some (optionalField "extras" Shape.fields) := by
  exact ⟨rfl, rfl⟩

/-- **What is read after the granularity and the extras are rewritten**: the other fields are what
they were. -/
theorem ReadFrom.rewrite {d e : Dict Json} {r : Request} (hr : r.ReadFrom d)
    (hd : (keys d).Nodup) (he : (keys e).Nodup) {granularity : Option String}
    {extras : Option (Dict Json)}
    (hother : ∀ name ∉ ["granularity", "extras"], (record.field? name).isSome = true →
      get? e name = get? d name)
    (hgranularity : e.optional "granularity" Shape.text = .ok granularity)
    (hextras : e.optional "extras" Shape.fields = .ok extras) :
    ReadFrom { r with
      granularity := granularity
      extras := extras
      legacy := e.filter fun entry ↦ (record.field? entry.1).isNone } e := by
  have hkept {name : String} (hname : name ∉ ["granularity", "extras"])
      (hknown : (record.field? name).isSome = true) {α : Type} (reader : Reader α) :
      e.optional name reader = d.optional name reader :=
    Dict.optional_congr reader (hother name hname hknown)
  have hchecked : record.checkEntries [] e = .ok () := by
    have hold := (Record.checkEntries_eq_ok_iff rfl hd (by simp)).1 hr.checked
    refine (Record.checkEntries_eq_ok_iff rfl he (by simp)).2 ?_
    rintro ⟨name, v⟩ hentry f hf
    have hv : get? e name = some v := Dict.get?_of_mem he hentry
    by_cases hname : name ∈ ["granularity", "extras"]
    · rw [List.mem_cons, List.mem_singleton] at hname
      rcases hname with rfl | rfl
      · rw [Dict.optional, hv] at hgranularity
        cases field?_rewritten.1.symm.trans hf
        exact Field.check_of hgranularity ..
      · rw [Dict.optional, hv] at hextras
        cases field?_rewritten.2.symm.trans hf
        exact Field.check_of hextras ..
    · rw [hother name hname (Option.isSome_iff_exists.2 ⟨f, hf⟩)] at hv
      exact hold (name, v) (Dict.mem_of_get? hv) f hf
  exact {
    checked := hchecked
    datasource := (hkept (by decide) (by decide) _).trans hr.datasource
    resultType := (hkept (by decide) (by decide) _).trans hr.resultType
    annotationLayers := (hkept (by decide) (by decide) _).trans hr.annotationLayers
    appliedTimeExtras := (hkept (by decide) (by decide) _).trans hr.appliedTimeExtras
    granularity := hgranularity
    metrics := (hkept (by decide) (by decide) _).trans hr.metrics
    groupby := (hkept (by decide) (by decide) _).trans hr.groupby
    filters := (hkept (by decide) (by decide) _).trans hr.filters
    timeRange := (hkept (by decide) (by decide) _).trans hr.timeRange
    timeShift := (hkept (by decide) (by decide) _).trans hr.timeShift
    isTimeseries := (hkept (by decide) (by decide) _).trans hr.isTimeseries
    timeseriesLimit := (hkept (by decide) (by decide) _).trans hr.timeseriesLimit
    timeseriesLimitMetric := (hkept (by decide) (by decide) _).trans hr.timeseriesLimitMetric
    rowLimit := (hkept (by decide) (by decide) _).trans hr.rowLimit
    rowOffset := (hkept (by decide) (by decide) _).trans hr.rowOffset
    orderDesc := (hkept (by decide) (by decide) _).trans hr.orderDesc
    extras := hextras
    columns := (hkept (by decide) (by decide) _).trans hr.columns
    orderby := (hkept (by decide) (by decide) _).trans hr.orderby
    postProcessing := (hkept (by decide) (by decide) _).trans hr.postProcessing
    isRowcount := (hkept (by decide) (by decide) _).trans hr.isRowcount
    legacy := rfl }

end Request

/-! ## Queries -/

namespace Query

variable {settings : Settings} {directory : Directory} {now : Instant}

/-- Each field of the query comes from the request, the settings, the directory and the instant. -/
structure NormalOf (settings : Settings) (directory : Directory) (now : Instant) (r : Request)
    (q : Query) : Prop where
  datasource : resolveDatasource directory r.datasource = .ok q.datasource
  window : TimeRange.read r.timeRange r.timeShift (anchors settings (r.extras.getD []) now) =
    .ok q.window
  timeShift : readShift (shiftText r.timeShift) = .ok q.timeShift
  postProcessing : Step.readAll (r.postProcessing.getD []) = .ok q.postProcessing
  metrics : Metric.readEach (r.metrics.getD []) = .ok q.metrics
  migrated : Migration.run r.legacy r.granularity (withEndpoints settings (r.extras.getD [])) =
    .ok ⟨q.granularity, q.extras, q.warnings⟩
  resultType : q.resultType = r.resultType
  annotationLayers :
    q.annotationLayers = (r.annotationLayers.getD []).filter fun layer ↦ !isFormula layer
  appliedTimeExtras : q.appliedTimeExtras = r.appliedTimeExtras.getD []
  timeRange : q.timeRange = r.timeRange
  timeShiftText : q.timeShiftText = shiftText r.timeShift
  isTimeseries : q.isTimeseries =
    r.isTimeseries.getD ((r.columns.getD [] ++ r.groupby.getD []).contains timeAxis)
  groupby : q.groupby = r.groupby.getD []
  columns : q.columns = r.columns.getD []
  filter : q.filter = r.filters.getD []
  rowLimit : q.rowLimit = r.rowLimit.getD settings.rowLimit
  rowOffset : q.rowOffset = r.rowOffset.getD 0
  timeseriesLimit : q.timeseriesLimit = r.timeseriesLimit.getD 0
  timeseriesLimitMetric : q.timeseriesLimitMetric = r.timeseriesLimitMetric
  orderDesc : q.orderDesc = r.orderDesc.getD true
  orderby : q.orderby = r.orderby.getD []
  isRowcount : q.isRowcount = r.isRowcount.getD false

theorem ofRequest_eq_ok {r : Request} {q : Query}
    (h : ofRequest settings directory now r = .ok q) :
    NormalOf settings directory now r q := by
  simp only [ofRequest, bind_eq_ok, pure_eq_ok] at h
  obtain ⟨_, hdatasource, _, hwindow, _, hshift, _, hsteps, _, hmetrics, migrated, hmigrated,
    rfl⟩ := h
  exact ⟨hdatasource, hwindow, hshift, hsteps, hmetrics, hmigrated, rfl, rfl, rfl, rfl, rfl, rfl,
    rfl, rfl, rfl, rfl, rfl, rfl, rfl, rfl, rfl, rfl⟩

/-- A query that is made of a value is made of a request that is read from its fields. -/
theorem ofJson_eq_ok {v : Json} {q : Query} (h : ofJson settings directory now v = .ok q) :
    ∃ d r, v = .obj d ∧ r.ReadFrom d ∧ NormalOf settings directory now r q := by
  obtain ⟨r, hr, hq⟩ := bind_eq_ok.1 h
  obtain ⟨d, rfl, hd⟩ := Request.read_eq_ok hr
  exact ⟨d, r, rfl, hd, ofRequest_eq_ok hq⟩

/-- The query with the fields that retired ones may set. -/
def withMigration (q : Query) (m : Migration) : Query :=
  { q with granularity := m.granularity, extras := m.extras, warnings := m.warnings }

/-- **A query is made alike of a request that is rewritten**, or of neither: nothing but the anchors
is taken from what is rewritten before fields are moved. -/
theorem ofRequest_rewrite (r : Request) (granularity : Option String)
    (extras : Option (Dict Json)) (legacy : Dict Json) {m m' : Migration}
    (hanchors : anchors settings (extras.getD []) now = anchors settings (r.extras.getD []) now)
    (hm : Migration.run r.legacy r.granularity (withEndpoints settings (r.extras.getD [])) = .ok m)
    (hm' : Migration.run legacy granularity (withEndpoints settings (extras.getD [])) = .ok m') :
    (∃ e, ofRequest settings directory now r = .error e ∧
      ofRequest settings directory now
        { r with granularity := granularity, extras := extras, legacy := legacy } = .error e) ∨
    ∃ q : Query, ofRequest settings directory now r = .ok q ∧
      ⟨q.granularity, q.extras, q.warnings⟩ = m ∧
      ofRequest settings directory now
        { r with granularity := granularity, extras := extras, legacy := legacy } =
          .ok (q.withMigration m') := by
  simp only [ofRequest, hanchors, hm, hm']
  cases resolveDatasource directory r.datasource with
  | error e => exact .inl ⟨e, rfl, rfl⟩
  | ok datasource =>
    cases TimeRange.read r.timeRange r.timeShift (anchors settings (r.extras.getD []) now) with
    | error e => exact .inl ⟨e, rfl, rfl⟩
    | ok window =>
      cases readShift (shiftText r.timeShift) with
      | error e => exact .inl ⟨e, rfl, rfl⟩
      | ok timeShift =>
        cases Step.readAll (r.postProcessing.getD []) with
        | error e => exact .inl ⟨e, rfl, rfl⟩
        | ok postProcessing =>
          cases Metric.readEach (r.metrics.getD []) with
          | error e => exact .inl ⟨e, rfl, rfl⟩
          | ok metrics => exact .inr ⟨_, rfl, rfl, rfl⟩

/-- The query that an empty request means. -/
def blank : Query where
  datasource := none
  resultType := none
  annotationLayers := []
  appliedTimeExtras := []
  granularity := none
  window := ⟨none, none⟩
  timeRange := none
  timeShiftText := none
  timeShift := none
  isTimeseries := false
  groupby := []
  columns := []
  metrics := []
  filter := []
  rowLimit := 50000
  rowOffset := 0
  timeseriesLimit := 0
  timeseriesLimitMetric := none
  orderDesc := true
  extras := []
  orderby := []
  postProcessing := []
  isRowcount := false
  warnings := []

end Query

end ChartFeed
