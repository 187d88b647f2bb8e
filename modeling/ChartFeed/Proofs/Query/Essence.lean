import ChartFeed.Proofs.Query.Extras
import ChartFeed.Proofs.Query.KeyPayload
import ChartFeed.Proofs.Transform.Reordering

/-!
# What of a request goes into the key

Of most fields of a request everything goes into the key, of some a part and of others nothing.

* `Query.Essence` — all that matters of the fields of a request, and `Query.essence` takes it from
  them;
* `partsAt_annotationLayers`, `partsAt_metrics`, `partsAt_postProcessing` — the lists of which a
  part matters, and what of the query they are;
* `Query.keyAgree_of_essence_eq` — queries agree when they are made of requests with one essence,
  whatever the instants that they are made at.
-/

set_option autoImplicit false

namespace ChartFeed

open Dict (get?)
open Json (sorted)

/-! ## Single values -/

namespace Query

/-- What matters of a layer: of one that the client computes nothing, of the others some fields. -/
def layerPart : Json → Option Json
  | .obj layer => if isFormula layer then none else some (sorted (.obj (projectLayer layer)))
  | v => some (sorted v)

/-- The name of a metric that is written as a name, in either way. -/
def metricName? : Json → Option String
  | .str name => some name
  | .obj fields =>
    if Dict.contains fields "expressionType" then none
    else (get? fields "label").bind Json.asString?
  | _ => none

/-- What matters of a metric, however its name is written. -/
def metricPart (v : Json) : Option Json := some (((metricName? v).map .str).getD (sorted v))

/-- What matters of a step, which is nothing when it is not truthy. -/
def stepPart (v : Json) : Option Json := if v.truthy then some (sorted v) else none

theorem isFormula_eq_of_alike {layer layer' : Dict Json} (h : Dict.Alike layer layer') :
    isFormula layer = isFormula layer' := by
  rw [isFormula, isFormula, h.bind_eq Json.Alike.asString?_eq]

/-- A projection is known by what the layer has under the fields that matter. -/
theorem sorted_projectLayer_eq {layer layer' : Dict Json}
    (h : ∀ key ∈ layerFields, (get? layer key).map sorted = (get? layer' key).map sorted) :
    sorted (.obj (projectLayer layer)) = sorted (.obj (projectLayer layer')) := by
  have hvalues (layer : Dict Json) : Dict.mapValues sorted (projectLayer layer) =
      layerFields.filterMap fun key ↦ ((get? layer key).map sorted).map fun v ↦ (key, v) := by
    rw [Dict.mapValues, projectLayer, List.map_filterMap]
    simp only [Option.map_map, Function.comp_def]
  rw [Json.sorted_obj, Json.sorted_obj, hvalues, hvalues,
    List.filterMap_congr fun key hkey ↦ by rw [h key hkey]]

/-! ## Values that differ in the order of fields -/

theorem layerPart_eq_of_alike {v w : Json} (h : Json.Alike v w) : layerPart v = layerPart w := by
  cases h.view with
  | scalar => rfl
  | arr => rw [layerPart, layerPart, h.sorted_eq] <;> exact nofun
  | @obj d e _ _ hde =>
    rw [layerPart, layerPart, isFormula_eq_of_alike hde,
      sorted_projectLayer_eq fun key _ ↦ Dict.AlikeAt.map_sorted_eq (hde key)]

theorem metricPart_eq_of_alike {v w : Json} (h : Json.Alike v w) :
    metricPart v = metricPart w := by
  have hname : metricName? v = metricName? w := by
    cases h.view with
    | scalar => rfl
    | arr => rfl
    | @obj d e _ _ hde =>
      have hcontains : Dict.contains d "expressionType" = Dict.contains e "expressionType" := by
        rcases hde "expressionType" with ⟨hd, he⟩ | ⟨_, _, hd, he, -⟩ <;>
          simp [Dict.contains, hd, he]
      rw [metricName?, metricName?, hcontains, hde.bind_eq Json.Alike.asString?_eq]
  rw [metricPart, metricPart, hname, h.sorted_eq]

theorem stepPart_eq_of_alike {v w : Json} (h : Json.Alike v w) : stepPart v = stepPart w := by
  rw [stepPart, stepPart, h.truthy_eq, h.sorted_eq]

/-! ## Lists of values -/

/-- The values of a field that holds a list; there are none without the field. -/
def listAt (d : Dict Json) (name : String) : Option (List Json) :=
  match get? d name with
  | none | some .null => some []
  | some (.arr values) => some values
  | some _ => none

/-- What matters of a field that holds a list. -/
def partsAt (part : Json → Option Json) (d : Dict Json) (name : String) : Option (List Json) :=
  (listAt d name).map fun values ↦ values.filterMap part

theorem filterMap_eq_of_alike {part : Json → Option Json}
    (hpart : ∀ {v w}, Json.Alike v w → part v = part w) {vs ws : List Json}
    (h : List.Forall₂ Json.Alike vs ws) : vs.filterMap part = ws.filterMap part := by
  induction h with
  | nil => rfl
  | cons hvw _ ih => rw [List.filterMap_cons, List.filterMap_cons, hpart hvw, ih]

theorem partsAt_eq_of_alikeAt {part : Json → Option Json}
    (hpart : ∀ {v w}, Json.Alike v w → part v = part w) {d e : Dict Json} {name : String}
    (h : Dict.AlikeAt d e name) : partsAt part d name = partsAt part e name := by
  rw [partsAt, partsAt, listAt, listAt]
  rcases h with ⟨hd, he⟩ | ⟨v, w, hd, he, hvw⟩
  · rw [hd, he]
  · rw [hd, he]
    cases hvw.view with
    | scalar => rfl
    | arr hitems => exact congrArg some (filterMap_eq_of_alike hpart hitems)
    | obj => rfl

/-- A list that can be read is there, and its items are read one by one. -/
theorem listAt_of_optional {α : Type} {reader : Reader α} {d : Dict Json} {name : String}
    {as : Option (List α)} (h : d.optional name (Shape.items reader) = .ok as) :
    ∃ values, listAt d name = some values ∧
      List.Forall₂ (fun v a ↦ reader v = .ok a) values (as.getD []) := by
  rw [listAt]
  rcases Dict.optional_eq_ok h with ⟨hnone | hnull, rfl⟩ | ⟨v, items, hv, -, hitems, rfl⟩
  · rw [hnone]
    exact ⟨[], rfl, .nil⟩
  · rw [hnull]
    exact ⟨[], rfl, .nil⟩
  · obtain ⟨values, rfl, hall⟩ := Shape.items_eq_ok hitems
    rw [hv]
    exact ⟨values, rfl, hall⟩

/-- The items of a list of anything are kept as they are. -/
theorem listAt_of_any {d : Dict Json} {name : String} {values : Option (List Json)}
    (h : d.optional name (Shape.items Shape.any) = .ok values) :
    listAt d name = some (values.getD []) := by
  obtain ⟨items, hlist, hall⟩ := listAt_of_optional h
  have hself : List.Forall₂ Eq items (values.getD []) := hall.imp fun _ _ ↦ Except.ok.inj
  rw [List.forall₂_eq_eq_eq] at hself
  rw [hlist, hself]

theorem wellFormed_of_listAt {d : Dict Json} (hd : (Json.obj d).WellFormed) {name : String}
    {values : List Json} (h : listAt d name = some values) : ∀ v ∈ values, v.WellFormed := by
  rw [listAt] at h
  split at h
  · cases h
    simp
  · cases h
    simp
  · next items hitems =>
    cases h
    exact Json.wellFormed_arr_iff.1 (hd.of_get? hitems)
  · cases h

/-! ## What the lists become -/

section

variable {settings : Settings} {directory : Directory} {now : Instant} {d : Dict Json}
  {r : Request} {q : Query}

theorem partsAt_annotationLayers (hd : (Json.obj d).WellFormed) (hr : r.ReadFrom d)
    (hq : NormalOf settings directory now r q) : partsAt layerPart d "annotation_layers" =
      some (q.annotationLayers.map fun layer ↦ sorted (.obj (projectLayer layer))) := by
  obtain ⟨values, hlist, hall⟩ := listAt_of_optional hr.annotationLayers
  have hwell := wellFormed_of_listAt hd hlist
  rw [partsAt, hlist, Option.map_some, hq.annotationLayers]
  generalize r.annotationLayers.getD [] = layers at hall
  clear hlist hr hq
  induction hall with
  | nil => rfl
  | @cons v layer values layers hv _ ih =>
    obtain ⟨hvwell, hrest⟩ := List.forall_mem_cons.1 hwell
    have htail := Option.some.inj (ih hrest)
    rw [Shape.fields_eq_ok hvwell hv, List.filterMap_cons, layerPart, List.filter_cons]
    cases isFormula layer <;> simp [htail]

theorem metricPart_of_read {v : Json} {m : Metric} (h : Metric.read v = .ok m) :
    metricPart v = some (sorted m.toJson) := by
  cases v with
  | str name =>
    cases h
    rw [metricPart, metricName?, Metric.toJson, sorted]
    rfl
  | obj fields =>
    rw [Metric.read] at h
    rw [metricPart, metricName?]
    split at h
    · split at h
      · cases h
        rw [if_pos ‹_›]
        rfl
      · cases h
    · split at h
      · next label hlabel =>
        cases h
        rw [if_neg ‹_›, hlabel, Metric.toJson, sorted]
        rfl
      · cases h
  | null | bool | num | arr => cases h

theorem partsAt_metrics (hr : r.ReadFrom d) (hq : NormalOf settings directory now r q) :
    partsAt metricPart d "metrics" = some (q.metrics.map fun m ↦ sorted m.toJson) := by
  have hmetrics := hq.metrics
  rw [partsAt, listAt_of_any hr.metrics, Option.map_some]
  generalize r.metrics.getD [] = values at hmetrics
  generalize q.metrics = metrics at hmetrics
  induction values generalizing metrics with
  | nil =>
    cases hmetrics
    rfl
  | cons v values ih =>
    simp only [Metric.readEach, bind_eq_ok, pure_eq_ok] at hmetrics
    obtain ⟨m, hm, rest, hrest, rfl⟩ := hmetrics
    rw [List.filterMap_cons, metricPart_of_read hm, List.map_cons,
      ← Option.some.inj (ih rest hrest)]

theorem partsAt_postProcessing (hr : r.ReadFrom d) (hq : NormalOf settings directory now r q) :
    partsAt stepPart d "post_processing" =
      some (q.postProcessing.map fun s ↦ sorted s.source) := by
  have hsources := Step.sources_of_readAll hq.postProcessing
  have hparts (values : List Json) :
      values.filterMap stepPart = (values.filter Json.truthy).map sorted := by
    rw [← List.filterMap_eq_map, ← List.filterMap_eq_filter, List.filterMap_filterMap]
    refine List.filterMap_congr fun v _ ↦ ?_
    cases hv : v.truthy <;> simp [stepPart, Option.guard, hv]
  rw [partsAt, listAt_of_any hr.postProcessing, Option.map_some, hparts, ← hsources, List.map_map]
  rfl

end

/-! ## Requests -/

/-- The fields of which everything matters. -/
def keptNames : List String := [
  "datasource", "result_type", "granularity", "groupby", "filters", "time_range", "time_shift",
  "is_timeseries", "timeseries_limit", "timeseries_limit_metric", "row_limit", "row_offset",
  "order_desc", "extras", "columns", "orderby", "is_rowcount"]

/-- All that matters of the fields of a request. -/
structure Essence where
  /-- What stands under each of `keptNames`. -/
  kept : List (Option Json)
  layers : Option (List Json)
  metrics : Option (List Json)
  steps : Option (List Json)
  /-- The values that retired fields have to move. -/
  moved : List (Option Json)

/-- What matters of the fields of a request. -/
def essence (d : Dict Json) : Essence where
  kept := keptNames.map fun name ↦ (get? d name).map sorted
  layers := partsAt layerPart d "annotation_layers"
  metrics := partsAt metricPart d "metrics"
  steps := partsAt stepPart d "post_processing"
  moved := Migration.fields.map fun f ↦ (Migration.moved? d f).map sorted

/-! ## Fields that may be left out -/

theorem forall₂_getD {α : Type} {R : α → α → Prop} {as bs : Option (List α)}
    (h : Option.Rel (List.Forall₂ R) as bs) : List.Forall₂ R (as.getD []) (bs.getD []) := by
  cases h with
  | none => exact .nil
  | some hall => exact hall

theorem sorted_ofOption_eq {a b : Option Json} (h : Option.Rel Json.Alike a b) :
    sorted (Json.ofOption id a) = sorted (Json.ofOption id b) := by
  cases h with
  | none => rfl
  | some hvw => exact hvw.sorted_eq

theorem sortTerms_eq {xs ys : List (Json × Bool)}
    (h : List.Forall₂ (fun s t ↦ Json.Alike s.1 t.1 ∧ s.2 = t.2) xs ys) :
    (xs.map fun t ↦ (sorted t.1, t.2)) = ys.map fun t ↦ (sorted t.1, t.2) := by
  induction h with
  | nil => rfl
  | cons hst _ ih => rw [List.map_cons, List.map_cons, hst.1.sorted_eq, hst.2, ih]

/-- Without extras there are none. -/
theorem alike_getD {extras extras' : Option (Dict Json)}
    (h : Option.Rel (fun d e ↦ Json.Alike (.obj d) (.obj e)) extras extras') :
    Dict.Alike (extras.getD []) (extras'.getD []) := by
  cases h with
  | none => exact fun key ↦ .inl ⟨rfl, rfl⟩
  | some hde => exact (Json.alike_obj_iff hde.left hde.right).1 hde

/-! ## Requests with one essence -/

/-- The requests agree in the fields of which everything matters, up to the order of fields. -/
structure KeptAgree (r r' : Request) : Prop where
  datasource : r.datasource = r'.datasource
  resultType : r.resultType = r'.resultType
  granularity : r.granularity = r'.granularity
  groupby : r.groupby = r'.groupby
  filters : Option.Rel (List.Forall₂ Json.Alike) r.filters r'.filters
  timeRange : r.timeRange = r'.timeRange
  timeShift : r.timeShift = r'.timeShift
  isTimeseries : r.isTimeseries = r'.isTimeseries
  timeseriesLimit : r.timeseriesLimit = r'.timeseriesLimit
  timeseriesLimitMetric : Option.Rel Json.Alike r.timeseriesLimitMetric r'.timeseriesLimitMetric
  rowLimit : r.rowLimit = r'.rowLimit
  rowOffset : r.rowOffset = r'.rowOffset
  orderDesc : r.orderDesc = r'.orderDesc
  extras : Option.Rel (fun d e ↦ Json.Alike (.obj d) (.obj e)) r.extras r'.extras
  columns : r.columns = r'.columns
  orderby : Option.Rel (List.Forall₂ fun s t ↦ Json.Alike s.1 t.1 ∧ s.2 = t.2) r.orderby r'.orderby
  isRowcount : r.isRowcount = r'.isRowcount

section

variable {d e : Dict Json} (hd : (Json.obj d).WellFormed) (he : (Json.obj e).WellFormed)
  (h : essence d = essence e)
include hd he h

theorem alikeAt_of_essence_eq {name : String} (hname : name ∈ keptNames) :
    Dict.AlikeAt d e name := by
  have hkept : (keptNames.map fun name ↦ (get? d name).map sorted) =
      keptNames.map fun name ↦ (get? e name).map sorted := congrArg Essence.kept h
  exact Dict.relatedAt_of_rel (Json.rel_alike_of_map_sorted (fun _ ↦ hd.of_get?)
    (fun _ ↦ he.of_get?) (List.map_inj_left.1 hkept name hname))

theorem agree_of_essence_eq {r r' : Request} (hr : r.ReadFrom d) (hr' : r'.ReadFrom e) :
    Migration.Agree r.legacy r'.legacy := by
  intro f hf
  have hmoved : (Migration.fields.map fun f ↦ (Migration.moved? d f).map sorted) =
      Migration.fields.map fun f ↦ (Migration.moved? e f).map sorted := congrArg Essence.moved h
  rw [Migration.moved?_legacy hr hf, Migration.moved?_legacy hr' hf]
  exact Json.rel_alike_of_map_sorted (fun _ hv ↦ hd.of_get? (Option.filter_eq_some_iff.1 hv).1)
    (fun _ hv ↦ he.of_get? (Option.filter_eq_some_iff.1 hv).1) (List.map_inj_left.1 hmoved f hf)

/-- Requests with one essence agree in the fields of which everything matters. -/
theorem keptAgree_of_essence_eq {r r' : Request} (hr : r.ReadFrom d) (hr' : r'.ReadFrom e) :
    KeptAgree r r' := by
  have hkept {name : String} (hname : name ∈ keptNames) : Dict.AlikeAt d e name :=
    alikeAt_of_essence_eq hd he h hname
  exact {
    datasource :=
      (hkept (by decide)).optional_eq DatasourceRef.respects_read hr.datasource hr'.datasource
    resultType :=
      (hkept (by decide)).optional_eq (Shape.respects_variant _) hr.resultType hr'.resultType
    granularity :=
      (hkept (by decide)).optional_eq Shape.respects_text hr.granularity hr'.granularity
    groupby := (hkept (by decide)).optional_eq Shape.respects_texts hr.groupby hr'.groupby
    filters := (hkept (by decide)).optional (Shape.respects_items Shape.respects_any)
      hr.filters hr'.filters
    timeRange := (hkept (by decide)).optional_eq Shape.respects_text hr.timeRange hr'.timeRange
    timeShift := (hkept (by decide)).optional_eq Shape.respects_text hr.timeShift hr'.timeShift
    isTimeseries :=
      (hkept (by decide)).optional_eq Shape.respects_boolean hr.isTimeseries hr'.isTimeseries
    timeseriesLimit := (hkept (by decide)).optional_eq Shape.respects_unsigned
      hr.timeseriesLimit hr'.timeseriesLimit
    timeseriesLimitMetric := (hkept (by decide)).optional Shape.respects_any
      hr.timeseriesLimitMetric hr'.timeseriesLimitMetric
    rowLimit := (hkept (by decide)).optional_eq Shape.respects_unsigned hr.rowLimit hr'.rowLimit
    rowOffset := (hkept (by decide)).optional_eq Shape.respects_unsigned hr.rowOffset hr'.rowOffset
    orderDesc := (hkept (by decide)).optional_eq Shape.respects_boolean hr.orderDesc hr'.orderDesc
    extras := (hkept (by decide)).optional Shape.respects_fields hr.extras hr'.extras
    columns := (hkept (by decide)).optional_eq Shape.respects_texts hr.columns hr'.columns
    orderby := (hkept (by decide)).optional Request.respects_sortTerms hr.orderby hr'.orderby
    isRowcount :=
      (hkept (by decide)).optional_eq Shape.respects_boolean hr.isRowcount hr'.isRowcount }

/-- **Requests with one essence become queries that agree**, whenever they are made. -/
theorem keyAgree_of_essence_eq {settings : Settings} {directory : Directory} {now now' : Instant}
    {r r' : Request} {q q' : Query} (hr : r.ReadFrom d) (hr' : r'.ReadFrom e)
    (hq : NormalOf settings directory now r q) (hq' : NormalOf settings directory now' r' q') :
    KeyAgree q q' := by
  have hkept := keptAgree_of_essence_eq hd he h hr hr'
  have hagree := agree_of_essence_eq hd he h hr hr'
  have hgranularity := hq'.newGranularity_eq
  rw [← hkept.granularity] at hgranularity
  have hfinal : Dict.Alike q.extras q'.extras := by
    rw [hq.extras_eq, hq'.extras_eq]
    exact finalExtras_alike (alike_getD hkept.extras) hagree
  have hfound := hq.datasource
  rw [hkept.datasource, hq'.datasource] at hfound
  exact {
    granularity := hagree.newGranularity_eq hq.newGranularity_eq hgranularity
    groupby := by rw [hq.groupby, hq'.groupby, hkept.groupby]
    isRowcount := by rw [hq.isRowcount, hq'.isRowcount, hkept.isRowcount]
    isTimeseries := by
      rw [hq.isTimeseries, hq'.isTimeseries, hkept.isTimeseries, hkept.columns, hkept.groupby]
    metrics := Option.some.inj ((partsAt_metrics hr hq).symm.trans
      ((congrArg Essence.metrics h).trans (partsAt_metrics hr' hq')))
    rowLimit := by rw [hq.rowLimit, hq'.rowLimit, hkept.rowLimit]
    rowOffset := by rw [hq.rowOffset, hq'.rowOffset, hkept.rowOffset]
    filter := by
      rw [hq.filter, hq'.filter]
      exact (Json.forall₂_alike_iff.1 (forall₂_getD hkept.filters)).2.2
    timeseriesLimit := by rw [hq.timeseriesLimit, hq'.timeseriesLimit, hkept.timeseriesLimit]
    timeseriesLimitMetric := by
      rw [hq.timeseriesLimitMetric, hq'.timeseriesLimitMetric,
        sorted_ofOption_eq hkept.timeseriesLimitMetric]
    orderDesc := by rw [hq.orderDesc, hq'.orderDesc, hkept.orderDesc]
    extras := ((Json.alike_obj_iff (hq.wellFormed_extras hd hr)
      (hq'.wellFormed_extras he hr')).2 hfinal).sorted_eq
    columns := by rw [hq.columns, hq'.columns, hkept.columns]
    orderby := by rw [hq.orderby, hq'.orderby, sortTerms_eq (forall₂_getD hkept.orderby)]
    window := by
      rw [hq.windowEntries_eq, hq'.windowEntries_eq, hq.timeRange, hq'.timeRange, hkept.timeRange]
    timeShiftText := by rw [hq.timeShiftText, hq'.timeShiftText, hkept.timeShift]
    steps := Option.some.inj ((partsAt_postProcessing hr hq).symm.trans
      ((congrArg Essence.steps h).trans (partsAt_postProcessing hr' hq')))
    layers := Option.some.inj ((partsAt_annotationLayers hd hr hq).symm.trans
      ((congrArg Essence.layers h).trans (partsAt_annotationLayers he hr' hq')))
    datasource := by rw [Except.ok.inj hfound]
    resultType := by rw [hq.resultType, hq'.resultType, hkept.resultType] }

end

end Query

end ChartFeed
