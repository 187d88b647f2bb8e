import ChartFeed.Proofs.Json.Reordering
import ChartFeed.Proofs.Json.Unambiguous
import ChartFeed.Query.CacheKey

/-!
# What a cache key depends on

The key of a query is a digest of a text in which every object is sorted.  So it depends on the
parts that go into the text, each up to the order of fields, and on nothing else.

* `Query.KeyAgree` — two queries agree in these parts;
* `KeyAgree.cacheKey_eq` — they have one key then, whatever the caller adds to it;
* `keyAgree_iff` — and if nothing is added they agree exactly when the texts are the same.
-/

set_option autoImplicit false

namespace ChartFeed

open Dict (keys mapValues)
open Json (sorted)

namespace Query

/-- The queries agree in everything that goes into the key. -/
structure KeyAgree (q q' : Query) : Prop where
  granularity : q.granularity = q'.granularity
  groupby : q.groupby = q'.groupby
  isRowcount : q.isRowcount = q'.isRowcount
  isTimeseries : q.isTimeseries = q'.isTimeseries
  metrics : (q.metrics.map fun m ↦ sorted m.toJson) = q'.metrics.map fun m ↦ sorted m.toJson
  rowLimit : q.rowLimit = q'.rowLimit
  rowOffset : q.rowOffset = q'.rowOffset
  filter : q.filter.map sorted = q'.filter.map sorted
  timeseriesLimit : q.timeseriesLimit = q'.timeseriesLimit
  timeseriesLimitMetric : sorted (Json.ofOption id q.timeseriesLimitMetric) =
    sorted (Json.ofOption id q'.timeseriesLimitMetric)
  orderDesc : q.orderDesc = q'.orderDesc
  extras : sorted (.obj q.extras) = sorted (.obj q'.extras)
  columns : q.columns = q'.columns
  orderby : (q.orderby.map fun t ↦ (sorted t.1, t.2)) = q'.orderby.map fun t ↦ (sorted t.1, t.2)
  window : q.windowEntries = q'.windowEntries
  timeShiftText : q.timeShiftText = q'.timeShiftText
  steps : (q.postProcessing.map fun s ↦ sorted s.source) =
    q'.postProcessing.map fun s ↦ sorted s.source
  layers : (q.annotationLayers.map fun l ↦ sorted (.obj (projectLayer l))) =
    q'.annotationLayers.map fun l ↦ sorted (.obj (projectLayer l))
  datasource : q.datasource.map Datasource.uid = q'.datasource.map Datasource.uid
  resultType : q.resultType = q'.resultType

/-! ## The parts of the payload -/

/-- The entries that every payload has. -/
def fixedEntries (q : Query) : Dict Json :=
  Dict.erase (Dict.erase q.canonicalMapping "from_dttm") "to_dttm"

/-- The other entries, before those of the caller. -/
def leadingEntries (q : Query) : Dict Json :=
  q.windowEntries ++ optionalEntry "time_shift" (q.timeShiftText.map .str) ++ q.stepEntries
    ++ q.layerEntries

/-- The other entries, behind those of the caller. -/
def trailingEntries (q : Query) : Dict Json :=
  optionalEntry "datasource" (q.datasource.map fun d ↦ .str d.uid)
    ++ optionalEntry "result_type" (q.resultType.map fun t ↦ .str t.name)

theorem keyPayload_eq (q : Query) (extra : Dict Json) :
    q.keyPayload extra =
      Dict.insertAll q.fixedEntries (q.leadingEntries ++ extra ++ q.trailingEntries) := by
  rw [keyPayload, fixedEntries, leadingEntries, trailingEntries]
  simp only [List.append_assoc]

theorem fixedEntries_eq (q : Query) : q.fixedEntries = [
    ("granularity", Json.ofOption .str q.granularity),
    ("groupby", Request.textsJson q.groupby),
    ("is_rowcount", .bool q.isRowcount),
    ("is_timeseries", .bool q.isTimeseries),
    ("metrics", .arr (q.metrics.map Metric.toJson)),
    ("row_limit", .nat q.rowLimit),
    ("row_offset", .nat q.rowOffset),
    ("filter", .arr q.filter),
    ("timeseries_limit", .nat q.timeseriesLimit),
    ("timeseries_limit_metric", Json.ofOption id q.timeseriesLimitMetric),
    ("order_desc", .bool q.orderDesc),
    ("extras", .obj q.extras),
    ("columns", Request.textsJson q.columns),
    ("orderby", Request.sortTermsJson q.orderby)] := by
  simp [fixedEntries, canonicalMapping, Dict.erase]

/-! ## Sorting the parts -/

theorem sorted_ofOption_str (s : Option String) :
    sorted (Json.ofOption .str s) = Json.ofOption .str s := by
  cases s <;> simp [Json.ofOption, sorted]

theorem sorted_texts (xs : List String) :
    sorted (Request.textsJson xs) = Request.textsJson xs := by
  rw [Request.textsJson, Json.sorted_arr, List.map_map]
  congr 2

theorem sorted_sortTerms (xs : List (Json × Bool)) :
    sorted (Request.sortTermsJson xs) =
      Request.sortTermsJson (xs.map fun t ↦ (sorted t.1, t.2)) := by
  rw [Request.sortTermsJson, Json.sorted_arr, Request.sortTermsJson, List.map_map, List.map_map]
  congr 2

/-- The parts of the fixed entries, sorted. -/
theorem mapValues_fixedEntries (q : Query) : mapValues sorted q.fixedEntries = [
    ("granularity", Json.ofOption .str q.granularity),
    ("groupby", Request.textsJson q.groupby),
    ("is_rowcount", .bool q.isRowcount),
    ("is_timeseries", .bool q.isTimeseries),
    ("metrics", .arr (q.metrics.map fun m ↦ sorted m.toJson)),
    ("row_limit", .nat q.rowLimit),
    ("row_offset", .nat q.rowOffset),
    ("filter", .arr (q.filter.map sorted)),
    ("timeseries_limit", .nat q.timeseriesLimit),
    ("timeseries_limit_metric", sorted (Json.ofOption id q.timeseriesLimitMetric)),
    ("order_desc", .bool q.orderDesc),
    ("extras", sorted (.obj q.extras)),
    ("columns", Request.textsJson q.columns),
    ("orderby", Request.sortTermsJson (q.orderby.map fun t ↦ (sorted t.1, t.2)))] := by
  have hbool (b : Bool) : sorted (.bool b) = .bool b := by rw [sorted]
  have hnat (n : Nat) : sorted (.nat n) = .nat n := by rw [Json.nat, sorted]
  rw [fixedEntries_eq]
  simp only [mapValues, List.map_cons, List.map_nil, sorted_ofOption_str, sorted_texts, hbool, hnat,
    Json.sorted_arr, List.map_map, sorted_sortTerms]
  rfl

theorem mapValues_stepEntries (q : Query) : mapValues sorted q.stepEntries =
    if (q.postProcessing.map fun s ↦ sorted s.source).isEmpty then []
    else [("post_processing", .arr (q.postProcessing.map fun s ↦ sorted s.source))] := by
  rw [stepEntries, List.isEmpty_map]
  split
  · rfl
  · simp only [mapValues, List.map_cons, List.map_nil, Json.sorted_arr, List.map_map]
    rfl

theorem mapValues_layerEntries (q : Query) : mapValues sorted q.layerEntries =
    if (q.annotationLayers.map fun l ↦ sorted (.obj (projectLayer l))).isEmpty then []
    else [("annotation_layers",
      .arr (q.annotationLayers.map fun l ↦ sorted (.obj (projectLayer l))))] := by
  rw [layerEntries, List.isEmpty_map]
  split
  · rfl
  · simp only [mapValues, List.map_cons, List.map_nil, Json.sorted_arr, List.map_map]
    rfl

namespace KeyAgree

variable {q q' : Query}

theorem sortedPayload_eq (h : KeyAgree q q') (extra : Dict Json) :
    mapValues sorted (q.keyPayload extra) = mapValues sorted (q'.keyPayload extra) := by
  have hfixed : mapValues sorted q.fixedEntries = mapValues sorted q'.fixedEntries := by
    rw [mapValues_fixedEntries, mapValues_fixedEntries, h.granularity, h.groupby, h.isRowcount,
      h.isTimeseries, h.metrics, h.rowLimit, h.rowOffset, h.filter, h.timeseriesLimit,
      h.timeseriesLimitMetric, h.orderDesc, h.extras, h.columns, h.orderby]
  have hleading : mapValues sorted q.leadingEntries = mapValues sorted q'.leadingEntries := by
    rw [leadingEntries, leadingEntries, h.window, h.timeShiftText]
    simp only [Dict.mapValues_append, mapValues_stepEntries, mapValues_layerEntries, h.steps,
      h.layers]
  have htrailing : q.trailingEntries = q'.trailingEntries := by
    have huid (d : Option Datasource) :
        (d.map fun d ↦ Json.str d.uid) = (d.map Datasource.uid).map .str := by
      rw [Option.map_map]
      rfl
    rw [trailingEntries, trailingEntries, huid, huid, h.datasource, h.resultType]
  simp only [keyPayload_eq, Dict.mapValues_insertAll, Dict.mapValues_append, hfixed, hleading,
    htrailing]

/-- **Queries that agree have one cache key**, whatever the caller adds to it. -/
theorem cacheKey_eq (h : KeyAgree q q') (extra : Dict Json) :
    q.cacheKey extra = q'.cacheKey extra := by
  rw [cacheKey, cacheKey, Json.digest, Json.digest, Json.canonicalText, Json.canonicalText,
    Json.sorted_obj, Json.sorted_obj, h.sortedPayload_eq]

end KeyAgree

/-! ## Reading the parts off the text -/

theorem get?_optionalEntry (name : String) (v : Option Json) (key : String) :
    Dict.get? (optionalEntry name v) key = if name = key then v else none := by
  cases v with
  | none => simp [optionalEntry]
  | some v => rw [optionalEntry, Dict.get?_cons, Dict.get?_nil]

theorem optionalEntry_injective {name : String} {v w : Option Json}
    (h : optionalEntry name v = optionalEntry name w) : v = w := by
  have hget := congrArg (fun d ↦ Dict.get? d name) h
  simpa only [get?_optionalEntry, if_pos] using hget

theorem stepEntries_eq (q : Query) : q.stepEntries = optionalEntry "post_processing"
    (if q.postProcessing.isEmpty then none
    else some (.arr (q.postProcessing.map Step.source))) := by
  rw [stepEntries]
  split <;> rfl

theorem layerEntries_eq (q : Query) : q.layerEntries = optionalEntry "annotation_layers"
    (if q.annotationLayers.isEmpty then none
    else some (.arr (q.annotationLayers.map fun l ↦ .obj (projectLayer l)))) := by
  rw [layerEntries]
  split <;> rfl

/-- The names of the other entries, all that there can be. -/
def variableNames : List String := [
  "time_range", "from_dttm", "to_dttm", "time_shift", "post_processing", "annotation_layers",
  "datasource", "result_type"]

theorem keys_optionalEntry_sublist (name : String) (v : Option Json) :
    (keys (optionalEntry name v)).Sublist [name] := by
  cases v with
  | none => exact List.nil_sublist _
  | some v => exact List.Sublist.refl _

theorem keys_variable_sublist (q : Query) :
    (keys (q.leadingEntries ++ [] ++ q.trailingEntries)).Sublist variableNames := by
  have hwindow : (keys q.windowEntries).Sublist ["time_range", "from_dttm", "to_dttm"] := by
    rw [windowEntries]
    split
    · exact (List.nil_sublist _).cons_cons _
    · split
      · exact List.sublist_cons_self _ _
      · exact List.nil_sublist _
  have hkeys (d e : Dict Json) : keys (d ++ e) = keys d ++ keys e := List.map_append ..
  rw [leadingEntries, trailingEntries, stepEntries_eq, layerEntries_eq]
  simp only [hkeys]
  exact (((((hwindow.append (keys_optionalEntry_sublist ..)).append
    (keys_optionalEntry_sublist ..)).append (keys_optionalEntry_sublist ..)).append
    (List.nil_sublist [])).append
    ((keys_optionalEntry_sublist ..).append (keys_optionalEntry_sublist ..)))

/-- The names of the entries that every payload has. -/
def fixedNames : List String := [
  "granularity", "groupby", "is_rowcount", "is_timeseries", "metrics", "row_limit", "row_offset",
  "filter", "timeseries_limit", "timeseries_limit_metric", "order_desc", "extras", "columns",
  "orderby"]

theorem keys_fixedEntries (q : Query) : keys q.fixedEntries = fixedNames := by
  rw [fixedEntries_eq]
  rfl

theorem nodup_keys_fixedEntries (q : Query) : (keys q.fixedEntries).Nodup := by
  rw [keys_fixedEntries]
  decide

theorem notMem_variableNames : ∀ {key : String}, key ∈ fixedNames → key ∉ variableNames := by
  decide

theorem nodup_keys_keyPayload (q : Query) (extra : Dict Json) :
    (keys (q.keyPayload extra)).Nodup := by
  rw [keyPayload_eq]
  exact Dict.nodup_keys_insertAll _ (nodup_keys_fixedEntries q)

/-- What the payload has under a key when the caller adds nothing. -/
theorem get?_keyPayload (q : Query) (key : String) :
    Dict.get? (q.keyPayload []) key =
      (Dict.get? (q.leadingEntries ++ [] ++ q.trailingEntries) key).or
        (Dict.get? q.fixedEntries key) := by
  have hnodup : (keys (q.leadingEntries ++ [] ++ q.trailingEntries)).Nodup :=
    (keys_variable_sublist q).nodup (by decide)
  rw [keyPayload_eq, Dict.get?_insertAll hnodup]

theorem get?_windowEntries_of_notMem (q : Query) {key : String}
    (h : key ∉ ["time_range", "from_dttm", "to_dttm"]) : Dict.get? q.windowEntries key = none := by
  simp only [List.mem_cons, List.not_mem_nil, or_false, not_or] at h
  rw [windowEntries]
  split
  · simp [Dict.get?_cons, Ne.symm h.1]
  · split
    · simp [Dict.get?_cons, Ne.symm h.2.1, Ne.symm h.2.2]
    · rfl

/-- The entries for the window are known by what stands under their names. -/
theorem windowEntries_eq (q : Query) : q.windowEntries =
    optionalEntry "time_range" (Dict.get? q.windowEntries "time_range") ++
      optionalEntry "from_dttm" (Dict.get? q.windowEntries "from_dttm") ++
      optionalEntry "to_dttm" (Dict.get? q.windowEntries "to_dttm") := by
  rw [windowEntries]
  split
  · simp [Dict.get?_cons, optionalEntry]
  · split
    · simp [Dict.get?_cons, optionalEntry]
    · rfl

theorem sorted_of_mem_windowEntries {q : Query} {entry : String × Json}
    (h : entry ∈ q.windowEntries) : sorted entry.2 = entry.2 := by
  have hbound (t : Option Instant) : sorted (boundJson t) = boundJson t := by
    cases t <;> simp [boundJson, Json.ofOption, Json.int, sorted]
  rw [windowEntries] at h
  split at h
  · cases List.mem_singleton.1 h
    rw [sorted]
  · split at h
    · simp only [List.mem_cons, List.not_mem_nil, or_false] at h
      rcases h with rfl | rfl
      · exact hbound _
      · exact hbound _
    · cases h

/-- What stands under a name of the window's entries in the payload. -/
theorem get?_keyPayload_window (q : Query) {key : String}
    (h : key ∈ ["time_range", "from_dttm", "to_dttm"]) :
    (Dict.get? (q.keyPayload []) key).map sorted = Dict.get? q.windowEntries key := by
  have hget : Dict.get? (q.keyPayload []) key = Dict.get? q.windowEntries key := by
    rw [get?_keyPayload, leadingEntries, trailingEntries, stepEntries_eq, layerEntries_eq,
      fixedEntries_eq]
    simp only [List.mem_cons, List.not_mem_nil, or_false] at h
    rcases h with rfl | rfl | rfl <;>
      simp [Dict.get?_append, get?_optionalEntry, Dict.get?_cons]
  rw [hget]
  cases hv : Dict.get? q.windowEntries key with
  | none => rfl
  | some v => exact congrArg some (sorted_of_mem_windowEntries (Dict.mem_of_get? hv))

theorem get?_keyPayload_fixed (q : Query) {key : String} (h : key ∉ variableNames) :
    (Dict.get? (q.keyPayload []) key).map sorted =
      Dict.get? (mapValues sorted q.fixedEntries) key := by
  have hnone : Dict.get? (q.leadingEntries ++ [] ++ q.trailingEntries) key = none :=
    Dict.get?_eq_none_iff.2 fun hmem ↦ h ((keys_variable_sublist q).subset hmem)
  rw [get?_keyPayload, hnone, Option.none_or, Dict.get?_mapValues]

/-- What stands under the other names that are not always there. -/
theorem get?_keyPayload_variable (q : Query) :
    Dict.get? (q.keyPayload []) "time_shift" = q.timeShiftText.map .str ∧
      Dict.get? (q.keyPayload []) "post_processing" =
        (if q.postProcessing.isEmpty then none
        else some (.arr (q.postProcessing.map Step.source))) ∧
      Dict.get? (q.keyPayload []) "annotation_layers" =
        (if q.annotationLayers.isEmpty then none
        else some (.arr (q.annotationLayers.map fun l ↦ .obj (projectLayer l)))) ∧
      Dict.get? (q.keyPayload []) "datasource" = (q.datasource.map fun d ↦ .str d.uid) ∧
      Dict.get? (q.keyPayload []) "result_type" = q.resultType.map fun t ↦ .str t.name := by
  simp only [get?_keyPayload, leadingEntries, trailingEntries, stepEntries_eq, layerEntries_eq,
    fixedEntries_eq]
  refine ⟨?_, ?_, ?_, ?_, ?_⟩ <;>
    simp [Dict.get?_append, get?_optionalEntry, Dict.get?_cons, get?_windowEntries_of_notMem]

/-! ## Texts that are the same -/

theorem ofOption_str_injective {s t : Option String}
    (h : Json.ofOption .str s = Json.ofOption .str t) : s = t :=
  Json.eq_of_ofOption_eq (fun _ _ ↦ Json.str.inj) (fun _ ↦ by simp) h

theorem textsJson_injective {xs ys : List String}
    (h : Request.textsJson xs = Request.textsJson ys) : xs = ys :=
  List.map_injective_iff.2 (fun _ _ hst ↦ Json.str.inj hst) (Json.arr.inj h)

theorem sortTermsJson_injective {xs ys : List (Json × Bool)}
    (h : Request.sortTermsJson xs = Request.sortTermsJson ys) : xs = ys := by
  refine List.map_injective_iff.2 (fun s t hst ↦ ?_) (Json.arr.inj h)
  simp only [Json.arr.injEq, List.cons.injEq, Json.bool.injEq, and_true] at hst
  exact Prod.ext hst.1 hst.2

theorem nat_injective {m n : Nat} (h : Json.nat m = Json.nat n) : m = n := by
  simpa [Json.nat] using h

/-- Lists that are left out when they are empty are the same when what is written is. -/
theorem map_eq_of_written {α : Type} {f : α → Json} {xs ys : List α}
    (h : (if xs.isEmpty then none else some (Json.arr (xs.map f))).map sorted =
      (if ys.isEmpty then none else some (Json.arr (ys.map f))).map sorted) :
    xs.map (sorted ∘ f) = ys.map (sorted ∘ f) := by
  cases xs with
  | nil =>
    cases ys with
    | nil => rfl
    | cons y ys => simp at h
  | cons x xs =>
    cases ys with
    | nil => simp at h
    | cons y ys => simpa [Json.sorted_arr] using h

theorem name_injective {t t' : ResultType} (h : t.name = t'.name) : t = t' := by
  cases t <;> cases t' <;> first | rfl | exact absurd h (by decide)

/-- **The texts of two keys are the same exactly when the queries agree.** -/
theorem keyAgree_iff {q q' : Query} :
    KeyAgree q q' ↔
      (Json.obj (q.keyPayload [])).canonicalText = (Json.obj (q'.keyPayload [])).canonicalText := by
  rw [Json.canonicalText_eq_iff, Json.sorted_obj, Json.sorted_obj]
  refine ⟨fun h ↦ by rw [h.sortedPayload_eq], fun h ↦ ?_⟩
  have hget (key : String) : (Dict.get? (q.keyPayload []) key).map sorted =
      (Dict.get? (q'.keyPayload []) key).map sorted := by
    have hq : (keys (mapValues sorted (q.keyPayload []))).Nodup := by
      simpa using nodup_keys_keyPayload q []
    have hq' : (keys (mapValues sorted (q'.keyPayload []))).Nodup := by
      simpa using nodup_keys_keyPayload q' []
    rw [← Dict.get?_mapValues, ← Dict.get?_mapValues, ← Dict.get?_sortKeys hq,
      ← Dict.get?_sortKeys hq', Json.obj.inj h]
  have hfixed : mapValues sorted q.fixedEntries = mapValues sorted q'.fixedEntries := by
    refine Dict.eq_of_keys_of_get? (by simpa using nodup_keys_fixedEntries q) ?_ fun key hkey ↦ ?_
    · rw [Dict.keys_mapValues, Dict.keys_mapValues, keys_fixedEntries, keys_fixedEntries]
    · rw [Dict.keys_mapValues, keys_fixedEntries] at hkey
      have hnot : key ∉ variableNames := notMem_variableNames hkey
      rw [← get?_keyPayload_fixed q hnot, ← get?_keyPayload_fixed q' hnot, hget]
  have hwindow (key : String) (hkey : key ∈ ["time_range", "from_dttm", "to_dttm"]) :
      Dict.get? q.windowEntries key = Dict.get? q'.windowEntries key := by
    rw [← get?_keyPayload_window q hkey, ← get?_keyPayload_window q' hkey, hget]
  obtain ⟨hshift, hsteps, hlayers, hdatasource, hresult⟩ := get?_keyPayload_variable q
  obtain ⟨hshift', hsteps', hlayers', hdatasource', hresult'⟩ := get?_keyPayload_variable q'
  rw [mapValues_fixedEntries, mapValues_fixedEntries] at hfixed
  simp only [List.cons.injEq, Prod.mk.injEq, true_and, and_true, Json.bool.injEq, Json.arr.injEq]
    at hfixed
  obtain ⟨hgranularity, hgroupby, hisRowcount, hisTimeseries, hmetrics, hrowLimit, hrowOffset,
    hfilter, hlimit, hlimitMetric, horderDesc, hextras, hcolumns, horderby⟩ := hfixed
  refine ⟨ofOption_str_injective hgranularity, textsJson_injective hgroupby, hisRowcount,
    hisTimeseries, hmetrics, nat_injective hrowLimit, nat_injective hrowOffset, hfilter,
    nat_injective hlimit, hlimitMetric, horderDesc, hextras, textsJson_injective hcolumns,
    sortTermsJson_injective horderby, ?_, ?_, ?_, ?_, ?_, ?_⟩
  · rw [windowEntries_eq q, windowEntries_eq q', hwindow _ (by decide), hwindow _ (by decide),
      hwindow _ (by decide)]
  · have h := hget "time_shift"
    rw [hshift, hshift', Option.map_map, Option.map_map] at h
    exact Option.map_injective (fun s t hst ↦ by simpa [sorted] using hst) h
  · have h := hget "post_processing"
    rw [hsteps, hsteps'] at h
    exact map_eq_of_written h
  · have h := hget "annotation_layers"
    rw [hlayers, hlayers'] at h
    exact map_eq_of_written h
  · have h := hget "datasource"
    rw [hdatasource, hdatasource', Option.map_map, Option.map_map] at h
    have hinj : Function.Injective fun u : String ↦ sorted (.str u) :=
      fun s t hst ↦ by simpa [sorted] using hst
    exact Option.map_injective hinj (by simpa [Option.map_map, Function.comp_def] using h)
  · have h := hget "result_type"
    rw [hresult, hresult', Option.map_map, Option.map_map] at h
    exact Option.map_injective
      (fun t t' ht ↦ name_injective (by simpa [sorted] using ht)) h

end Query

end ChartFeed
