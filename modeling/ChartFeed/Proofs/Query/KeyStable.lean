import Mathlib.Logic.Relation
import ChartFeed.Proofs.Query.Essence

/-!
# What a cache key does not depend on

A request can be written in many ways that mean the same to a cache.  The client computes formula
layers itself, unknown fields are ignored, and the order of fields is lost when they are sorted.

* `Query.Variation` — one change that does not matter, and `essence_eq_of_variation` that the
  essence stays what it was;
* `Query.cacheKey_eq_of_variations` — after any number of such changes, in whatever order and
  direction, a request still has its key, at any instant.
-/

set_option autoImplicit false

namespace ChartFeed

open Dict (get?)
open Json (sorted)

/-- The request with one field set. -/
def RawRequest.set (d : RawRequest) (name : String) (v : Json)
    (hv : v.WellFormed := by
      simp [Json.WellFormed, Json.WellFormedFields, Json.WellFormedItems, Dict.keys]) :
    RawRequest :=
  ⟨Dict.insert d.fields name v, Json.wellFormed_insert d.wellFormed name hv⟩

namespace Query

/-! ## Changes that do not matter -/

/-- The requests differ at most in one field. -/
def SameBut (name : String) (d e : RawRequest) : Prop :=
  ∀ key, key ≠ name → get? d.fields key = get? e.fields key

/-- A change that does not matter. -/
inductive Variation (d e : RawRequest) : Prop
  /-- An annotation layer is added that the client computes itself. -/
  | formulaLayer (before after : List Json) (layer : Dict Json)
      (hother : SameBut "annotation_layers" d e)
      (hd : listAt d.fields "annotation_layers" = some (before ++ after))
      (he : listAt e.fields "annotation_layers" = some (before ++ .obj layer :: after))
      (hformula : isFormula layer = true)
  /-- An annotation layer is changed in fields that no payload depends on. -/
  | layerFields (before after : List Json) (layer layer' : Dict Json)
      (hother : SameBut "annotation_layers" d e)
      (hd : listAt d.fields "annotation_layers" = some (before ++ .obj layer :: after))
      (he : listAt e.fields "annotation_layers" = some (before ++ .obj layer' :: after))
      (hlayer : ∀ key ∈ Query.layerFields, get? layer key = get? layer' key)
  /-- The applied time extras are changed. -/
  | timeExtras (hother : SameBut "applied_time_extras" d e)
  /-- A field is changed that is neither known nor retired. -/
  | unknownField (name : String) (hother : SameBut name d e)
      (hknown : Request.record.field? name = none)
      (hretired : name ∉ Migration.fields.map RetiredField.oldName)
  /-- A retired field is changed that is not truthy, neither before nor after. -/
  | falsyField (f : RetiredField) (hf : f ∈ Migration.fields) (hother : SameBut f.oldName d e)
      (hd : ∀ v, get? d.fields f.oldName = some v → v.truthy = false)
      (he : ∀ v, get? e.fields f.oldName = some v → v.truthy = false)
  /-- A step is added that is not truthy. -/
  | falsyStep (before after : List Json) (v : Json) (hother : SameBut "post_processing" d e)
      (hd : listAt d.fields "post_processing" = some (before ++ after))
      (he : listAt e.fields "post_processing" = some (before ++ v :: after))
      (hfalsy : v.truthy = false)
  /-- The name of a metric is written as a label. -/
  | metricLabel (before after : List Json) (name : String) (hother : SameBut "metrics" d e)
      (hd : listAt d.fields "metrics" = some (before ++ .str name :: after))
      (he : listAt e.fields "metrics" = some (before ++ .obj [("label", .str name)] :: after))
  /-- Fields are rearranged, at any level. -/
  | reordered (h : Json.Same (.obj d.fields) (.obj e.fields))

/-! ## The essence stays -/

theorem essence_ext {d e : Dict Json}
    (hkept : ∀ name ∈ keptNames, (get? d name).map sorted = (get? e name).map sorted)
    (hlayers : partsAt layerPart d "annotation_layers" = partsAt layerPart e "annotation_layers")
    (hmetrics : partsAt metricPart d "metrics" = partsAt metricPart e "metrics")
    (hsteps : partsAt stepPart d "post_processing" = partsAt stepPart e "post_processing")
    (hmoved : ∀ f ∈ Migration.fields,
      (Migration.moved? d f).map sorted = (Migration.moved? e f).map sorted) :
    essence d = essence e := by
  rw [essence, essence, hlayers, hmetrics, hsteps, List.map_inj_left.2 hkept,
    List.map_inj_left.2 hmoved]

namespace SameBut

variable {name : String} {d e : RawRequest}

theorem kept_eq (h : SameBut name d e) (hname : name ∉ keptNames) :
    ∀ key ∈ keptNames, (get? d.fields key).map sorted = (get? e.fields key).map sorted := by
  intro key hkey
  rw [h key fun heq ↦ hname (heq ▸ hkey)]

theorem partsAt_eq (h : SameBut name d e) {other : String} (hother : other ≠ name)
    (part : Json → Option Json) : partsAt part d.fields other = partsAt part e.fields other := by
  rw [partsAt, partsAt, listAt, listAt, h other hother]

theorem moved?_eq (h : SameBut name d e) {f : RetiredField} (hf : f.oldName ≠ name) :
    Migration.moved? d.fields f = Migration.moved? e.fields f := by
  rw [Migration.moved?, Migration.moved?, h f.oldName hf]

theorem moved_eq (h : SameBut name d e)
    (hname : name ∉ Migration.fields.map RetiredField.oldName) :
    ∀ f ∈ Migration.fields,
      (Migration.moved? d.fields f).map sorted = (Migration.moved? e.fields f).map sorted := by
  intro f hf
  rw [h.moved?_eq fun heq ↦ hname (heq ▸ List.mem_map_of_mem hf)]

end SameBut

/-- A value of which nothing matters can be left out. -/
theorem partsAt_insert {part : Json → Option Json} {d e : Dict Json} {name : String}
    {before after : List Json} {v : Json} (hd : listAt d name = some (before ++ after))
    (he : listAt e name = some (before ++ v :: after)) (hv : part v = none) :
    partsAt part d name = partsAt part e name := by
  rw [partsAt, partsAt, hd, he]
  simp [hv]

/-- A value can be replaced by one of which the same matters. -/
theorem partsAt_replace {part : Json → Option Json} {d e : Dict Json} {name : String}
    {before after : List Json} {v w : Json} (hd : listAt d name = some (before ++ v :: after))
    (he : listAt e name = some (before ++ w :: after)) (hvw : part v = part w) :
    partsAt part d name = partsAt part e name := by
  rw [partsAt, partsAt, hd, he]
  simp only [Option.map_some, List.filterMap_append, List.filterMap_cons, hvw]

theorem layerPart_eq_of_layerFields {layer layer' : Dict Json}
    (h : ∀ key ∈ Query.layerFields, get? layer key = get? layer' key) :
    layerPart (.obj layer) = layerPart (.obj layer') := by
  have hformula : isFormula layer = isFormula layer' := by
    rw [isFormula, isFormula, h "annotationType" (by decide)]
  have hproject : sorted (.obj (projectLayer layer)) = sorted (.obj (projectLayer layer')) :=
    sorted_projectLayer_eq fun key hkey ↦ by rw [h key hkey]
  rw [layerPart, layerPart, hformula, hproject]

theorem moved?_eq_of_alikeAt {d e : Dict Json} {f : RetiredField}
    (h : Dict.AlikeAt d e f.oldName) :
    (Migration.moved? d f).map sorted = (Migration.moved? e f).map sorted := by
  rw [Migration.moved?, Migration.moved?]
  rcases h with ⟨hd, he⟩ | ⟨v, w, hd, he, hvw⟩
  · rw [hd, he]
  · rw [hd, he]
    cases hw : w.truthy with
    | false =>
      rw [Option.filter_some_neg (by simp [hvw.truthy_eq, hw]),
        Option.filter_some_neg (by simp [hw])]
    | true =>
      rw [Option.filter_some_pos (hvw.truthy_eq.trans hw), Option.filter_some_pos hw,
        Option.map_some, Option.map_some, hvw.sorted_eq]

/-- **A change that does not matter leaves the essence as it was.** -/
theorem essence_eq_of_variation {d e : RawRequest} (h : Variation d e) :
    essence d.fields = essence e.fields := by
  cases h with
  | formulaLayer before after layer hother hd he hformula =>
    have hnone : layerPart (.obj layer) = none := if_pos hformula
    exact essence_ext (hother.kept_eq (by decide)) (partsAt_insert hd he hnone)
      (hother.partsAt_eq (by decide) _) (hother.partsAt_eq (by decide) _)
      (hother.moved_eq (by decide))
  | layerFields before after layer layer' hother hd he hlayer =>
    exact essence_ext (hother.kept_eq (by decide))
      (partsAt_replace hd he (layerPart_eq_of_layerFields hlayer))
      (hother.partsAt_eq (by decide) _) (hother.partsAt_eq (by decide) _)
      (hother.moved_eq (by decide))
  | timeExtras hother =>
    exact essence_ext (hother.kept_eq (by decide)) (hother.partsAt_eq (by decide) _)
      (hother.partsAt_eq (by decide) _) (hother.partsAt_eq (by decide) _)
      (hother.moved_eq (by decide))
  | unknownField name hother hknown hretired =>
    have hne {other : String} (hother : Request.record.field? other ≠ none) : other ≠ name :=
      fun h ↦ hother (h ▸ hknown)
    have hkept : ∀ other ∈ keptNames, Request.record.field? other ≠ none := by decide
    exact essence_ext (hother.kept_eq fun h ↦ hkept name h hknown)
      (hother.partsAt_eq (hne (by decide)) _) (hother.partsAt_eq (hne (by decide)) _)
      (hother.partsAt_eq (hne (by decide)) _) (hother.moved_eq hretired)
  | falsyField f hf hother hd he =>
    have hnone {d : Dict Json} (hd : ∀ v, get? d f.oldName = some v → v.truthy = false) :
        Migration.moved? d f = none := Option.filter_eq_none_iff.2 fun v hv ↦ by simp [hd v hv]
    have hretired : ∀ f ∈ Migration.fields, f.oldName ∉ keptNames ∧
        "annotation_layers" ≠ f.oldName ∧ "metrics" ≠ f.oldName ∧
        "post_processing" ≠ f.oldName := by decide
    obtain ⟨hkept, hlayers, hmetrics, hsteps⟩ := hretired f hf
    refine essence_ext (hother.kept_eq hkept) (hother.partsAt_eq hlayers _)
      (hother.partsAt_eq hmetrics _) (hother.partsAt_eq hsteps _) fun g _ ↦ ?_
    by_cases hg : g.oldName = f.oldName
    · have hsame (d : Dict Json) : Migration.moved? d g = Migration.moved? d f := by
        rw [Migration.moved?, Migration.moved?, hg]
      rw [hsame, hsame, hnone hd, hnone he]
    · rw [hother.moved?_eq hg]
  | falsyStep before after v hother hd he hfalsy =>
    have hnone : stepPart v = none := if_neg (by simp [hfalsy])
    exact essence_ext (hother.kept_eq (by decide)) (hother.partsAt_eq (by decide) _)
      (hother.partsAt_eq (by decide) _) (partsAt_insert hd he hnone)
      (hother.moved_eq (by decide))
  | metricLabel before after name hother hd he =>
    have hpart : metricPart (.str name) = metricPart (.obj [("label", .str name)]) := by
      simp [metricPart, metricName?, Dict.contains, Dict.get?_cons, Json.asString?]
    exact essence_ext (hother.kept_eq (by decide)) (hother.partsAt_eq (by decide) _)
      (partsAt_replace hd he hpart) (hother.partsAt_eq (by decide) _)
      (hother.moved_eq (by decide))
  | reordered h =>
    have halike := Json.alike_of_same d.wellFormed h
    have hall := (Json.alike_obj_iff halike.left halike.right).1 halike
    exact essence_ext (fun name _ ↦ Dict.AlikeAt.map_sorted_eq (hall name))
      (partsAt_eq_of_alikeAt layerPart_eq_of_alike (hall _))
      (partsAt_eq_of_alikeAt metricPart_eq_of_alike (hall _))
      (partsAt_eq_of_alikeAt stepPart_eq_of_alike (hall _))
      fun f _ ↦ moved?_eq_of_alikeAt (hall f.oldName)

/-- Any number of changes, in whatever order and direction. -/
theorem essence_eq_of_variations {d e : RawRequest} (h : Relation.EqvGen Variation d e) :
    essence d.fields = essence e.fields := by
  induction h with
  | rel d e h => exact essence_eq_of_variation h
  | refl d => rfl
  | symm d e _ ih => exact ih.symm
  | trans d e f _ _ ih ih' => exact ih.trans ih'

/-- **A request keeps its key under changes that do not matter**, whatever the instants at which it
is made into a query. -/
theorem cacheKey_eq_of_variations {settings : Settings} {directory : Directory}
    {now now' : Instant} {d e : RawRequest} {q q' : Query}
    (h : Relation.EqvGen Variation d e)
    (hq : ofJson settings directory now (.obj d.fields) = .ok q)
    (hq' : ofJson settings directory now' (.obj e.fields) = .ok q') (extra : Dict Json) :
    q.cacheKey extra = q'.cacheKey extra := by
  obtain ⟨_, r, hd, hr, hnormal⟩ := ofJson_eq_ok hq
  obtain ⟨_, r', he, hr', hnormal'⟩ := ofJson_eq_ok hq'
  cases hd
  cases he
  exact (keyAgree_of_essence_eq d.wellFormed e.wellFormed (essence_eq_of_variations h) hr hr'
    hnormal hnormal').cacheKey_eq extra

/-! ## A request and another way to write it -/

theorem sameBut_set (d : RawRequest) (name : String) {v : Json} (hv : v.WellFormed) :
    SameBut name d (d.set name v hv) :=
  fun _ hkey ↦ (Dict.get?_insert_of_ne (Ne.symm hkey)).symm

/-- A request for the counts of last week. -/
def plainRequest : RawRequest where
  fields := [("time_range", .str "Last week"), ("metrics", .arr [.str "count"])]
  wellFormed := by
    simp [Json.WellFormed, Json.WellFormedFields, Json.WellFormedItems, Dict.keys]

/-- The request with a layer that the client computes itself. -/
def layeredRequest : RawRequest :=
  plainRequest.set "annotation_layers" (.arr [.obj [("annotationType", .str "FORMULA")]])

/-- Then its metric is written as a label. -/
def labelledRequest : RawRequest :=
  layeredRequest.set "metrics" (.arr [.obj [("label", .str "count")]])

/-- Then it has a retired field that is empty. -/
def retiredRequest : RawRequest := labelledRequest.set "where" (.str "")

/-- Then its fields are turned around. -/
def variedRequest : RawRequest where
  fields := retiredRequest.fields.reverse
  wellFormed := (Json.alike_of_same retiredRequest.wellFormed
    (Json.same_of_perm (List.reverse_perm _).symm)).right

theorem variations_variedRequest : Relation.EqvGen Variation plainRequest variedRequest := by
  have hlayer : Variation plainRequest layeredRequest :=
    .formulaLayer [] [] [("annotationType", .str "FORMULA")] (sameBut_set _ _ _) (by decide)
      (by decide) (by decide)
  have hlabel : Variation layeredRequest labelledRequest :=
    .metricLabel [] [] "count" (sameBut_set _ _ _) (by decide) (by decide)
  have hretired : Variation labelledRequest retiredRequest := by
    have habsent : get? labelledRequest.fields "where" = none := by decide
    have hempty : get? retiredRequest.fields "where" = some (.str "") := by decide
    refine .falsyField ⟨"where", "where"⟩ (by decide) (sameBut_set _ _ _) (fun v hv ↦ ?_)
      fun v hv ↦ ?_
    · cases habsent.symm.trans hv
    · cases hempty.symm.trans hv
      rfl
  have horder : Variation retiredRequest variedRequest :=
    .reordered (Json.same_of_perm (List.reverse_perm _).symm)
  exact .trans _ _ _ (.rel _ _ hlayer) (.trans _ _ _ (.rel _ _ hlabel)
    (.trans _ _ _ (.rel _ _ hretired) (.rel _ _ horder)))

/-- The query for the counts of the week before an instant. -/
def weekQuery (seconds : Int) (warnings : List Warning) : Query :=
  { blank with
    window := ⟨some ⟨seconds - 604800, 0⟩, some ⟨seconds, 0⟩⟩
    timeRange := some "Last week"
    metrics := [.named "count"]
    warnings := warnings }

theorem ofJson_plainRequest :
    ofJson .initial [] ⟨0, 0⟩ (.obj plainRequest.fields) = .ok (weekQuery 0 []) ∧
      ofJson .initial [] ⟨864000, 0⟩ (.obj variedRequest.fields) =
        .ok (weekQuery 864000 [.movedToExtras ⟨"where", "where"⟩]) := by
  decide +kernel

/-- Ten days later the request has another window and a warning, and still its key. -/
theorem weekQuery_cacheKey_eq_of_variations :
    (weekQuery 0 []).window ≠ (weekQuery 864000 [.movedToExtras ⟨"where", "where"⟩]).window ∧
      (weekQuery 0 []).cacheKey [] =
        (weekQuery 864000 [.movedToExtras ⟨"where", "where"⟩]).cacheKey [] :=
  ⟨by decide, cacheKey_eq_of_variations variations_variedRequest ofJson_plainRequest.1
    ofJson_plainRequest.2 []⟩

end Query

end ChartFeed
