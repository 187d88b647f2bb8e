import ChartFeed.Proofs.Query.Normalization
import ChartFeed.Query.CacheKey

/-!
# What becomes of the extras

The extras of a query are those of the request with the ends of the time range in them, if the
settings ask for that, and with the values of retired fields.

* `Migration.run_eq` — what moving retired fields comes to: a granularity, entries that are set in
  the extras, and the warnings;
* `Query.NormalOf.extras_eq` — the extras of a query;
* `Query.NormalOf.anchors_eq` — what relative time expressions refer to can be read off them;
* `Query.finalExtras_alike` — and they are alike when all that goes into them is;
* `Query.NormalOf.window_eq` — the window can be found again from what the query keeps, and
  `Query.NormalOf.windowEntries_eq` that a key has the range as it was written in its place.
-/

set_option autoImplicit false

namespace ChartFeed

open Dict (get? keys insert insertAll)

/-! ## Setting fields -/

namespace Json

theorem wellFormed_insert {d : Dict Json} (hd : (Json.obj d).WellFormed) (key : String) {v : Json}
    (hv : v.WellFormed) : (Json.obj (insert d key v)).WellFormed := by
  obtain ⟨hkeys, hvalues⟩ := wellFormed_obj_iff.1 hd
  have hnodup := Dict.nodup_keys_insert key v hkeys
  refine wellFormed_obj_iff.2 ⟨hnodup, fun entry hentry ↦ ?_⟩
  have hget := Dict.get?_of_mem hnodup hentry
  rw [Dict.get?_insert] at hget
  split at hget
  · cases hget
    exact hv
  · exact hvalues _ (Dict.mem_of_get? hget)

theorem wellFormed_insertAll {d new : Dict Json} (hd : (Json.obj d).WellFormed)
    (hnew : ∀ entry ∈ new, entry.2.WellFormed) : (Json.obj (insertAll d new)).WellFormed := by
  induction new generalizing d with
  | nil => exact hd
  | cons entry rest ih =>
    rw [List.forall_mem_cons] at hnew
    rw [Dict.insertAll_cons]
    exact ih (wellFormed_insert hd entry.1 hnew.1) hnew.2

end Json

namespace Dict.Alike

theorem insert {d e : Dict Json} (h : Dict.Alike d e) (key : String) {v w : Json}
    (hvw : Json.Alike v w) : Dict.Alike (d.insert key v) (e.insert key w) := by
  intro other
  rw [RelatedAt, get?_insert, get?_insert]
  split
  · exact .inr ⟨v, w, rfl, rfl, hvw⟩
  · exact h other

theorem insertAll {d e new new' : Dict Json} (h : Dict.Alike d e)
    (hnew : List.Forall₂ (fun a b ↦ a.1 = b.1 ∧ Json.Alike a.2 b.2) new new') :
    Dict.Alike (d.insertAll new) (e.insertAll new') := by
  induction hnew generalizing d e with
  | nil => exact h
  | @cons a b rest rest' hab _ ih =>
    rw [insertAll_cons, insertAll_cons, ← hab.1]
    exact ih (h.insert a.1 hab.2)

end Dict.Alike

/-! ## Retired fields -/

namespace Migration

/-- The value that a retired field has to move, if it has one. -/
def moved? (legacy : Dict Json) (f : RetiredField) : Option Json :=
  (get? legacy f.oldName).filter Json.truthy

/-- What retired fields set in the extras. -/
def movedEntries (legacy : Dict Json) (fields : List RetiredField) : Dict Json :=
  fields.filterMap fun f ↦ (moved? legacy f).map fun v ↦ (f.newName, v)

/-- The granularity after a value for it has been moved. -/
def newGranularity (granularity : Option String) :
    Option Json → Except Rejection (Option String)
  | none => .ok granularity
  | some (.str s) => .ok (some s)
  | some _ => .error (.invalidField RetiredField.granularity.oldName .notText)

/-- The warnings about the former name of the granularity. -/
def granularityNotices (legacy : Dict Json) (granularity : Option String) : List Warning :=
  match get? legacy RetiredField.granularity.oldName with
  | none => []
  | some v =>
    .renamed .granularity ::
      if v.truthy && granularity.isSome then [.overwritten .granularity] else []

/-- The warnings about a field that became part of the extras. -/
def extrasNotices (legacy extras : Dict Json) (f : RetiredField) : List Warning :=
  match get? legacy f.oldName with
  | none => []
  | some v =>
    .movedToExtras f ::
      if v.truthy && isPopulated extras f.newName then [.overwrittenInExtras f] else []

theorem moveGranularity_eq (legacy : Dict Json) (m : Migration) :
    moveGranularity legacy m = (newGranularity m.granularity (moved? legacy .granularity)).map
      fun granularity ↦
        ⟨granularity, m.extras, m.warnings ++ granularityNotices legacy m.granularity⟩ := by
  rw [moveGranularity, moved?, granularityNotices]
  cases get? legacy RetiredField.granularity.oldName with
  | none => simp [newGranularity, Except.map]
  | some v =>
    cases ht : v.truthy with
    | false =>
      rw [Option.filter_some_neg (by simp [ht])]
      simp [ht, newGranularity, Except.map]
    | true =>
      rw [Option.filter_some_pos ht]
      cases v with
      | str s => simp [ht, newGranularity, Except.map]
      | null | bool | num | arr | obj => simp [ht, newGranularity, Except.map]

theorem moveToExtras_eq (legacy : Dict Json) (m : Migration) (f : RetiredField) :
    moveToExtras legacy m f = ⟨m.granularity, insertAll m.extras (movedEntries legacy [f]),
      m.warnings ++ extrasNotices legacy m.extras f⟩ := by
  rw [moveToExtras, movedEntries, extrasNotices]
  cases hv : get? legacy f.oldName with
  | none => simp [moved?, hv, Dict.insertAll_nil]
  | some v => cases ht : v.truthy <;> simp [moved?, hv, ht, insertAll]

theorem isPopulated_insertAll_of_notMem {extras new : Dict Json} {key : String}
    (h : key ∉ keys new) : isPopulated (insertAll extras new) key = isPopulated extras key := by
  rw [isPopulated, Dict.get?_insertAll_of_notMem h, isPopulated]

theorem keys_movedEntries_sublist (legacy : Dict Json) (fields : List RetiredField) :
    (keys (movedEntries legacy fields)).Sublist (fields.map RetiredField.newName) := by
  induction fields with
  | nil => exact List.Sublist.refl _
  | cons f rest ih =>
    cases hm : moved? legacy f with
    | none => simpa [movedEntries, hm] using ih.cons f.newName
    | some v => simpa [movedEntries, hm, keys] using ih.cons_cons f.newName

/-- Moving fields to different places sets their entries; what is there already does not depend on
the fields before. -/
theorem foldl_moveToExtras (legacy : Dict Json) {fields : List RetiredField}
    (hn : (fields.map RetiredField.newName).Nodup) (m : Migration) :
    fields.foldl (moveToExtras legacy) m =
      ⟨m.granularity, insertAll m.extras (movedEntries legacy fields),
        m.warnings ++ fields.flatMap (extrasNotices legacy m.extras)⟩ := by
  induction fields generalizing m with
  | nil => simp [movedEntries, Dict.insertAll_nil]
  | cons f rest ih =>
    obtain ⟨hf, hrest⟩ := List.nodup_cons.1 hn
    have hentries : movedEntries legacy (f :: rest) =
        movedEntries legacy [f] ++ movedEntries legacy rest := by
      rw [movedEntries, movedEntries, movedEntries, ← List.filterMap_append]
      rfl
    have hnotices : rest.flatMap (extrasNotices legacy
        (insertAll m.extras (movedEntries legacy [f]))) =
          rest.flatMap (extrasNotices legacy m.extras) := by
      refine List.flatMap_congr fun g hg ↦ ?_
      have hne : g.newName ∉ keys (movedEntries legacy [f]) := by
        intro hmem
        have hgf := (keys_movedEntries_sublist legacy [f]).subset hmem
        rw [List.map_singleton, List.mem_singleton] at hgf
        exact hf (hgf ▸ List.mem_map_of_mem hg)
      rw [extrasNotices, extrasNotices, isPopulated_insertAll_of_notMem hne]
    rw [List.foldl_cons, moveToExtras_eq, ih hrest, hentries, Dict.insertAll_append, hnotices,
      List.flatMap_cons, List.append_assoc]

/-- **What moving retired fields comes to.** -/
theorem run_eq (legacy : Dict Json) (granularity : Option String) (extras : Dict Json) :
    run legacy granularity extras =
      (newGranularity granularity (moved? legacy .granularity)).map fun granularity' ↦
        ⟨granularity', insertAll extras (movedEntries legacy RetiredField.inExtras),
          granularityNotices legacy granularity ++
            RetiredField.inExtras.flatMap (extrasNotices legacy extras)⟩ := by
  rw [run, moveGranularity_eq]
  cases newGranularity granularity (moved? legacy .granularity) with
  | error e => rfl
  | ok granularity' =>
    have hn : (RetiredField.inExtras.map RetiredField.newName).Nodup := by decide
    simp only [Except.map, foldl_moveToExtras legacy hn, List.nil_append]

/-- All retired fields. -/
def fields : List RetiredField := .granularity :: RetiredField.inExtras

/-- A request without retired fields has nothing to move. -/
theorem run_of_absent {legacy : Dict Json} (h : ∀ f ∈ fields, get? legacy f.oldName = none)
    (granularity : Option String) (extras : Dict Json) :
    run legacy granularity extras = .ok ⟨granularity, extras, []⟩ := by
  have hmoved : ∀ f ∈ fields, moved? legacy f = none := fun f hf ↦ by
    rw [moved?, h f hf, Option.filter_none]
  have hentries : movedEntries legacy RetiredField.inExtras = [] :=
    List.filterMap_eq_nil_iff.2 fun f hf ↦ by
      rw [hmoved f (List.mem_cons_of_mem _ hf), Option.map_none]
  have hnotices : RetiredField.inExtras.flatMap (extrasNotices legacy extras) = [] :=
    List.flatMap_eq_nil_iff.2 fun f hf ↦ by
      rw [extrasNotices, h f (List.mem_cons_of_mem _ hf)]
  rw [run_eq, hmoved _ List.mem_cons_self, hentries, hnotices,
    granularityNotices, h _ List.mem_cons_self]
  rfl

/-- Retired fields are not known, so a request keeps what stands under their names. -/
theorem get?_unknown (d : Dict Json) {f : RetiredField} (hf : f ∈ fields) :
    get? (d.filter fun entry ↦ (Request.record.field? entry.1).isNone) f.oldName =
      get? d f.oldName := by
  have hunknown : ∀ f ∈ fields, (Request.record.field? f.oldName).isNone = true := by decide
  have hget := Dict.get?_filter d (fun key ↦ (Request.record.field? key).isNone) f.oldName
  rwa [if_pos (hunknown f hf)] at hget

theorem moved?_legacy {d : Dict Json} {r : Request} (hr : r.ReadFrom d) {f : RetiredField}
    (hf : f ∈ fields) : moved? r.legacy f = moved? d f := by
  rw [moved?, hr.legacy, get?_unknown d hf, moved?]

/-- The values that two requests move are alike. -/
def Agree (legacy legacy' : Dict Json) : Prop :=
  ∀ f ∈ fields, Option.Rel Json.Alike (moved? legacy f) (moved? legacy' f)

theorem movedEntries_alike {legacy legacy' : Dict Json} {fields : List RetiredField}
    (h : ∀ f ∈ fields, Option.Rel Json.Alike (moved? legacy f) (moved? legacy' f)) :
    List.Forall₂ (fun a b ↦ a.1 = b.1 ∧ Json.Alike a.2 b.2) (movedEntries legacy fields)
      (movedEntries legacy' fields) := by
  induction fields with
  | nil => exact .nil
  | cons f rest ih =>
    obtain ⟨hf, hrest⟩ := List.forall_mem_cons.1 h
    replace ih := ih hrest
    simp only [movedEntries, List.filterMap_cons] at ih ⊢
    generalize moved? legacy f = a at hf
    generalize moved? legacy' f = b at hf
    cases hf with
    | none => exact ih
    | some hvw => exact .cons ⟨rfl, hvw⟩ ih

/-- The granularity is a text, which has no order of fields. -/
theorem Agree.newGranularity_eq {legacy legacy' : Dict Json} (h : Agree legacy legacy')
    {granularity g g' : Option String}
    (hg : newGranularity granularity (moved? legacy .granularity) = .ok g)
    (hg' : newGranularity granularity (moved? legacy' .granularity) = .ok g') : g = g' := by
  have hmoved := h .granularity (by decide)
  generalize moved? legacy .granularity = a at hmoved hg
  generalize moved? legacy' .granularity = b at hmoved hg'
  cases hmoved with
  | none => exact Except.ok.inj (hg.symm.trans hg')
  | @some v w hvw =>
    cases v with
    | str s =>
      cases hvw.view
      exact Except.ok.inj (hg.symm.trans hg')
    | null | bool | num | arr | obj => cases hg

end Migration

/-! ## The extras of a query -/

namespace Query

/-- The extras of a query, from those of the request and the fields that it does not know. -/
def finalExtras (settings : Settings) (extras legacy : Dict Json) : Dict Json :=
  insertAll (withEndpoints settings extras)
    (Migration.movedEntries legacy RetiredField.inExtras)

variable {settings : Settings} {directory : Directory} {now : Instant} {r : Request} {q : Query}

theorem NormalOf.extras_eq (hq : NormalOf settings directory now r q) :
    q.extras = finalExtras settings (r.extras.getD []) r.legacy := by
  have hrun := hq.migrated
  rw [Migration.run_eq] at hrun
  obtain ⟨_, -, hm⟩ := map_eq_ok.1 hrun
  exact (congrArg Migration.extras hm).symm

theorem NormalOf.newGranularity_eq (hq : NormalOf settings directory now r q) :
    Migration.newGranularity r.granularity (Migration.moved? r.legacy .granularity) =
      .ok q.granularity := by
  have hrun := hq.migrated
  rw [Migration.run_eq] at hrun
  obtain ⟨granularity, hg, hm⟩ := map_eq_ok.1 hrun
  have heq : granularity = q.granularity := congrArg Migration.granularity hm
  rw [hg, heq]

/-- The names under which something may be set in the extras. -/
def setNames : List String :=
  "time_range_endpoints" :: RetiredField.inExtras.map RetiredField.newName

theorem get?_finalExtras_of_notMem (extras legacy : Dict Json) {key : String}
    (h : key ∉ setNames) : get? (finalExtras settings extras legacy) key = get? extras key := by
  obtain ⟨hends, hmoved⟩ := not_or.1 (mt List.mem_cons.2 h)
  rw [finalExtras, Dict.get?_insertAll_of_notMem
    fun hmem ↦ hmoved ((Migration.keys_movedEntries_sublist ..).subset hmem), withEndpoints]
  split
  · exact Dict.get?_insert_of_ne (Ne.symm hends)
  · rfl

/-- **What relative time expressions refer to** is left in the extras of the query. -/
theorem NormalOf.anchors_eq (hq : NormalOf settings directory now r q) :
    anchors settings (r.extras.getD []) now = anchors settings q.extras now := by
  have hstart : "relative_start" ∉ setNames := by decide
  have hend : "relative_end" ∉ setNames := by decide
  simp only [hq.extras_eq, anchors, get?_finalExtras_of_notMem _ _ hstart,
    get?_finalExtras_of_notMem _ _ hend]

theorem anchors_eq_of_alike {extras extras' : Dict Json} (h : Dict.Alike extras extras') :
    anchors settings extras now = anchors settings extras' now := by
  simp only [anchors, h.bind_eq Json.Alike.asString?_eq]

theorem nodup_keys_withEndpoints {extras : Dict Json} (h : (keys extras).Nodup) :
    (keys (withEndpoints settings extras)).Nodup := by
  rw [withEndpoints]
  split
  · exact Dict.nodup_keys_insert _ _ h
  · exact h

theorem wellFormed_withEndpoints {extras : Dict Json} (h : (Json.obj extras).WellFormed) :
    (Json.obj (withEndpoints settings extras)).WellFormed := by
  rw [withEndpoints]
  split
  · refine Json.wellFormed_insert h _ ?_
    have hdefault : (Json.arr [.str "inclusive", .str "exclusive"]).WellFormed := by
      simp [Json.WellFormed, Json.WellFormedItems]
    split
    · exact hdefault
    · exact hdefault
    · next v hv => exact h.of_get? hv
  · exact h

theorem wellFormed_finalExtras {extras legacy : Dict Json} (h : (Json.obj extras).WellFormed)
    (hlegacy : (Json.obj legacy).WellFormed) :
    (Json.obj (finalExtras settings extras legacy)).WellFormed := by
  refine Json.wellFormed_insertAll (wellFormed_withEndpoints h) fun entry hentry ↦ ?_
  obtain ⟨f, -, hf⟩ := List.mem_filterMap.1 hentry
  obtain ⟨v, hv, rfl⟩ := Option.map_eq_some_iff.1 hf
  exact hlegacy.of_get? (Option.filter_eq_some_iff.1 hv).1

/-- The extras of a query that is made of a well-formed object are well formed. -/
theorem NormalOf.wellFormed_extras {d : Dict Json} (hd : (Json.obj d).WellFormed)
    (hr : r.ReadFrom d) (hq : NormalOf settings directory now r q) :
    (Json.obj q.extras).WellFormed := by
  rw [hq.extras_eq]
  exact wellFormed_finalExtras (Request.wellFormed_of_fields hd hr.extras)
    (Request.wellFormed_legacy hd hr)

theorem withEndpoints_alike {extras extras' : Dict Json} (h : Dict.Alike extras extras') :
    Dict.Alike (withEndpoints settings extras) (withEndpoints settings extras') := by
  have hdefault : Json.Alike (.arr [.str "inclusive", .str "exclusive"])
      (.arr [.str "inclusive", .str "exclusive"]) :=
    Json.Alike.refl (by simp [Json.WellFormed, Json.WellFormedItems])
  rw [withEndpoints, withEndpoints]
  split
  · refine h.insert _ ?_
    rcases h "time_range_endpoints" with ⟨he, he'⟩ | ⟨v, w, he, he', hvw⟩
    · rw [he, he']
      exact hdefault
    · rw [he, he']
      by_cases hv : v = .null
      · subst hv
        rw [hvw.eq_null]
        exact hdefault
      · have hw : w ≠ .null := fun e ↦ hv (hvw.isNull_iff.2 e)
        simpa only using hvw
  · exact h

/-- **The extras of queries are alike when all that goes into them is.** -/
theorem finalExtras_alike {extras extras' legacy legacy' : Dict Json}
    (h : Dict.Alike extras extras') (hlegacy : Migration.Agree legacy legacy') :
    Dict.Alike (finalExtras settings extras legacy) (finalExtras settings extras' legacy') :=
  (withEndpoints_alike h).insertAll
    (Migration.movedEntries_alike fun f hf ↦ hlegacy f (List.mem_cons_of_mem _ hf))

/-! ## The window of a query -/

/-- A blank shift is none. -/
theorem applyShift_shiftText (shift : Option String) (w : Window) :
    TimeRange.applyShift (shiftText shift) w = TimeRange.applyShift shift w := by
  cases shift with
  | none => rfl
  | some s =>
    rw [shiftText]
    cases hs : Text.trim s.toList with
    | nil =>
      rw [Option.filter_some_neg (by simp [hs])]
      simp [TimeRange.applyShift, hs]
      rfl
    | cons c rest => rw [Option.filter_some_pos (by simp [hs])]

/-- **The window can be found again** from what the query keeps. -/
theorem NormalOf.window_eq (hq : NormalOf settings directory now r q) :
    TimeRange.read q.timeRange q.timeShiftText (anchors settings q.extras now) = .ok q.window := by
  rw [← hq.window, ← hq.anchors_eq, hq.timeRange, hq.timeShiftText]
  simp only [TimeRange.read, applyShift_shiftText]

/-- Without a time range the window is open at both ends, whatever the shift. -/
theorem NormalOf.window_of_timeRange_eq_none (hq : NormalOf settings directory now r q)
    (h : q.timeRange = none) : q.window = ⟨none, none⟩ := by
  have hw := hq.window_eq
  simp only [h, TimeRange.read, bind_eq_ok] at hw
  obtain ⟨w, hw₁, w', hw₂, hw₃⟩ := hw
  cases hw₁
  have hw' : w' = ⟨none, none⟩ := by
    rw [TimeRange.applyShift] at hw₂
    split at hw₂
    · exact (Except.ok.inj hw₂).symm
    · simp only [bind_eq_ok, TimeRange.shiftBound] at hw₂
      obtain ⟨_, -, start, hstart, stop, hstop, hw₂⟩ := hw₂
      cases hstart
      cases hstop
      exact (Except.ok.inj hw₂).symm
  subst hw'
  exact (Except.ok.inj hw₃).symm

/-- Of the window only the range as it was written goes into the key, never an instant. -/
theorem NormalOf.windowEntries_eq (hq : NormalOf settings directory now r q) :
    q.windowEntries = optionalEntry "time_range" (q.timeRange.map .str) := by
  rw [windowEntries]
  cases h : q.timeRange with
  | none =>
    rw [hq.window_of_timeRange_eq_none h]
    rfl
  | some range => rfl

end Query

end ChartFeed
