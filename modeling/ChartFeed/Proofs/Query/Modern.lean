import ChartFeed.Proofs.Query.Extras
import ChartFeed.Proofs.Query.KeyPayload

/-!
# Requests of former versions

A request that uses retired fields means what it means when they are written in the way of today.
The query is made in one go, so this asks that nothing before the fields are moved depends on where
they are.

* `RetiredValues` — the retired fields of a request, and `RawRequest.translate` the request with
  their values where they belong;
* `RawRequest.readFrom_withRetired`, `RawRequest.readFrom_translate` — both can be read when the
  rest of the request can;
* `RawRequest.run_withRetired` — what moving the retired fields comes to;
* `Query.ofJson_translate` — a request and its translation become queries that differ in their
  warnings and in the order of their extras only.
-/

set_option autoImplicit false

namespace ChartFeed

open Dict (get? keys insert insertAll)

/-! ## Translating requests -/

/-- The retired fields of a request, with values that are moved. -/
structure RetiredValues where
  fields : Dict Json
  wellFormed : (Json.obj fields).WellFormed
  /-- There are no other fields. -/
  retired : ∀ key ∈ keys fields, key ∈ Migration.fields.map RetiredField.oldName
  truthy : ∀ entry ∈ fields, entry.2.truthy = true
  /-- The granularity is a text. -/
  text : ∀ v, get? fields RetiredField.granularity.oldName = some v → ∃ s, v = .str s

namespace RetiredValues

/-- The granularity under its former name. -/
def granularity (old : RetiredValues) : Option String :=
  (get? old.fields RetiredField.granularity.oldName).bind Json.asString?

/-- The values of fields that became part of the extras, under their names of today. -/
def newExtras (old : RetiredValues) : Dict Json :=
  RetiredField.inExtras.filterMap fun f ↦ (get? old.fields f.oldName).map fun v ↦ (f.newName, v)

end RetiredValues

namespace RawRequest

/-- The extras of a request; there are none without the field. -/
def extras (d : RawRequest) : Dict Json := ((get? d.fields "extras").bind Json.asFields?).getD []

/-- The fields with a granularity from its former name. -/
def withGranularity (d : RawRequest) (old : RetiredValues) : Dict Json :=
  match old.granularity with
  | some s => insert d.fields RetiredField.granularity.newName (.str s)
  | none => d.fields

/-- The fields with the values of retired ones where they belong today. -/
def translate (d : RawRequest) (old : RetiredValues) : Dict Json :=
  if old.newExtras.isEmpty then d.withGranularity old
  else insert (d.withGranularity old) "extras" (.obj (insertAll d.extras old.newExtras))

/-- A warning for each retired field, and another if there is a value in its place already. -/
def notices (d : RawRequest) (old : RetiredValues) : List Warning :=
  (if Dict.contains old.fields RetiredField.granularity.oldName then
    .renamed .granularity ::
      if Migration.isPopulated d.fields RetiredField.granularity.newName then
        [.overwritten .granularity] else []
  else []) ++
  RetiredField.inExtras.flatMap fun f ↦
    if Dict.contains old.fields f.oldName then
      .movedToExtras f ::
        if Migration.isPopulated d.extras f.newName then [.overwrittenInExtras f] else []
    else []

end RawRequest

namespace Request

/-- The request with other fields that are not known. -/
def withUnknown (r : Request) (e : Dict Json) : Request :=
  { r with legacy := e.filter fun entry ↦ (record.field? entry.1).isNone }

/-- The request with the values of retired fields where they belong today. -/
def translate (r : Request) (old : RetiredValues) : Request :=
  { r with
    granularity := old.granularity.or r.granularity
    extras := if old.newExtras.isEmpty then r.extras
      else some (insertAll (r.extras.getD []) old.newExtras) }

theorem translate_extras (r : Request) (old : RetiredValues) :
    (r.translate old).extras.getD [] = insertAll (r.extras.getD []) old.newExtras := by
  simp only [translate]
  split
  · next hempty => rw [List.isEmpty_iff.1 hempty, Dict.insertAll_nil]
  · rfl

end Request

/-! ## Reading a request and its translation -/

namespace RetiredValues

variable (old : RetiredValues)

/-- All values of retired fields are moved. -/
theorem moved?_eq (f : RetiredField) :
    Migration.moved? old.fields f = get? old.fields f.oldName := by
  rw [Migration.moved?]
  cases h : get? old.fields f.oldName with
  | none => rfl
  | some v => rw [Option.filter_some_pos (old.truthy _ (Dict.mem_of_get? h))]

theorem newExtras_eq : old.newExtras = Migration.movedEntries old.fields RetiredField.inExtras := by
  simp only [newExtras, Migration.movedEntries, moved?_eq]

theorem keys_newExtras_sublist :
    (keys old.newExtras).Sublist (RetiredField.inExtras.map RetiredField.newName) := by
  rw [newExtras_eq]
  exact Migration.keys_movedEntries_sublist _ _

theorem nodup_keys_newExtras : (keys old.newExtras).Nodup :=
  old.keys_newExtras_sublist.nodup (by decide)

/-- Retired fields are not known. -/
theorem get?_fields_of_known {name : String} (hname : (Request.record.field? name).isSome = true) :
    get? old.fields name = none := by
  have hunknown : ∀ name ∈ Migration.fields.map RetiredField.oldName,
      (Request.record.field? name).isSome = false := by decide
  refine Dict.get?_eq_none_iff.2 fun hmem ↦ ?_
  rw [hunknown name (old.retired name hmem)] at hname
  cases hname

end RetiredValues

namespace RawRequest

variable (d : RawRequest) (old : RetiredValues)

theorem nodup_keys : (keys d.fields).Nodup := (Json.wellFormed_obj_iff.1 d.wellFormed).1

theorem nodup_keys_extras : (keys d.extras).Nodup := by
  rw [extras]
  cases h : get? d.fields "extras" with
  | none => simp [keys]
  | some v =>
    cases v with
    | obj x => exact (Json.wellFormed_obj_iff.1 (d.wellFormed.of_get? h)).1
    | null | bool | num | str | arr => simp [Json.asFields?, keys]

theorem nodup_keys_withGranularity : (keys (d.withGranularity old)).Nodup := by
  rw [withGranularity]
  split
  · exact Dict.nodup_keys_insert _ _ d.nodup_keys
  · exact d.nodup_keys

theorem nodup_keys_translate : (keys (d.translate old)).Nodup := by
  rw [translate]
  split
  · exact d.nodup_keys_withGranularity old
  · exact Dict.nodup_keys_insert _ _ (d.nodup_keys_withGranularity old)

theorem get?_withGranularity_of_ne {name : String} (h : "granularity" ≠ name) :
    get? (d.withGranularity old) name = get? d.fields name := by
  rw [withGranularity]
  split
  · exact Dict.get?_insert_of_ne h
  · rfl

theorem get?_translate_of_ne {name : String} (h : "extras" ≠ name) :
    get? (d.translate old) name = get? (d.withGranularity old) name := by
  rw [translate]
  split
  · rfl
  · exact Dict.get?_insert_of_ne h

/-- What is rewritten is known. -/
theorem filter_translate :
    ((d.translate old).filter fun entry ↦ (Request.record.field? entry.1).isNone) =
      d.fields.filter fun entry ↦ (Request.record.field? entry.1).isNone := by
  have hinsert {name : String} (hname : (Request.record.field? name).isNone = false)
      (e : Dict Json) (v : Json) :
      ((insert e name v).filter fun entry ↦ (Request.record.field? entry.1).isNone) =
        e.filter fun entry ↦ (Request.record.field? entry.1).isNone :=
    Dict.filter_insert (p := fun key ↦ (Request.record.field? key).isNone) hname e v
  have hgranularity : ((d.withGranularity old).filter
      fun entry ↦ (Request.record.field? entry.1).isNone) =
        d.fields.filter fun entry ↦ (Request.record.field? entry.1).isNone := by
    rw [withGranularity]
    split
    · exact hinsert rfl _ _
    · rfl
  rw [translate]
  split
  · exact hgranularity
  · exact (hinsert rfl _ _).trans hgranularity

section

variable {d} {r : Request} (hr : r.ReadFrom d.fields)
include hr

theorem extras_eq : d.extras = r.extras.getD [] := by
  rw [extras]
  rcases Dict.optional_eq_ok hr.extras with ⟨hnone | hnull, hx⟩ | ⟨v, x, hv, -, hx, hsome⟩
  · rw [hnone, hx]
    rfl
  · rw [hnull, hx]
    rfl
  · rw [hv, hsome, Shape.fields_eq_ok (d.wellFormed.of_get? hv) hx]
    rfl

theorem optional_granularity_translate : (d.translate old).optional "granularity" Shape.text =
    .ok (old.granularity.or r.granularity) := by
  have hget : get? (d.translate old) "granularity" = get? (d.withGranularity old) "granularity" :=
    d.get?_translate_of_ne old (by decide)
  have hgranularity := hr.granularity
  rw [Dict.optional] at hgranularity
  rw [Dict.optional, hget, withGranularity]
  cases old.granularity with
  | none => simpa using hgranularity
  | some s =>
    rw [RetiredField.granularity, Dict.get?_insert_self]
    rfl

theorem optional_extras_translate : (d.translate old).optional "extras" Shape.fields =
    .ok (if old.newExtras.isEmpty then r.extras
      else some (insertAll (r.extras.getD []) old.newExtras)) := by
  have hget : get? (d.withGranularity old) "extras" = get? d.fields "extras" :=
    d.get?_withGranularity_of_ne old (by decide)
  rw [translate]
  split
  · rw [Dict.optional_congr _ hget, hr.extras]
  · have hnodup : (keys (insertAll d.extras old.newExtras)).Nodup :=
      Dict.nodup_keys_insertAll _ d.nodup_keys_extras
    rw [Dict.optional, Dict.get?_insert_self, ← extras_eq hr]
    exact congrArg (fun x ↦ Except.ok (some x)) (Dict.ofEntries_eq_self hnodup)

/-- **The translation of a request can be read**, with another granularity and other extras. -/
theorem readFrom_translate : (r.translate old).ReadFrom (d.translate old) := by
  have hread := hr.rewrite d.nodup_keys (d.nodup_keys_translate old) (fun name hname _ ↦ ?_)
    (optional_granularity_translate old hr) (optional_extras_translate old hr)
  · rwa [filter_translate, ← hr.legacy] at hread
  · rw [List.mem_cons, List.mem_singleton, not_or] at hname
    rw [d.get?_translate_of_ne old (Ne.symm hname.2),
      d.get?_withGranularity_of_ne old (Ne.symm hname.1)]

variable {e : Dict Json} (hnew : ∀ f ∈ Migration.fields, f.oldName ∉ keys d.fields)
  (he : e.Perm (d.fields ++ old.fields))
include hnew he

omit hr in
theorem nodup_keys_withRetired : (keys e).Nodup := by
  rw [keys, (he.map Prod.fst).nodup_iff, List.map_append, List.nodup_append]
  refine ⟨d.nodup_keys, (Json.wellFormed_obj_iff.1 old.wellFormed).1, ?_⟩
  rintro key hkey _ hkey' rfl
  obtain ⟨f, hf, rfl⟩ := List.mem_map.1 (old.retired key hkey')
  exact hnew f hf hkey

omit hr in
theorem get?_withRetired (name : String) :
    get? e name = (get? d.fields name).or (get? old.fields name) := by
  rw [Dict.get?_perm (nodup_keys_withRetired old hnew he) he, Dict.get?_append]

/-- **The request with retired fields can be read**, with other fields that are not known. -/
theorem readFrom_withRetired : (r.withUnknown e).ReadFrom e := by
  have hget {name : String} (hname : (Request.record.field? name).isSome = true) :
      get? e name = get? d.fields name := by
    rw [get?_withRetired old hnew he, old.get?_fields_of_known hname, Option.or_none]
  exact hr.rewrite d.nodup_keys (nodup_keys_withRetired old hnew he) (fun name _ ↦ hget)
    ((Dict.optional_congr _ (hget rfl)).trans hr.granularity)
    ((Dict.optional_congr _ (hget rfl)).trans hr.extras)

end

end RawRequest

/-! ## Moving the retired fields -/

namespace RawRequest

variable {d : RawRequest} {old : RetiredValues} {legacy : Dict Json}

section

variable (h : ∀ f ∈ Migration.fields, get? legacy f.oldName = get? old.fields f.oldName)
include h

theorem newGranularity_withRetired (granularity : Option String) :
    Migration.newGranularity granularity (Migration.moved? legacy .granularity) =
      .ok (old.granularity.or granularity) := by
  have hmoved : Migration.moved? legacy .granularity =
      get? old.fields RetiredField.granularity.oldName := by
    rw [Migration.moved?, h _ List.mem_cons_self, ← Migration.moved?, old.moved?_eq]
  rw [hmoved, RetiredValues.granularity]
  cases hv : get? old.fields RetiredField.granularity.oldName with
  | none => rfl
  | some v =>
    obtain ⟨s, rfl⟩ := old.text v hv
    rfl

theorem movedEntries_withRetired :
    Migration.movedEntries legacy RetiredField.inExtras = old.newExtras := by
  rw [old.newExtras_eq]
  refine List.filterMap_congr fun f hf ↦ ?_
  rw [Migration.moved?, h f (List.mem_cons_of_mem _ hf), ← Migration.moved?]

theorem granularityNotices_withRetired {r : Request} (hr : r.ReadFrom d.fields) :
    Migration.granularityNotices legacy r.granularity =
      if Dict.contains old.fields RetiredField.granularity.oldName then
        .renamed .granularity ::
          if Migration.isPopulated d.fields RetiredField.granularity.newName then
            [.overwritten .granularity] else []
      else [] := by
  have hset : Migration.isPopulated d.fields "granularity" = r.granularity.isSome :=
    Request.isPopulated_of_optional hr.granularity
  rw [Migration.granularityNotices, h _ List.mem_cons_self, Dict.contains]
  cases hv : get? old.fields RetiredField.granularity.oldName with
  | none => rfl
  | some v =>
    have htruthy : v.truthy = true := old.truthy _ (Dict.mem_of_get? hv)
    simp [htruthy, RetiredField.granularity, hset]

theorem extrasNotices_withRetired (settings : Settings) {f : RetiredField}
    (hf : f ∈ RetiredField.inExtras) :
    Migration.extrasNotices legacy (Query.withEndpoints settings d.extras) f =
      if Dict.contains old.fields f.oldName then
        .movedToExtras f ::
          if Migration.isPopulated d.extras f.newName then [.overwrittenInExtras f] else []
      else [] := by
  have hne : ∀ f ∈ RetiredField.inExtras, "time_range_endpoints" ≠ f.newName := by decide
  have hpopulated : Migration.isPopulated (Query.withEndpoints settings d.extras) f.newName =
      Migration.isPopulated d.extras f.newName := by
    rw [Query.withEndpoints]
    split
    · rw [Migration.isPopulated, Dict.get?_insert_of_ne (hne f hf), Migration.isPopulated]
    · rfl
  rw [Migration.extrasNotices, h f (List.mem_cons_of_mem _ hf), hpopulated, Dict.contains]
  cases hv : get? old.fields f.oldName with
  | none => rfl
  | some v =>
    have htruthy : v.truthy = true := old.truthy _ (Dict.mem_of_get? hv)
    simp [htruthy]

/-- **What moving retired fields comes to**, and what it warns about. -/
theorem run_withRetired {r : Request} (hr : r.ReadFrom d.fields) (settings : Settings) :
    Migration.run legacy r.granularity (Query.withEndpoints settings (r.extras.getD [])) =
      .ok ⟨old.granularity.or r.granularity,
        insertAll (Query.withEndpoints settings (r.extras.getD [])) old.newExtras,
        d.notices old⟩ := by
  rw [Migration.run_eq, newGranularity_withRetired h, movedEntries_withRetired h,
    granularityNotices_withRetired h hr, ← extras_eq hr,
    List.flatMap_congr fun f hf ↦ extrasNotices_withRetired h settings hf]
  rfl

end

end RawRequest

/-! ## Making queries of a request and its translation -/

namespace Query

variable {settings : Settings} {directory : Directory} {now : Instant}

/-- The ends of the time range can be set before or after other extras. -/
theorem insertAll_withEndpoints_perm {extras new : Dict Json} (hextras : (keys extras).Nodup)
    (hnew : (keys new).Nodup) (h : "time_range_endpoints" ∉ keys new) :
    (insertAll (withEndpoints settings extras) new).Perm
      (withEndpoints settings (insertAll extras new)) := by
  rw [withEndpoints, withEndpoints, Dict.get?_insertAll_of_notMem h]
  split
  · exact Dict.insertAll_insert_perm _ hextras hnew h
  · exact List.Perm.refl _

theorem anchors_insertAll {extras new : Dict Json} (hstart : "relative_start" ∉ keys new)
    (hend : "relative_end" ∉ keys new) :
    anchors settings (insertAll extras new) now = anchors settings extras now := by
  simp only [anchors, Dict.get?_insertAll_of_notMem hstart, Dict.get?_insertAll_of_notMem hend]

/-- The order of the extras does not go into the key, and neither do the warnings. -/
theorem keyAgree_of_extras_perm {q : Query} {extras : Dict Json} (hq : (keys q.extras).Nodup)
    (h : q.extras.Perm extras) (warnings : List Warning) :
    KeyAgree q { q with extras := extras, warnings := warnings } := by
  have hperm : (Dict.mapValues Json.sorted q.extras).Perm (Dict.mapValues Json.sorted extras) :=
    h.map _
  have hsorted : Json.sorted (.obj q.extras) = Json.sorted (.obj extras) := by
    rw [Json.sorted_obj, Json.sorted_obj, (Dict.sortKeys_eq_iff_perm (by simpa using hq)).2 hperm]
  exact ⟨rfl, rfl, rfl, rfl, rfl, rfl, rfl, rfl, rfl, rfl, rfl, hsorted, rfl, rfl, rfl, rfl, rfl,
    rfl, rfl, rfl⟩

section

variable {d : RawRequest} {old : RetiredValues} {r : Request} {e : Dict Json}
  (hr : r.ReadFrom d.fields) (hnew : ∀ f ∈ Migration.fields, f.oldName ∉ keys d.fields)
  (he : e.Perm (d.fields ++ old.fields))
include hr hnew he

/-- **The two requests that are read become queries alike**, or neither becomes one. -/
theorem ofRequest_translate :
    (∃ reason, ofRequest settings directory now (r.withUnknown e) = .error reason ∧
      ofRequest settings directory now (r.translate old) = .error reason) ∨
    ∃ q extras, ofRequest settings directory now (r.withUnknown e) = .ok q ∧
      ofRequest settings directory now (r.translate old) =
        .ok { q with extras := extras, warnings := [] } ∧
      (keys q.extras).Nodup ∧ q.extras.Perm extras ∧ q.warnings = d.notices old := by
  have hnames : ∀ name ∉ RetiredField.inExtras.map RetiredField.newName,
      name ∉ keys old.newExtras :=
    fun name hname hmem ↦ hname (old.keys_newExtras_sublist.subset hmem)
  have hlegacy : ∀ f ∈ Migration.fields,
      get? (r.withUnknown e).legacy f.oldName = get? old.fields f.oldName := by
    intro f hf
    rw [Request.withUnknown, Migration.get?_unknown e hf, RawRequest.get?_withRetired old hnew he,
      Dict.get?_eq_none_iff.2 (hnew f hf), Option.none_or]
  have habsent : ∀ f ∈ Migration.fields, get? r.legacy f.oldName = none := by
    intro f hf
    rw [hr.legacy, Migration.get?_unknown _ hf, Dict.get?_eq_none_iff.2 (hnew f hf)]
  have hanchors : anchors settings ((r.translate old).extras.getD []) now =
      anchors settings (r.extras.getD []) now := by
    rw [Request.translate_extras, anchors_insertAll (hnames _ (by decide)) (hnames _ (by decide))]
  have hmoved := RawRequest.run_withRetired hlegacy hr settings
  have hkept := Migration.run_of_absent habsent (r.translate old).granularity
    (withEndpoints settings ((r.translate old).extras.getD []))
  rcases @ofRequest_rewrite settings directory now (r.withUnknown e) _ _ _ _ _ hanchors hmoved
    hkept with hfail | ⟨q, hq, hmigrated, hq'⟩
  · exact .inl hfail
  · have hgranularity : q.granularity = (r.translate old).granularity :=
      congrArg Migration.granularity hmigrated
    have hextras : q.extras = insertAll (withEndpoints settings (r.extras.getD [])) old.newExtras :=
      congrArg Migration.extras hmigrated
    have hnodup : (keys (r.extras.getD [])).Nodup := RawRequest.extras_eq hr ▸ d.nodup_keys_extras
    have hsame (extras : Dict Json) : q.withMigration ⟨(r.translate old).granularity, extras, []⟩ =
        { q with extras := extras, warnings := [] } := by
      rw [withMigration, ← hgranularity]
    refine .inr ⟨q, withEndpoints settings ((r.translate old).extras.getD []), hq,
      hq'.trans (congrArg Except.ok (hsame _)), ?_, ?_, congrArg Migration.warnings hmigrated⟩
    · rw [hextras]
      exact Dict.nodup_keys_insertAll _ (nodup_keys_withEndpoints hnodup)
    · rw [hextras, Request.translate_extras]
      exact insertAll_withEndpoints_perm hnodup old.nodup_keys_newExtras (hnames _ (by decide))

end

/-- **A request with retired fields means what its translation means.**  Either neither becomes a
query, for the same reason, or both do, and the queries differ in the order of their extras and in
the warnings only.  The translation brings no warnings. -/
theorem ofJson_translate (d : RawRequest) (old : RetiredValues)
    (hnew : ∀ f ∈ Migration.fields, f.oldName ∉ keys d.fields) {r : Request}
    (hread : Request.read (.obj d.fields) = .ok r) {e : Dict Json}
    (he : e.Perm (d.fields ++ old.fields)) :
    (∃ reason, ofJson settings directory now (.obj e) = .error reason ∧
      ofJson settings directory now (.obj (d.translate old)) = .error reason) ∨
    ∃ q q', ofJson settings directory now (.obj e) = .ok q ∧
      ofJson settings directory now (.obj (d.translate old)) = .ok q' ∧
      q' = { q with extras := q'.extras, warnings := [] } ∧ q.extras.Perm q'.extras ∧
      (∀ extra, q.cacheKey extra = q'.cacheKey extra) ∧ q.warnings = d.notices old := by
  obtain ⟨_, hd, hr⟩ := Request.read_eq_ok hread
  cases hd
  have hmade {fields : Dict Json} {r : Request} (hr : r.ReadFrom fields) :
      ofJson settings directory now (.obj fields) = ofRequest settings directory now r := by
    rw [ofJson, Request.read_eq_of_readFrom hr]
    rfl
  rw [hmade (RawRequest.readFrom_withRetired old hr hnew he),
    hmade (RawRequest.readFrom_translate old hr)]
  rcases ofRequest_translate hr hnew he with hfail | ⟨q, extras, hq, hq', hnodup, hperm, hwarnings⟩
  · exact .inl hfail
  · exact .inr ⟨q, _, hq, hq', rfl, hperm, (keyAgree_of_extras_perm hnodup hperm []).cacheKey_eq,
      hwarnings⟩

/-! ## A request of a former version -/

/-- A request with a granularity and a filter. -/
def filteredRequest : RawRequest where
  fields := [("granularity", .str "ds"), ("extras", .obj [("where", .str "a > 1")])]
  wellFormed := by simp [Json.WellFormed, Json.WellFormedFields, Dict.keys]

/-- Others under their former names. -/
def filteredValues : RetiredValues where
  fields := [
    ("where", .str "b > 1"), ("having_filters", .str "c > 1"), ("granularity_sqla", .str "created")]
  wellFormed := by simp [Json.WellFormed, Json.WellFormedFields, Dict.keys]
  retired := by decide
  truthy := by decide
  text := by
    intro v hv
    exact ⟨"created", (Option.some.inj hv).symm⟩

theorem read_filteredRequest : ∃ r, Request.read (.obj filteredRequest.fields) = .ok r :=
  ⟨_, rfl⟩

/-- Settings that ask for the ends of the time range. -/
def endpointSettings : Settings := { Settings.initial with endpoints := true }

/-- The ends of the time range that are set then. -/
def endpointsEntry : String × Json :=
  ("time_range_endpoints", .arr [.str "inclusive", .str "exclusive"])

/-- The query that both requests mean, but for the order of its extras. -/
def filteredQuery (extras : Dict Json) (warnings : List Warning) : Query :=
  { blank with granularity := some "created", extras := extras, warnings := warnings }

theorem ofJson_filteredRequest :
    ofJson endpointSettings [] ⟨0, 0⟩ (.obj (filteredValues.fields ++ filteredRequest.fields)) =
        .ok (filteredQuery
          [("where", .str "b > 1"), endpointsEntry, ("having_druid", .str "c > 1")]
          [.renamed .granularity, .overwritten .granularity, .movedToExtras ⟨"where", "where"⟩,
            .overwrittenInExtras ⟨"where", "where"⟩,
            .movedToExtras ⟨"having_filters", "having_druid"⟩]) ∧
      ofJson endpointSettings [] ⟨0, 0⟩ (.obj (filteredRequest.translate filteredValues)) =
        .ok (filteredQuery
          [("where", .str "b > 1"), ("having_druid", .str "c > 1"), endpointsEntry] []) := by
  decide +kernel

/-- Two fields are overwritten, one is new, and the ends of the time range stand elsewhere. -/
theorem filteredRequest_ofJson_translate :
    ∃ q q', ofJson endpointSettings [] ⟨0, 0⟩
        (.obj (filteredValues.fields ++ filteredRequest.fields)) = .ok q ∧
      ofJson endpointSettings [] ⟨0, 0⟩ (.obj (filteredRequest.translate filteredValues)) =
        .ok q' ∧
      q.extras ≠ q'.extras ∧ q.cacheKey [] = q'.cacheKey [] ∧ q.warnings.length = 5 := by
  obtain ⟨r, hr⟩ := read_filteredRequest
  obtain ⟨hq, hq'⟩ := ofJson_filteredRequest
  rcases @ofJson_translate endpointSettings [] ⟨0, 0⟩ filteredRequest filteredValues (by decide) r
    hr _ List.perm_append_comm with ⟨reason, hfail, -⟩ | ⟨p, p', hp, hp', -, -, hkey, hwarnings⟩
  · cases hq.symm.trans hfail
  · refine ⟨p, p', hp, hp', ?_, hkey [], by rw [hwarnings]; rfl⟩
    cases hq.symm.trans hp
    cases hq'.symm.trans hp'
    decide

end Query

end ChartFeed
