import ChartFeed.Proofs.Query.Extras
import ChartFeed.Proofs.Query.KeyPayload
import ChartFeed.Proofs.Transform.KeyOrder

/-!
# What requests with one key have in common

Two requests that are digested to the same text are answered from one entry of the cache.  They ask
for the same rows of the same window, and their steps are alike.  But the text sorts the fields of
every object, and some steps depend on the order of fields in their options.

* `Query.keyOrders` — what the steps of a query keep of the order of fields;
* `Query.steps_alike` — steps with the same text are alike;
* `KeyAgree.window_eq` — the windows are the same;
* `Query.payload_iff_keyOrders` — the requests do the same, step by step, exactly when their steps
  keep the same order;
* `Query.applySteps_total_sort` — but together steps may do the same although they keep another
  order.
-/

set_option autoImplicit false

namespace ChartFeed.Query

open Json (sorted)

/-! ## Steps -/

/-- What the steps of a query keep of the order of fields. -/
def keyOrders (q : Query) : List (List String × Option Cell) :=
  q.postProcessing.map fun s ↦ s.transform.keyOrder

/-- The steps do the same to every table, one by one. -/
def SameSteps (steps steps' : List Step) : Prop :=
  List.Forall₂ (fun s s' ↦ ∀ t, s.transform.apply t = s'.transform.apply t) steps steps'

/-- Steps that do the same one by one do the same together. -/
theorem applySteps_congr {steps steps' : List Step} (h : SameSteps steps steps') (t : Table) :
    applySteps steps t = applySteps steps' t := by
  induction h generalizing t with
  | nil => rfl
  | cons hs _ ih =>
    rw [applySteps, applySteps, hs]
    exact bind_congr ih

/-- Steps that are the same when sorted are alike. -/
theorem steps_alike {values values' : List Json} {steps steps' : List Step}
    (hv : ∀ v ∈ values, v.WellFormed) (hv' : ∀ v ∈ values', v.WellFormed)
    (h : Step.readAll values = .ok steps) (h' : Step.readAll values' = .ok steps')
    (hsorted : (steps.map fun s ↦ sorted s.source) = steps'.map fun s ↦ sorted s.source) :
    List.Forall₂ (fun s s' ↦ s.transform.Alike s'.transform) steps steps' := by
  have hsource : ∀ s ∈ steps, s.source.WellFormed := fun s hs ↦ by
    have hmem := List.mem_map_of_mem (f := Step.source) hs
    rw [Step.sources_of_readAll h] at hmem
    exact hv _ (List.mem_filter.1 hmem).1
  have hsource' : ∀ s ∈ steps', s.source.WellFormed := fun s hs ↦ by
    have hmem := List.mem_map_of_mem (f := Step.source) hs
    rw [Step.sources_of_readAll h'] at hmem
    exact hv' _ (List.mem_filter.1 hmem).1
  have hread : ∀ s ∈ steps, Transform.read s.source = .ok s.transform :=
    fun s ↦ Step.transform_of_mem_readAll h
  have hread' : ∀ s ∈ steps', Transform.read s.source = .ok s.transform :=
    fun s ↦ Step.transform_of_mem_readAll h'
  clear h h'
  induction steps generalizing steps' with
  | nil =>
    rw [List.map_eq_nil_iff.1 hsorted.symm]
    exact .nil
  | cons s steps ih =>
    cases steps' with
    | nil => cases hsorted
    | cons s' steps' =>
      rw [List.map_cons, List.map_cons, List.cons_eq_cons] at hsorted
      rw [List.forall_mem_cons] at hsource hsource' hread hread'
      have halike : Json.Alike s.source s'.source := ⟨hsource.1, hsource'.1, hsorted.1⟩
      exact .cons (Transform.read_alike halike hread.1 hread'.1)
        (ih hsorted.2 hsource.2 hsource'.2 hread.2 hread'.2)

/-- **Alike steps do the same exactly when they keep the same order.** -/
theorem sameSteps_iff {steps steps' : List Step}
    (h : List.Forall₂ (fun s s' ↦ s.transform.Alike s'.transform) steps steps') :
    SameSteps steps steps' ↔
      (steps.map fun s ↦ s.transform.keyOrder) = steps'.map fun s ↦ s.transform.keyOrder := by
  rw [SameSteps]
  induction h with
  | nil => simp
  | cons hs _ ih => rw [List.forall₂_cons, hs.apply_eq_iff, ih, List.map_cons, List.map_cons,
      List.cons_eq_cons]

/-- A single step does what the steps do together. -/
theorem sameSteps_of_applySteps {steps steps' : List Step} (hlength : steps.length = steps'.length)
    (hone : steps.length ≤ 1) (h : ∀ t, applySteps steps t = applySteps steps' t) :
    SameSteps steps steps' := by
  have hstep (s : Step) (t : Table) : applySteps [s] t = s.transform.apply t := by
    simp only [applySteps]
    exact bind_pure _
  match steps, steps' with
  | [], [] => exact .nil
  | [s], [s'] =>
    refine .cons (fun t ↦ ?_) .nil
    rw [← hstep, ← hstep, h]

/-! ## Windows -/

variable {settings : Settings} {directory : Directory} {now : Instant} {q q' : Query}

theorem timeRange_eq_of_windowEntries_eq {r r' : Request}
    (hq : NormalOf settings directory now r q) (hq' : NormalOf settings directory now r' q')
    (h : q.windowEntries = q'.windowEntries) : q.timeRange = q'.timeRange := by
  rw [hq.windowEntries_eq, hq'.windowEntries_eq] at h
  exact Option.map_injective (fun _ _ ↦ Json.str.inj) (optionalEntry_injective h)

/-- **Queries that agree have one window**, seen from one instant. -/
theorem KeyAgree.window_eq (h : KeyAgree q q') {d d' : Dict Json} {r r' : Request}
    (hd : (Json.obj d).WellFormed) (hd' : (Json.obj d').WellFormed) (hr : r.ReadFrom d)
    (hr' : r'.ReadFrom d') (hq : NormalOf settings directory now r q)
    (hq' : NormalOf settings directory now r' q') : q.window = q'.window := by
  have hextras := hq.wellFormed_extras hd hr
  have hextras' := hq'.wellFormed_extras hd' hr'
  have halike : Dict.Alike q.extras q'.extras :=
    (Json.alike_obj_iff hextras hextras').1 ⟨hextras, hextras', h.extras⟩
  have hwindow := hq.window_eq
  rw [timeRange_eq_of_windowEntries_eq hq hq' h.window, h.timeShiftText,
    anchors_eq_of_alike halike, hq'.window_eq] at hwindow
  exact (Except.ok.inj hwindow).symm

/-! ## One key -/

/-- **What requests with one key have in common.**  They want the same kind of result, the same rows
and the same window.  Their steps do the same, one by one, exactly when they keep the same order of
fields; then the requests make the same of every table, and for a single step only then.  What
several steps do together says less about each of them (`applySteps_total_sort`). -/
theorem payload_iff_keyOrders {v v' : Json} (hv : v.WellFormed) (hv' : v'.WellFormed)
    (hq : ofJson settings directory now v = .ok q) (hq' : ofJson settings directory now v' = .ok q')
    (htext : (Json.obj (q.keyPayload [])).canonicalText =
      (Json.obj (q'.keyPayload [])).canonicalText) :
    (q.resultType = q'.resultType ∧ q.rowLimit = q'.rowLimit ∧ q.rowOffset = q'.rowOffset ∧
        q.isRowcount = q'.isRowcount ∧ q.window = q'.window) ∧
      (q.keyOrders = q'.keyOrders → ∀ t, q.postProcess t = q'.postProcess t) ∧
      (q.keyOrders = q'.keyOrders ↔ SameSteps q.postProcessing q'.postProcessing) ∧
      (q.postProcessing.length ≤ 1 →
        ((∀ t, q.postProcess t = q'.postProcess t) ↔ q.keyOrders = q'.keyOrders)) := by
  have hagree := keyAgree_iff.2 htext
  obtain ⟨d, r, rfl, hr, hnormal⟩ := ofJson_eq_ok hq
  obtain ⟨d', r', rfl, hr', hnormal'⟩ := ofJson_eq_ok hq'
  have halike := steps_alike (Request.wellFormed_of_items hv hr.postProcessing)
    (Request.wellFormed_of_items hv' hr'.postProcessing) hnormal.postProcessing
    hnormal'.postProcessing hagree.steps
  have hsteps := sameSteps_iff halike
  have hpost (horders : q.keyOrders = q'.keyOrders) (t : Table) :
      q.postProcess t = q'.postProcess t := applySteps_congr (hsteps.2 horders) t
  refine ⟨⟨hagree.resultType, hagree.rowLimit, hagree.rowOffset, hagree.isRowcount,
    hagree.window_eq hv hv' hr hr' hnormal hnormal'⟩, hpost, hsteps.symm, fun hone ↦ ?_⟩
  exact ⟨fun h ↦ hsteps.1 (sameSteps_of_applySteps halike.length_eq hone h), hpost⟩

/-- **Several steps may hide an order that each of them would show.**  A summary of all rows makes
one row of them, in which nothing is to be sorted.  So the order of the columns to sort by does not
matter after it, and the condition for a single step is not one for several. -/
theorem applySteps_total_sort {s : Summary} (hs : s.groupby = []) {r r' : RowSort}
    (hr : ∀ name ∈ r.columns.keys, name ∈ s.aggregates.map Aggregate.name)
    (hr' : ∀ name ∈ r'.columns.keys, name ∈ s.aggregates.map Aggregate.name) (v w w' : Json)
    (t : Table) :
    applySteps [⟨v, .aggregate s⟩, ⟨w, .sort r⟩] t =
      applySteps [⟨v, .aggregate s⟩, ⟨w', .sort r'⟩] t := by
  have hsort {r : RowSort} (hr : ∀ name ∈ r.columns.keys, name ∈ s.aggregates.map Aggregate.name)
      (w : Json) : applySteps [⟨v, .aggregate s⟩, ⟨w, .sort r⟩] t = s.apply t := by
    calc applySteps [⟨v, .aggregate s⟩, ⟨w, .sort r⟩] t
        = s.apply t >>= fun u ↦ r.apply u >>= pure := rfl
      _ = s.apply t >>= r.apply := by simp only [bind_pure]
      _ = s.apply t := Summary.apply_bind_sort hs hr t
  rw [hsort hr, hsort hr']

/-! ## Two requests with one key -/

/-- A step that sorts upward by two columns, of which the first matters most. -/
def sortStep (first second : String) : Json := .obj [
  ("operation", .str "sort"),
  ("options", .obj [("columns", .obj [(first, .bool true), (second, .bool true)])])]

/-- A request with such a step. -/
def sortRequest (first second : String) : Json :=
  .obj [("post_processing", .arr [sortStep first second])]

/-- The query that the request means. -/
def sortQuery (first second : String) (h : first ≠ second) : Query :=
  { blank with postProcessing := [⟨sortStep first second,
    .sort ⟨⟨[(first, true), (second, true)], by simpa [Dict.keys] using h⟩⟩⟩] }

/-- Two rows that the two columns put in opposite orders. -/
def crossedTable : Table :=
  ⟨[⟨.plain "a", [.int 1, .int 2]⟩, ⟨.plain "b", [.int 2, .int 1]⟩]⟩

theorem ofJson_sortRequest :
    ofJson .initial [] ⟨0, 0⟩ (sortRequest "a" "b") = .ok (sortQuery "a" "b" (by decide)) ∧
      ofJson .initial [] ⟨0, 0⟩ (sortRequest "b" "a") = .ok (sortQuery "b" "a" (by decide)) := by
  decide +kernel

theorem text_sortQuery :
    (Json.obj ((sortQuery "a" "b" (by decide)).keyPayload [])).canonicalText =
      (Json.obj ((sortQuery "b" "a" (by decide)).keyPayload [])).canonicalText := by
  rw [Json.canonicalText_eq_iff]
  decide +kernel

theorem wellFormed_sortRequest {first second : String} (h : first ≠ second) :
    (sortRequest first second).WellFormed := by
  simp [sortRequest, sortStep, Json.WellFormed, Json.WellFormedFields, Json.WellFormedItems,
    Dict.keys, h]

/-- The two requests have one window and rows in common, and differ in what they do. -/
theorem sortRequests_payload_iff_keyOrders :
    (sortQuery "a" "b" (by decide)).window = (sortQuery "b" "a" (by decide)).window ∧
      ¬ ∀ t, (sortQuery "a" "b" (by decide)).postProcess t =
        (sortQuery "b" "a" (by decide)).postProcess t := by
  obtain ⟨⟨-, -, -, -, hwindow⟩, -, -, hone⟩ :=
    payload_iff_keyOrders (wellFormed_sortRequest (by decide)) (wellFormed_sortRequest (by decide))
      ofJson_sortRequest.1 ofJson_sortRequest.2 text_sortQuery
  refine ⟨hwindow, fun hpost ↦ ?_⟩
  have horders := (hone (by decide)).1 hpost
  exact absurd horders (by decide)

/-- **One key, two answers**: the order of the columns to sort by is lost in the text. -/
theorem sortRequests_sameKey_postProcess_ne :
    ofJson .initial [] ⟨0, 0⟩ (sortRequest "a" "b") = .ok (sortQuery "a" "b" (by decide)) ∧
      ofJson .initial [] ⟨0, 0⟩ (sortRequest "b" "a") = .ok (sortQuery "b" "a" (by decide)) ∧
      (Json.obj ((sortQuery "a" "b" (by decide)).keyPayload [])).canonicalText =
        (Json.obj ((sortQuery "b" "a" (by decide)).keyPayload [])).canonicalText ∧
      (sortQuery "a" "b" (by decide)).postProcess crossedTable ≠
        (sortQuery "b" "a" (by decide)).postProcess crossedTable := by
  refine ⟨ofJson_sortRequest.1, ofJson_sortRequest.2, text_sortQuery, ?_⟩
  decide +kernel

end ChartFeed.Query
