import ChartFeed.Proofs.Transform.Bounds

/-!
# Steps on tables with columns of one length

What `ChartFeed.Proofs.Transform.Bounds` says about each transform is put together here, first for
any transform and then, with one induction over the list, for any steps.

* `Transform.rectangular_result`, `Transform.rowCount_result` — the columns stay equally long, and
  the transforms that say something about every row keep their number;
* `Transform.strictApply_eq` — no lookup misses;
* `Step.SafeOn` — all of this after every step of a list;
* `Step.forall_prefix_iff` — whatever else the tables on the way are to have in common, it is enough
  to say what one step has to do to keep it.
-/

set_option autoImplicit false

namespace ChartFeed

namespace Transform

/-- The table that a transform makes of one that has the columns it refers to, unless a row is
looked up that a column does not have. -/
def strictResult : Transform → Table → Option Table
  | .aggregate s, t => s.strictResult t
  | .pivot p, t => p.strictResult t
  | .sort s, t => s.strictResult t
  | .rolling r, t =>
    (t.strictComputed r.mode.strictCells r.columns.entries).map t.upsertAll
  -- selecting, and running totals, go through columns without looking up rows
  | .select s, t => some (s.result t)
  | .diff d, t =>
    (t.strictComputed (Difference.strictDifferences d.periods) d.columns.entries).map t.upsertAll
  | .cum r, t =>
    some (t.upsertAll (t.computed (Running.accumulate r.accumulation none) r.columns.entries))
  | .contribution c, t => c.strictResult t

/-- Applies a transform, unless a row is looked up that a column does not have. -/
def strictApply (f : Transform) (t : Table) : Option (Except Rejection Table) :=
  match t.requireAll f.references with
  | .error e => some (.error e)
  | .ok () => (f.strictResult t).map .ok

/-- The transform has something to say about every row, and nothing else. -/
def KeepsRows : Transform → Prop
  | .sort _ | .rolling _ | .diff _ | .cum _ | .contribution _ => True
  | .aggregate _ | .pivot _ | .select _ => False

variable {f : Transform} {t : Table}

theorem strictResult_eq (ht : t.Rectangular) (h : t.HasColumns f.references) :
    f.strictResult t = some (f.result t) := by
  cases f with
  | aggregate s => exact Summary.strictResult_eq ht h
  | pivot p => exact Pivot.strictResult_eq ht h
  | sort s => exact RowSort.strictResult_eq ht h
  | rolling r => rw [strictResult, Table.strictComputed_eq r.mode.strictCells_eq]; rfl
  | select s => rfl
  | diff d => rw [strictResult, Table.strictComputed_eq (Difference.strictDifferences_eq _)]; rfl
  | cum r => rfl
  | contribution c => exact Contribution.strictResult_eq ht h

/-- **Every row that a transform looks up is there.** -/
theorem strictApply_eq (f : Transform) (ht : t.Rectangular) :
    f.strictApply t = some (f.apply t) := by
  rw [strictApply, apply_eq f ht]
  cases hall : t.requireAll f.references with
  | error e => rfl
  | ok u =>
    simp only [strictResult_eq ht (Table.requireAll_eq_ok_iff.1 hall)]
    rfl

/-- What is stored back into a table, for the transforms that do so. -/
theorem upsertAll_of_keepsRows (hf : f.KeepsRows) (hsort : ∀ s, f ≠ .sort s) (ht : t.Rectangular)
    (h : t.HasColumns f.references) : ∃ assignments : List (String × List Cell),
      f.result t = t.upsertAll assignments ∧ ∀ a ∈ assignments, a.2.length = t.rowCount := by
  cases f with
  | aggregate s => exact hf.elim
  | pivot p => exact hf.elim
  | sort s => exact absurd rfl (hsort s)
  | rolling r => exact ⟨_, rfl, ht.length_computed r.mode.length_cells h⟩
  | select s => exact hf.elim
  | diff d => exact ⟨_, rfl, ht.length_computed (Difference.length_differences _) h⟩
  | cum r => exact ⟨_, rfl, ht.length_computed (Running.length_accumulate _ _) h⟩
  | contribution c =>
    exact ⟨_, rfl, fun a ha ↦ Contribution.length_of_mem_shares
      (Contribution.length_of_mem_series ht h) (List.of_mem_zip ha).2⟩

/-- **The columns stay equally long.** -/
theorem rectangular_result (ht : t.Rectangular) (h : t.HasColumns f.references) :
    (f.result t).Rectangular := by
  have hstored (hf : f.KeepsRows) (hsort : ∀ s, f ≠ .sort s) : (f.result t).Rectangular := by
    obtain ⟨assignments, hresult, hlength⟩ := upsertAll_of_keepsRows hf hsort ht h
    rw [hresult]
    exact (ht.upsertAll hlength).1
  cases f with
  | aggregate s => exact Table.rectangular_of_length fun c hc ↦ Summary.length_of_mem_result hc
  | pivot p => exact Table.rectangular_of_length fun c hc ↦ Pivot.length_of_mem_result hc
  | sort s => exact Table.rectangular_takeRows _ _
  | select s =>
    refine Table.rectangular_of_length (n := t.rowCount) fun c hc ↦ ?_
    obtain ⟨names, hnames, rfl⟩ := List.mem_map.1 hc
    exact ht.length_source h (List.mem_map_of_mem hnames)
  | rolling | diff | cum | contribution => exact hstored trivial nofun

/-- **The number of rows is kept** by the transforms that say something about every row. -/
theorem rowCount_result (hf : f.KeepsRows) (ht : t.Rectangular) (h : t.HasColumns f.references) :
    (f.result t).rowCount = t.rowCount := by
  by_cases hsort : ∃ s, f = .sort s
  · obtain ⟨s, rfl⟩ := hsort
    by_cases hnil : t.columns = []
    · simp [result, RowSort.result, Table.takeRows, Table.rowCount, hnil]
    · rw [result, RowSort.result, Table.rowCount_takeRows hnil, (s.perm_rowsOf t).length_eq,
        List.length_range]
  · obtain ⟨assignments, hresult, hlength⟩ :=
      upsertAll_of_keepsRows hf (fun s hs ↦ hsort ⟨s, hs⟩) ht h
    rw [hresult, (ht.upsertAll hlength).2]

end Transform

/-! ## Any number of steps -/

/-- Applies steps, unless a row is looked up that a column does not have. -/
def strictSteps : List Step → Table → Option (Except Rejection Table)
  | [], t => some (.ok t)
  | s :: rest, t => do
    match ← s.transform.strictApply t with
    | .error e => return .error e
    | .ok next => strictSteps rest next

theorem applySteps_cons_eq_ok {s : Step} {rest : List Step} {t out : Table} :
    applySteps (s :: rest) t = .ok out ↔
      ∃ next, s.transform.apply t = .ok next ∧ applySteps rest next = .ok out :=
  bind_eq_ok

namespace Step

/-- What holds whenever these steps are applied to the table: whatever part of the list has been
applied the columns are equally long, no row is looked up that a column does not have, and steps
that say something about every row keep the number of rows. -/
structure SafeOn (steps : List Step) (t : Table) : Prop where
  rectangular : ∀ before u, before <+: steps → applySteps before t = .ok u → u.Rectangular
  inBounds : strictSteps steps t = some (applySteps steps t)
  keepsRows : ∀ before s u out, before ++ [s] <+: steps → s.transform.KeepsRows →
    applySteps before t = .ok u → s.transform.apply u = .ok out → out.rowCount = u.rowCount

variable {steps : List Step} {s : Step} {t u out : Table}

/-- One step keeps the columns equally long. -/
theorem rectangular_apply (ht : t.Rectangular) (h : s.transform.apply t = .ok out) :
    out.Rectangular := by
  obtain ⟨hcolumns, rfl⟩ := (Transform.apply_eq_ok_iff ht).1 h
  exact Transform.rectangular_result ht hcolumns

/-- So does any number of steps. -/
theorem rectangular_applySteps (ht : t.Rectangular) (h : applySteps steps t = .ok u) :
    u.Rectangular := by
  induction steps generalizing t with
  | nil => exact Except.ok.inj h ▸ ht
  | cons s rest ih =>
    obtain ⟨next, hnext, hrest⟩ := applySteps_cons_eq_ok.1 h
    exact ih (rectangular_apply ht hnext) hrest

/-- No step on the way looks up a row that a column does not have. -/
theorem strictSteps_eq (steps : List Step) (ht : t.Rectangular) :
    strictSteps steps t = some (applySteps steps t) := by
  induction steps generalizing t with
  | nil => rfl
  | cons s rest ih =>
    rw [strictSteps, s.transform.strictApply_eq ht, applySteps]
    cases hnext : s.transform.apply t with
    | error e => rfl
    | ok next => exact ih (rectangular_apply ht hnext)

/-- Something holds of every step and of the table that it is applied to. -/
def Along (Q : Step → Table → Prop) : List Step → Table → Prop
  | [], _ => True
  | s :: rest, t => ∀ next, s.transform.apply t = .ok next → Q s t ∧ Along Q rest next

/-- **What the tables on the way have in common**: when the first has it, whatever part of the steps
has been applied the table has it, exactly when every step keeps it where it is applied. -/
theorem forall_prefix_iff {P : Table → Prop} {Q : Step → Table → Prop}
    (hstep : ∀ s ∈ steps, ∀ t next, t.Rectangular → P t → s.transform.apply t = .ok next →
      (P next ↔ Q s t)) (ht : t.Rectangular) (h : P t) :
    (∀ before u, before <+: steps → applySteps before t = .ok u → P u) ↔ Along Q steps t := by
  induction steps generalizing t with
  | nil =>
    refine iff_of_true (fun before u hbefore hu ↦ ?_) trivial
    rw [List.prefix_nil.1 hbefore] at hu
    exact Except.ok.inj hu ▸ h
  | cons s rest ih =>
    obtain ⟨hfirst, hrest⟩ := List.forall_mem_cons.1 hstep
    constructor
    · intro hall next hnext
      have hkept : P next := hall [s] next ⟨rest, rfl⟩ (applySteps_cons_eq_ok.2 ⟨next, hnext, rfl⟩)
      refine ⟨(hfirst t next ht h hnext).1 hkept,
        (ih hrest (rectangular_apply ht hnext) hkept).1 fun before u hbefore hu ↦ ?_⟩
      exact hall (s :: before) u (List.prefix_cons_inj s |>.2 hbefore)
        (applySteps_cons_eq_ok.2 ⟨next, hnext, hu⟩)
    · intro hall before u hbefore hu
      cases before with
      | nil => exact Except.ok.inj hu ▸ h
      | cons first before =>
        obtain ⟨rfl, hprefix⟩ := List.cons_prefix_cons.1 hbefore
        obtain ⟨next, hnext, hu⟩ := applySteps_cons_eq_ok.1 hu
        obtain ⟨hkeeps, halong⟩ := hall next hnext
        have hkept := (hfirst t next ht h hnext).2 hkeeps
        exact (ih hrest (rectangular_apply ht hnext) hkept).2 halong before u hprefix hu

/-- **Steps are safe on every table with columns of one length**, and such are all tables that are
built of columns or of records. -/
theorem safeOn_of_rectangular :
    (∀ columns t, Table.ofColumns columns = .ok t → t.Rectangular) ∧
      (∀ records, (Table.ofRecords records).Rectangular) ∧
      ∀ t : Table, t.Rectangular → ∀ steps, SafeOn steps t := by
  refine ⟨fun _ _ ↦ Table.rectangular_ofColumns, Table.rectangular_ofRecords, fun t ht steps ↦ ?_⟩
  refine ⟨fun before u _ ↦ rectangular_applySteps ht, strictSteps_eq steps ht, ?_⟩
  intro before s u out _ hs hbefore hout
  have hu : u.Rectangular := rectangular_applySteps ht hbefore
  obtain ⟨hcolumns, rfl⟩ := (Transform.apply_eq_ok_iff hu).1 hout
  exact Transform.rowCount_result hs hu hcolumns

/-- Steps as a request writes them: the days in order, and what each adds to the day before. -/
def dailyChange : List Json := [
  .obj [("operation", .str "sort"),
    ("options", .obj [("columns", .obj [("day", .bool true)])])],
  .obj [("operation", .str "diff"),
    ("options", .obj [("columns", .obj [("sales", .str "change")])])]]

/-- Two days, the later first. -/
def twoDays : List (Dict Json) := [
  [("day", .str "tuesday"), ("sales", .int 7)], [("day", .str "monday"), ("sales", .int 5)]]

/-- The steps can be read, and are safe on the table of the records. -/
theorem dailyChange_safeOn_twoDays :
    ∃ steps, readAll dailyChange = .ok steps ∧ steps.length = 2 ∧
      SafeOn steps (Table.ofRecords twoDays) := by
  have hread : ((readAll dailyChange).map List.length) = .ok 2 := by decide +kernel
  obtain ⟨steps, hsteps, hlength⟩ := map_eq_ok.1 hread
  have htable : (Table.ofRecords twoDays).Rectangular := safeOn_of_rectangular.2.1 twoDays
  exact ⟨steps, hsteps, hlength, safeOn_of_rectangular.2.2 _ htable steps⟩

end Step

end ChartFeed
