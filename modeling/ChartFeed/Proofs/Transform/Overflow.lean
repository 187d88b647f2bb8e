import ChartFeed.Proofs.Transform.Finite
import ChartFeed.Proofs.Transform.Safety

/-!
# Running totals that are lost

Two transforms store a computed double whatever it is: running totals, and the rolling window that
reaches back to the first row.  A sum or a product that is too large for a double becomes an
infinity there, and stays in the table for the steps that come after.

* `Accumulation.InRange` — no total on the way through some numbers is lost.  For sums and products
  it is enough to look at the last one, and the least and the greatest of finite numbers are finite;
* `Running.finite_accumulate_iff`, `RollingMode.finite_totals_iff` — the cells of a column of totals
  are finite exactly when the totals are in range;
* `Transform.finite_result_iff` — any transform keeps doubles finite exactly when the totals that it
  stores are in range, `Transform.InRange`;
* `Step.finite_iff_inRange` — the same for any steps that can be read.

A column of totals may be replaced by another that goes under the same name.  What is replaced does
not matter, so only the sources that are stored last count (`storedSources`).
-/

set_option autoImplicit false

namespace ChartFeed

/-! ## Totals -/

namespace Statistics

theorem smaller_eq_or (x y : Float) : smaller x y = x ∨ smaller x y = y := by
  rw [smaller]
  split
  · exact .inr rfl
  · exact .inl rfl

theorem greater_eq_or (x y : Float) : greater x y = x ∨ greater x y = y := by
  rw [greater]
  split
  · exact .inr rfl
  · exact .inl rfl

end Statistics

namespace Accumulation

/-- What has been accumulated of numbers, once there are any. -/
def total (how : Accumulation) : List Float → Option Float
  | [] => none
  | x :: rest => some (rest.foldl how.combine x)

/-- No total on the way through the numbers is lost. -/
def InRange (how : Accumulation) (xs : List Float) : Prop :=
  ∀ before, before <+: xs → ∀ x, how.total before = some x → x.isFinite = true

variable {how : Accumulation} {a x : Float} {xs rest : List Float}

theorem inRange_nil : how.InRange [] := by
  intro before hbefore x hx
  rw [List.prefix_nil.1 hbefore] at hx
  cases hx

theorem inRange_cons : how.InRange (a :: xs) ↔
    ∀ before, before <+: xs → (before.foldl how.combine a).isFinite = true := by
  refine ⟨fun h before hbefore ↦ h (a :: before) ((List.prefix_cons_inj a).2 hbefore) _ rfl, ?_⟩
  intro h before hbefore x hx
  cases before with
  | nil => cases hx
  | cons b before =>
    obtain ⟨rfl, hrest⟩ := List.cons_prefix_cons.1 hbefore
    cases hx
    exact h before hrest

theorem inRange_singleton : how.InRange [a] ↔ a.isFinite = true := by
  simp [inRange_cons]

/-- The first two numbers can be taken together. -/
theorem inRange_cons_cons :
    how.InRange (a :: x :: rest) ↔ a.isFinite = true ∧ how.InRange (how.combine a x :: rest) := by
  rw [inRange_cons, inRange_cons]
  refine ⟨fun h ↦ ⟨h [] List.nil_prefix, fun before hbefore ↦ ?_⟩, fun h before hbefore ↦ ?_⟩
  · exact h (x :: before) ((List.prefix_cons_inj x).2 hbefore)
  · rcases List.prefix_cons_iff.1 hbefore with rfl | ⟨before, rfl, hrest⟩
    · exact h.1
    · exact h.2 before hrest

/-- **Sums and products that are lost stay lost**, so the last one says whether any is. -/
theorem inRange_iff_of_lost
    (hlost : ∀ {x}, x.isFinite = false → ∀ y, (how.combine x y).isFinite = false)
    (xs : List Float) : how.InRange xs ↔ ∀ x, how.total xs = some x → x.isFinite = true := by
  refine ⟨fun h ↦ h xs (List.prefix_refl _), fun h ↦ ?_⟩
  cases xs with
  | nil => exact inRange_nil
  | cons a xs =>
    rw [inRange_cons]
    rintro before ⟨rest, rfl⟩
    by_contra hnot
    have hend := Decimal.isFinite_foldl hlost (Bool.eq_false_iff.2 hnot) rest
    rw [← List.foldl_append, h _ rfl] at hend
    cases hend

/-- **What is chosen from finite numbers is finite.** -/
theorem inRange_of_chosen (hchosen : ∀ x y, how.combine x y = x ∨ how.combine x y = y)
    (hxs : ∀ x ∈ xs, x.isFinite = true) : how.InRange xs := by
  cases xs with
  | nil => exact inRange_nil
  | cons a xs =>
    obtain ⟨ha, hrest⟩ := List.forall_mem_cons.1 hxs
    refine inRange_cons.2 fun before hbefore ↦ ?_
    refine List.foldlRecOn (motive := fun x ↦ x.isFinite = true) before how.combine ha ?_
    intro x hx y hy
    rcases hchosen x y with h | h <;> rw [h]
    · exact hx
    · exact hrest y (hbefore.subset hy)

end Accumulation

/-! ## Columns of totals -/

/-- Running totals that go on from a number. -/
theorem Running.finite_accumulate_some_iff (how : Accumulation) (a : Float)
    (values : List (Option Float)) :
    (a.isFinite = true ∧ ∀ cell ∈ accumulate how (some a) values, cell.Finite) ↔
      how.InRange (a :: values.filterMap id) := by
  induction values generalizing a with
  | nil => simp [accumulate, Accumulation.inRange_singleton]
  | cons value rest ih =>
    cases value with
    | none =>
      rw [accumulate, List.forall_mem_cons, List.filterMap_cons_none rfl, ← ih]
      exact and_congr_right fun _ ↦ and_iff_right trivial
    | some x =>
      have hnumbers : (some x :: rest).filterMap id = x :: rest.filterMap id := rfl
      rw [accumulate, List.forall_mem_cons, hnumbers, Accumulation.inRange_cons_cons, ← ih]
      exact Iff.rfl

/-- **Running totals** are finite exactly when they are in range. -/
theorem Running.finite_accumulate_iff (how : Accumulation) (values : List (Option Float)) :
    (∀ cell ∈ accumulate how none values, cell.Finite) ↔ how.InRange (values.filterMap id) := by
  induction values with
  | nil => exact iff_of_true nofun Accumulation.inRange_nil
  | cons value rest ih =>
    cases value with
    | none =>
      rw [accumulate, List.forall_mem_cons, List.filterMap_cons_none rfl, ← ih]
      exact and_iff_right trivial
    | some x =>
      have hnumbers : (some x :: rest).filterMap id = x :: rest.filterMap id := rfl
      rw [accumulate, List.forall_mem_cons, hnumbers, ← finite_accumulate_some_iff]
      exact Iff.rfl

/-- The totals of all rows so far are running sums that start from zero. -/
theorem RollingMode.totals_eq_accumulate (before : Float) (values : List (Option Float)) :
    totals before values = Running.accumulate .sum (some before) values := by
  induction values generalizing before with
  | nil => rfl
  | cons value rest ih =>
    cases value with
    | none => rw [totals, Running.accumulate, ih]
    | some x =>
      rw [totals, Running.accumulate, ih]
      rfl

theorem RollingMode.finite_totals_iff (values : List (Option Float)) :
    (∀ cell ∈ total.cells values, cell.Finite) ↔
      Accumulation.sum.InRange (0.0 :: values.filterMap id) := by
  have hzero : (0.0 : Float).isFinite = true := by decide +kernel
  rw [cells, totals_eq_accumulate, ← Running.finite_accumulate_some_iff, and_iff_right hzero]

/-! ## Transforms -/

/-- The sources of what is stored, by destination; of several for one destination the last. -/
def storedSources (mapping : List (String × String)) : Dict String :=
  Dict.ofEntries (mapping.map Prod.swap)

/-- What is stored comes from the mapping. -/
theorem mem_of_mem_storedSources {mapping : List (String × String)} {dest source : String}
    (h : (dest, source) ∈ storedSources mapping) : (source, dest) ∈ mapping := by
  rcases Dict.mem_of_mem_insertAll h with h | h
  · cases h
  · obtain ⟨names, hnames, hswap⟩ := List.mem_map.1 h
    cases hswap
    exact hnames

namespace Table

variable {t : Table}

theorem ofEntries_computed (t : Table) (compute : List (Option Float) → List Cell)
    (mapping : List (String × String)) :
    Dict.ofEntries (t.computed compute mapping) =
      (storedSources mapping).mapValues fun name ↦ compute (t.source name).numbers := by
  rw [storedSources, Dict.ofEntries, Dict.ofEntries, Dict.mapValues_insertAll, Dict.mapValues,
    Dict.mapValues, List.map_map]
  rfl

/-- **What is stored under a name** is computed from the last source that goes there. -/
theorem exists_assign {mapping : List (String × String)}
    (h : t.HasColumns (mapping.map Prod.fst)) (compute : List (Option Float) → List Cell) :
    ∃ out, t.assign mapping compute = .ok out ∧
      ∀ dest source, (dest, source) ∈ storedSources mapping →
        out.column? dest = some ⟨.plain dest, compute (t.source source).numbers⟩ := by
  refine ⟨t.upsertAll (t.computed compute mapping), ?_, fun dest source hstored ↦ ?_⟩
  · rw [assign_eq, requireAll_eq_ok h]
    rfl
  · rw [← upsertAll_ofEntries]
    refine column?_upsertAll (Dict.nodup_keys_ofEntries _) ?_
    rw [ofEntries_computed]
    exact List.mem_map_of_mem (f := fun entry : String × String ↦
      (entry.1, compute (t.source entry.2).numbers)) hstored

theorem finite_upsertAll_computed_iff (ht : t.Finite) (compute : List (Option Float) → List Cell)
    (mapping : List (String × String)) :
    (t.upsertAll (t.computed compute mapping)).Finite ↔
      ∀ entry ∈ storedSources mapping,
        ∀ cell ∈ compute (t.source entry.2).numbers, cell.Finite := by
  rw [finite_upsertAll_iff ht, ofEntries_computed, Dict.mapValues, List.forall_mem_map]

end Table

/-- The numbers in a column. -/
def Column.presentNumbers (c : Column) : List Float := c.numbers.filterMap id

namespace Transform

/-- The totals that a transform stores are in range. -/
def InRange : Transform → Table → Prop
  | .cum r, t => ∀ entry ∈ storedSources r.columns.entries,
    r.accumulation.InRange (t.source entry.2).presentNumbers
  | .rolling ⟨columns, .total⟩, t => ∀ entry ∈ storedSources columns.entries,
    Accumulation.sum.InRange (0.0 :: (t.source entry.2).presentNumbers)
  | .rolling ⟨_, .windowed _ _⟩, _ => True
  | .aggregate _, _ | .pivot _, _ | .sort _, _ | .select _, _ | .diff _, _ | .contribution _, _ =>
    True

variable {f : Transform} {t : Table}

/-- **A transform keeps doubles finite exactly when the totals that it stores are in range.** -/
theorem finite_result_iff (hf : f.Bounded) (ht : t.Finite) :
    (f.result t).Finite ↔ f.InRange t := by
  cases f with
  | aggregate s => exact iff_of_true (s.finite_result ht) trivial
  | pivot p => exact iff_of_true (Pivot.finite_result hf ht) trivial
  | sort s => exact iff_of_true (s.finite_result ht) trivial
  | rolling r =>
    obtain ⟨columns, mode⟩ := r
    cases mode with
    | total =>
      rw [result, Table.finite_upsertAll_computed_iff ht]
      exact forall₂_congr fun entry _ ↦ RollingMode.finite_totals_iff _
    | windowed s w =>
      exact iff_of_true (ht.upsertAll_computed (RollingMode.finite_cells_windowed s hf) _) trivial
  | select s => exact iff_of_true (s.finite_result ht) trivial
  | diff d =>
    exact iff_of_true (ht.upsertAll_computed (Difference.finite_differences d.periods) _) trivial
  | cum r =>
    rw [result, Table.finite_upsertAll_computed_iff ht]
    exact forall₂_congr fun entry _ ↦ Running.finite_accumulate_iff _ _
  | contribution c => exact iff_of_true (c.finite_result ht) trivial

end Transform

/-! ## Any number of steps -/

namespace Step

/-- The totals that steps store are in range, each where it is applied. -/
def InRange (steps : List Step) (t : Table) : Prop :=
  Along (fun s t ↦ s.transform.InRange t) steps t

/-- **Doubles stay finite exactly when running totals stay in range.**  Whatever part of the steps
has been applied to a table of finite doubles, the doubles are finite, exactly when the totals that
are stored are in range.  A sum or a product is in range when the last total is finite, and the
least and the greatest of finite numbers always are. -/
theorem finite_iff_inRange {values : List Json} {steps : List Step} {t : Table}
    (hvalues : ∀ v ∈ values, v.WellFormed) (hsteps : readAll values = .ok steps)
    (ht : t.Rectangular) (hfinite : t.Finite) :
    ((∀ before u, before <+: steps → applySteps before t = .ok u → u.Finite) ↔
        InRange steps t) ∧
      (∀ how, how = .sum ∨ how = .product → ∀ xs, Accumulation.InRange how xs ↔
        ∀ x, how.total xs = some x → x.isFinite = true) ∧
      ∀ how, how = .least ∨ how = .greatest → ∀ xs : List Float,
        (∀ x ∈ xs, x.isFinite = true) → Accumulation.InRange how xs := by
  refine ⟨forall_prefix_iff (fun s hs t next ht hfinite hnext ↦ ?_) ht hfinite, ?_, ?_⟩
  · obtain ⟨-, rfl⟩ := (Transform.apply_eq_ok_iff ht).1 hnext
    exact Transform.finite_result_iff (bounded_of_mem_readAll hvalues hsteps hs) hfinite
  · rintro how (rfl | rfl)
    · exact Accumulation.inRange_iff_of_lost Decimal.isFinite_add
    · exact Accumulation.inRange_iff_of_lost Decimal.isFinite_mul
  · rintro how (rfl | rfl) xs hxs
    · exact Accumulation.inRange_of_chosen Statistics.smaller_eq_or hxs
    · exact Accumulation.inRange_of_chosen Statistics.greater_eq_or hxs

/-- The running product of a column, as a request writes it. -/
def productSoFar : Json := .obj [
  ("operation", .str "cum"),
  ("options", .obj [
    ("operator", .str "prod"),
    ("columns", .obj [("factor", .str "product")])])]

/-- Two factors. -/
def twoFactors (x y : Float) : Table := ⟨[⟨.plain "factor", [.float x, .float y]⟩]⟩

theorem readAll_productSoFar : readAll [productSoFar] =
    .ok [⟨productSoFar, .cum ⟨.ofEntries [("factor", "product")], .product⟩⟩] := by
  decide +kernel

theorem wellFormed_productSoFar : productSoFar.WellFormed := by
  simp [productSoFar, Json.WellFormed, Json.WellFormedFields, Dict.keys]

/-- The product of these factors is finite, so doubles stay finite. -/
theorem finite_productSoFar_small :
    ∃ steps, readAll [productSoFar] = .ok steps ∧ (twoFactors 1e200 1e100).Rectangular ∧
      (twoFactors 1e200 1e100).Finite ∧ ∀ before u, before <+: steps →
        applySteps before (twoFactors 1e200 1e100) = .ok u → u.Finite := by
  have ht : (twoFactors 1e200 1e100).Rectangular := by decide
  have hfinite : (twoFactors 1e200 1e100).Finite := by decide +kernel
  have hwellFormed : ∀ v ∈ [productSoFar], v.WellFormed :=
    List.forall_mem_singleton.2 wellFormed_productSoFar
  obtain ⟨hiff, hlast, -⟩ := finite_iff_inRange hwellFormed readAll_productSoFar ht hfinite
  have hsources : storedSources (OrderedMap.ofEntries [("factor", "product")]).entries =
      [("product", "factor")] := by
    decide +kernel
  have hnumbers : ((twoFactors 1e200 1e100).source "factor").presentNumbers = [1e200, 1e100] := by
    decide +kernel
  have hinRange : (Transform.cum ⟨.ofEntries [("factor", "product")], .product⟩).InRange
      (twoFactors 1e200 1e100) := by
    rw [Transform.InRange, hsources, List.forall_mem_singleton, hnumbers, hlast _ (.inr rfl)]
    refine fun x hx ↦ Option.some.inj hx ▸ ?_
    decide +kernel
  exact ⟨_, readAll_productSoFar, ht, hfinite, hiff.2 fun next _ ↦ ⟨hinRange, trivial⟩⟩

/-- **An infinity in the output**: the product of these factors is not finite, and is stored. -/
theorem productSoFar_overflows :
    ∃ steps out, readAll [productSoFar] = .ok steps ∧ productSoFar.WellFormed ∧
      (twoFactors 1e200 1e200).Rectangular ∧ (twoFactors 1e200 1e200).Finite ∧
      applySteps steps (twoFactors 1e200 1e200) = .ok out ∧
      (out.source "product").cells = [.float 1e200, .float (1e200 * 1e200)] ∧ ¬ out.Finite := by
  have hrun : applySteps [⟨productSoFar, .cum ⟨.ofEntries [("factor", "product")], .product⟩⟩]
      (twoFactors 1e200 1e200) = .ok ⟨[⟨.plain "factor", [.float 1e200, .float 1e200]⟩,
        ⟨.plain "product", [.float 1e200, .float (1e200 * 1e200)]⟩]⟩ := by
    decide +kernel
  exact ⟨_, _, readAll_productSoFar, wellFormed_productSoFar, by decide, by decide +kernel, hrun,
    by decide +kernel, by decide +kernel⟩

end Step

end ChartFeed
