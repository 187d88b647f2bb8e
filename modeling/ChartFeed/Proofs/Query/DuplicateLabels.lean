import ChartFeed.Proofs.Listing
import ChartFeed.Query.Basic

/-!
# Labels that a query repeats

The columns of a result are named by the labels of the metrics and by the columns of the query, and
a query is turned down when two of them are the same.

* `collects_duplicates` — the labels that are reported: those that occur more than once, each once,
  in the order in which they first occur;
* `duplicates_eq_nil_iff` — there are none exactly when the labels are distinct;
* `Query.validate_exact` — so this is what the check of a query says, as a failure or as a result.
-/

set_option autoImplicit false

namespace ChartFeed

/-- **What is repeated**, each once, in the order in which it first occurs. -/
theorem collects_duplicates (labels : List String) :
    Collects (fun label ↦ 2 ≤ labels.count label) labels (duplicates labels) :=
  collects_foldl _ labels

theorem duplicates_eq_nil_iff {labels : List String} : duplicates labels = [] ↔ labels.Nodup := by
  rw [List.eq_nil_iff_forall_not_mem, List.nodup_iff_count_le_one]
  refine forall_congr' fun label ↦ ?_
  rw [(collects_duplicates labels).mem_iff]
  constructor
  · intro h
    by_contra hcount
    exact h ⟨List.count_pos_iff.1 (by omega), by omega⟩
  · rintro h ⟨-, hcount⟩
    omega

example : duplicates ["z", "a", "z", "a", "a", "b"] = ["z", "a"] := by decide

namespace Query

/-- The labels of the metrics, and then the columns. -/
def labels (q : Query) : List String := q.metricNames ++ q.columns

theorem validate_eq_ok_none_iff {q : Query} {raise : Bool} :
    q.validate raise = .ok none ↔ q.labels.Nodup := by
  rw [← duplicates_eq_nil_iff, validate, duplicateLabels, ← labels]
  cases duplicates q.labels with
  | nil => simp
  | cons label rest => cases raise <;> simp

/-- **The check of the labels is exact.**  A query passes exactly when its labels are distinct.
Otherwise the report names the labels that occur at least twice, each once, in the order in which
they first occur, and it is the same whether it is a result or a failure. -/
theorem validate_exact (q : Query) :
    (∀ raise, q.validate raise = .ok none ↔ q.labels.Nodup) ∧
      (q.labels.Nodup ∨ ∃ repeated,
        Collects (fun label ↦ 2 ≤ q.labels.count label) q.labels repeated ∧
          q.validate false = .ok (some (.duplicateLabels repeated)) ∧
          q.validate true = .error (.duplicateLabels repeated)) := by
  refine ⟨fun raise ↦ validate_eq_ok_none_iff, ?_⟩
  by_cases hnodup : q.labels.Nodup
  · exact .inl hnodup
  · refine .inr ⟨duplicates q.labels, collects_duplicates q.labels, ?_⟩
    rw [← duplicates_eq_nil_iff] at hnodup
    obtain ⟨label, rest, hlabels⟩ := List.exists_cons_of_ne_nil hnodup
    rw [validate, validate, duplicateLabels, ← labels, hlabels]
    exact ⟨rfl, rfl⟩

end Query

end ChartFeed
