import ChartFeed.Proofs.Decimal.Quotient
import ChartFeed.Proofs.Enrichment.Accounting

/-!
# When the progress of a batch is complete

The progress of a batch compares the records that were answered with all records.  A request that
fails is not answered, and a batch goes on after a single failure; so a batch can come to its end
with progress that does not.

* `Batch.returned` — how many requests came back, with an answer or with a fault.  Every request
  comes back (`returned_receive`), so a batch that comes to its end has as many as there are records
  (`Batch.returned_requestAll`);
* `Enricher.run_progress` — the progress that is left by a batch that comes to its end: what is
  missing of the total is what failed;
* `Enricher.run_lastFails_incomplete` — a batch of two records that ends half way.
-/

set_option autoImplicit false

namespace ChartFeed

variable {ω : Type}

namespace Progress

theorem total_count (p : Progress) (r : Relevance) : (p.count r).total = p.total := by
  cases r <;> rfl

/-- Everything was answered, and there was something to answer. -/
theorem fraction_of_processed_eq {p : Progress} (h : p.processed = p.total) (hpos : 0 < p.total)
    (hle : p.total ≤ uint64Max) : p.fraction = 1.0 := by
  rw [fraction, if_neg (Nat.ne_of_gt hpos), h]
  exact Decimal.ofNat_div_self hpos hle

end Progress

namespace Batch

/-! ## Requests that came back -/

/-- How many requests came back, with an answer or with a fault. -/
def returned (b : Batch) : Nat := b.progress.processed + b.faults.length

/-- **Every request comes back**, one way or the other. -/
theorem returned_receive (b : Batch) (record : List String) (reply : Reply ω) :
    (b.receive record reply).returned = b.returned + 1 := by
  obtain ⟨answer, interrupts, state⟩ := reply
  rcases answer with fault | found
  · show b.progress.processed + (b.faults ++ [fault]).length = _
    rw [List.length_append, ← Nat.add_assoc]
    rfl
  · show (b.progress.count (.ofAnswer found)).processed + b.faults.length = _
    rw [Progress.processed_count, returned]
    omega

theorem total_receive (b : Batch) (record : List String) (reply : Reply ω) :
    (b.receive record reply).progress.total = b.progress.total := by
  obtain ⟨answer, interrupts, state⟩ := reply
  rcases answer with fault | found
  · rfl
  · exact Progress.total_count ..

/-- The total stays what it was at the start. -/
theorem total_requestAll (client : Client ω) (records : List (List String)) (b : Batch) (w : ω) :
    (requestAll client records b w).1.progress.total = b.progress.total := by
  induction records generalizing b w with
  | nil => rfl
  | cons record rest ih =>
    rw [requestAll]
    split
    · rfl
    · dsimp only
      split
      · exact total_receive ..
      · rw [ih, total_receive]

/-- **A run that is not ended before asks about every record**, and every request comes back. -/
theorem returned_requestAll (client : Client ω) (records : List (List String)) (b : Batch) (w : ω)
    (haborted : (requestAll client records b w).1.abort? = none)
    (hinterrupted : (requestAll client records b w).1.interrupted = false) :
    (requestAll client records b w).1.returned = b.returned + records.length := by
  induction records generalizing b w with
  | nil => rfl
  | cons record rest ih =>
    rw [requestAll] at haborted hinterrupted ⊢
    split at haborted
    · next hflag =>
      rw [if_pos hflag] at hinterrupted
      cases hinterrupted
    · next hflag =>
      rw [if_neg hflag] at hinterrupted ⊢
      dsimp only at haborted hinterrupted ⊢
      split at haborted
      · next habort =>
        rw [haborted] at habort
        cases habort
      · next habort =>
        rw [if_neg habort] at hinterrupted ⊢
        rw [ih _ _ haborted hinterrupted, returned_receive, List.length_cons]
        omega

end Batch

namespace Enricher

/-- **What is missing of the total is what failed.**  A batch with a service that is ready ends with
a report, and its progress is no longer under way.  If it was neither given up nor interrupted, the
records that were answered and the requests that failed are together all records.  So the progress
is complete exactly when no request failed, and then it is the whole of what there was to do. -/
theorem run_progress (client : Client ω) (records : List (List String)) (e : Enricher) (w : ω)
    (hready : client.ready w = .ok ()) :
    ∃ (report : Report) (after : Enricher) (w' : ω),
      run client records e w = (.ok report, after, w') ∧
        after.progress.inProgress = false ∧
        after.progress.total = records.length ∧
        (report.aborted = none → report.interrupted = false →
          after.progress.processed + report.faults.length = records.length ∧
          (after.progress.processed = after.progress.total ↔ report.faults = []) ∧
          (report.faults = [] → records ≠ [] → records.length ≤ uint64Max →
            after.progress.fraction = 1.0)) := by
  let start : Batch := .start records (client.raisedEarly w)
  let final := (Batch.requestAll client records start w).1
  have htotal : final.progress.total = records.length := Batch.total_requestAll ..
  refine ⟨_, _, _, run_of_ready hready records e, rfl, htotal, ?_⟩
  intro haborted hinterrupted
  have hreturned : final.progress.processed + final.faults.length = records.length :=
    (Batch.returned_requestAll client records start w haborted hinterrupted).trans (Nat.zero_add _)
  have hcomplete : final.progress.processed = final.progress.total ↔ final.faults = [] := by
    rw [htotal, ← List.length_eq_zero_iff]
    omega
  refine ⟨hreturned, hcomplete, fun hfaults hne hle ↦ ?_⟩
  have hpos : 0 < final.progress.total := htotal ▸ List.length_pos_of_ne_nil hne
  exact Progress.fraction_of_processed_eq (p := { final.progress with inProgress := false })
    (hcomplete.2 hfaults) hpos (htotal ▸ hle)

/-- Something is found for each of two addresses. -/
def bothFound : List (Answer × Bool) := [
  (.ok (some ⟨["2.35", "48.85"], 0.9⟩), false), (.ok (some ⟨["2.36", "48.86"], 0.5⟩), false)]

theorem bothFound_run_progress :
    scripted.ready bothFound = .ok () ∧
      ∃ (report : Report) (after : Enricher) (rest : List (Answer × Bool)),
        run scripted (addresses.take 2) {} bothFound = (.ok report, after, rest) ∧
          report.aborted = none ∧ report.interrupted = false ∧ report.faults = [] ∧
          after.progress.processed = after.progress.total ∧ after.progress.fraction = 1.0 := by
  refine ⟨rfl, ?_⟩
  obtain ⟨report, after, rest, hrun, -, -, hcomplete⟩ :=
    run_progress scripted (addresses.take 2) {} bothFound rfl
  have hreport : (run scripted (addresses.take 2) {} bothFound).1 = .ok
      ⟨[["0", "Main St", "2.35", "48.85"], ["1", "Main St", "2.36", "48.86"]], 1, 1, 0, [], none,
        false⟩ := by
    decide +kernel
  rw [hrun] at hreport
  obtain rfl := Except.ok.inj hreport
  obtain ⟨-, hprocessed, hfraction⟩ := hcomplete rfl rfl
  exact ⟨_, after, rest, hrun, rfl, rfl, rfl, hprocessed.2 rfl,
    hfraction rfl (by decide) (by decide)⟩

/-- Something is found for the first of two addresses, and the other request fails. -/
def lastFails : List (Answer × Bool) := [
  (.ok (some ⟨["2.35", "48.85"], 0.9⟩), false), (.error (.network "refused"), false)]

/-- **A batch that comes to its end half way**: a single failure does not end it, and the progress
never counts it. -/
theorem run_lastFails_incomplete :
    ∃ (report : Report) (after : Enricher) (rest : List (Answer × Bool)),
      run scripted (addresses.take 2) {} lastFails = (.ok report, after, rest) ∧
        report.aborted = none ∧ report.interrupted = false ∧
        after.progress.inProgress = false ∧ after.progress.processed = 1 ∧
        after.progress.total = 2 ∧ after.progress.fraction = 0.5 :=
  ⟨_, _, _, rfl, by decide +kernel, rfl, rfl, by decide +kernel, rfl, by decide +kernel⟩

end Enricher

end ChartFeed
