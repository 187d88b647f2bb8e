import Mathlib.Data.List.TakeWhile
import ChartFeed.Enrichment.Batch

/-!
# What a batch accounts for

A batch is watched from the side of the service: every request that is made is written down with
its answer, and the report is compared with that log.

## What is here

* `Client.recorded` — the service that keeps a log of its requests, each an `Exchange`;
  `run_recorded` says that it is asked and answers like the service itself.
* `GivesUp` — the logs after which a batch ends: a single failure, or two failures at the end.
* `Batch.Tallies` — what a run under way has counted is what its log says, for the records whose
  turn has come.  `Batch.Tallies.receive` is one answer.
* `Batch.Ended` — where a run can end: where it gives up, at the last record, or at a raised flag.
  `Batch.ended_requestAll` says that every run does.
* `Enricher.run_accounted` — the report of a batch, from the log alone.

Nothing is assumed of the service: it may answer anything.  The flag may be raised in any request,
and while the batch begins.
-/

set_option autoImplicit false

namespace ChartFeed

variable {ω : Type}

/-! ## Logs of requests -/

/-- A request that was made, with what came of it. -/
structure Exchange where
  input : String
  answer : Answer
  /-- Whether the flag was raised meanwhile. -/
  interrupts : Bool
deriving DecidableEq

namespace Exchange

/-- The service did not answer. -/
def failed (x : Exchange) : Bool := !x.answer.isOk

/-- How good the answer is, if there is one. -/
def relevance? (x : Exchange) : Option Relevance :=
  match x.answer with
  | .ok found => some (.ofAnswer found)
  | .error _ => none

/-- Why there is no answer. -/
def fault? (x : Exchange) : Option ServiceFault :=
  match x.answer with
  | .ok _ => none
  | .error fault => some fault

/-- The record followed by the values that were found for it. -/
def row? (record : List String) (x : Exchange) : Option (List String) :=
  match x.answer with
  | .ok (some found) => some (record ++ found.values)
  | .ok none => none
  | .error _ => none

theorem failed_eq (x : Exchange) : x.failed = x.relevance?.isNone := by
  obtain ⟨input, answer, interrupts⟩ := x
  cases answer <;> rfl

end Exchange

/-- The request for a text, with its reply. -/
def Reply.toExchange (reply : Reply ω) (input : String) : Exchange :=
  ⟨input, reply.answer, reply.interrupts⟩

/-- The service that also keeps a log of the requests. -/
def Client.recorded (client : Client ω) : Client (ω × List Exchange) where
  ready s := client.ready s.1
  raisedEarly s := client.raisedEarly s.1
  request input progress s :=
    let reply := client.request input progress s.1
    ⟨reply.answer, reply.interrupts, (reply.state, s.2 ++ [reply.toExchange input])⟩

/-- A batch ends after this log: the only request failed, or the last two did. -/
def GivesUp (log : List Exchange) : Prop :=
  (∃ x, log = [x] ∧ x.failed) ∨ ∃ before x y, log = before ++ [x, y] ∧ x.failed ∧ y.failed

/-- How many requests failed at the end of a log. -/
def failuresAtEnd (log : List Exchange) : Nat := (log.reverse.takeWhile Exchange.failed).length

theorem failuresAtEnd_concat (log : List Exchange) (x : Exchange) :
    failuresAtEnd (log ++ [x]) = if x.failed then failuresAtEnd log + 1 else 0 := by
  by_cases h : x.failed <;> simp [failuresAtEnd, h]

/-- When no request was answered, all failed. -/
theorem failuresAtEnd_of_forall {log : List Exchange} (h : ∀ x ∈ log, x.failed) :
    failuresAtEnd log = log.length := by
  have hall : log.reverse.takeWhile Exchange.failed = log.reverse :=
    List.takeWhile_eq_self_iff.2 fun x hx ↦ h x (List.mem_reverse.1 hx)
  rw [failuresAtEnd, hall, List.length_reverse]

theorem two_le_failuresAtEnd_iff {log : List Exchange} :
    2 ≤ failuresAtEnd log ↔ ∃ before x y, log = before ++ [x, y] ∧ x.failed ∧ y.failed := by
  constructor
  · intro h
    rcases log.eq_nil_or_concat with rfl | ⟨log, y, rfl⟩
    · simp [failuresAtEnd] at h
    rw [List.concat_eq_append, failuresAtEnd_concat] at h
    by_cases hy : y.failed
    · rcases log.eq_nil_or_concat with rfl | ⟨before, x, rfl⟩
      · simp [failuresAtEnd, hy] at h
      rw [if_pos hy, List.concat_eq_append, failuresAtEnd_concat] at h
      by_cases hx : x.failed
      · exact ⟨before, x, y, by simp, hx, hy⟩
      · simp [hx] at h
    · simp [hy] at h
  · rintro ⟨before, x, y, rfl, hx, hy⟩
    rw [show before ++ [x, y] = before ++ [x] ++ [y] by simp, failuresAtEnd_concat,
      failuresAtEnd_concat]
    simp [hx, hy]

/-! ## A run under way -/

namespace Progress

/-- How many answers of this relevance were counted. -/
def counted (p : Progress) : Relevance → Nat
  | .success => p.success
  | .doubt => p.doubt
  | .failed => p.failed

@[simp] theorem counted_count (p : Progress) (r s : Relevance) :
    (p.count r).counted s = p.counted s + if r = s then 1 else 0 := by
  cases r <;> cases s <;> rfl

@[simp] theorem processed_count (p : Progress) (r : Relevance) :
    (p.count r).processed = p.processed + 1 := by
  cases r <;> rfl

end Progress

namespace Batch

/-- What is counted is what the log says, and the log is that of the records whose turn has
come. -/
structure Tallies (done : List (List String)) (log : List Exchange) (b : Batch) : Prop where
  inputs : log.map Exchange.input = done.map inputOf
  counted : ∀ r, b.progress.counted r = log.countP fun x ↦ x.relevance? = some r
  processed : b.progress.processed = log.countP fun x ↦ !x.failed
  enriched : b.enriched = (done.zip log).filterMap fun d ↦ d.2.row? d.1
  faults : b.faults = log.filterMap Exchange.fault?
  streak : b.streak = failuresAtEnd log

theorem Tallies.length_eq {done : List (List String)} {log : List Exchange} {b : Batch}
    (h : b.Tallies done log) : log.length = done.length := by
  simpa using congrArg List.length h.inputs

/-- Nothing has been counted when nothing has been asked. -/
theorem tallies_start (records : List (List String)) (raised : Bool) :
    Tallies [] [] (start records raised) where
  inputs := rfl
  counted r := by cases r <;> rfl
  processed := rfl
  enriched := rfl
  faults := rfl
  streak := rfl

/-- **One answer is counted as the log has it.** -/
theorem Tallies.receive {done : List (List String)} {log : List Exchange} {b : Batch}
    (h : b.Tallies done log) (record : List String) (reply : Reply ω) :
    (b.receive record reply).Tallies (done ++ [record])
      (log ++ [reply.toExchange (inputOf record)]) := by
  have hzip (x : Exchange) : (done ++ [record]).zip (log ++ [x]) = done.zip log ++ [(record, x)] :=
    List.zip_append h.length_eq.symm
  obtain ⟨answer, interrupts, state⟩ := reply
  rw [Reply.toExchange]
  cases answer with
  | ok found =>
    have hfailed : Exchange.failed ⟨inputOf record, .ok found, interrupts⟩ = false := rfl
    have hrelevance :
        Exchange.relevance? ⟨inputOf record, .ok found, interrupts⟩ = some (.ofAnswer found) := rfl
    exact {
      inputs := by simp [h.inputs]
      counted := fun r ↦ by
        simp [Batch.receive, take, h.counted r, hrelevance, List.countP_singleton]
      processed := by simp [Batch.receive, take, h.processed, hfailed]
      enriched := by
        rw [hzip, List.filterMap_append, ← h.enriched]
        cases found <;> simp [Batch.receive, take, Exchange.row?]
      faults := by simp [Batch.receive, take, h.faults, Exchange.fault?]
      streak := by
        rw [failuresAtEnd_concat, hfailed]
        rfl }
  | error fault =>
    have hfailed : Exchange.failed ⟨inputOf record, .error fault, interrupts⟩ = true := rfl
    have hrelevance : Exchange.relevance? ⟨inputOf record, .error fault, interrupts⟩ = none := rfl
    exact {
      inputs := by simp [h.inputs]
      counted := fun r ↦ by simp [Batch.receive, take, h.counted r, hrelevance]
      processed := by simp [Batch.receive, take, h.processed, hfailed]
      enriched := by
        rw [hzip, List.filterMap_append, ← h.enriched]
        simp [Batch.receive, take, Exchange.row?]
      faults := by simp [Batch.receive, take, h.faults, Exchange.fault?]
      streak := by
        rw [failuresAtEnd_concat, hfailed, ← h.streak]
        rfl }

/-- Every answer has one relevance. -/
theorem countP_relevance (log : List Exchange) :
    (log.countP fun x ↦ x.relevance? = some .success) +
        (log.countP fun x ↦ x.relevance? = some .doubt) +
        (log.countP fun x ↦ x.relevance? = some .failed) = log.countP fun x ↦ !x.failed := by
  induction log with
  | nil => rfl
  | cons x rest ih =>
    simp only [List.countP_cons, ← ih, x.failed_eq]
    cases hr : x.relevance? with
    | none => simp
    | some r =>
      cases r <;> simp <;> omega

/-- Every answer is counted once. -/
theorem Tallies.processed_eq {done : List (List String)} {log : List Exchange} {b : Batch}
    (h : b.Tallies done log) : b.progress.processed =
      b.progress.success + b.progress.doubt + b.progress.failed := by
  calc b.progress.processed
      = log.countP fun x ↦ !x.failed := h.processed
    _ = _ := (countP_relevance log).symm
    _ = b.progress.counted .success + b.progress.counted .doubt + b.progress.counted .failed := by
      rw [h.counted, h.counted, h.counted]

/-- Without an answer every request failed. -/
theorem Tallies.failuresAtEnd_eq {done : List (List String)} {log : List Exchange} {b : Batch}
    (h : b.Tallies done log) (hnone : b.progress.processed = 0) :
    failuresAtEnd log = log.length := by
  refine failuresAtEnd_of_forall fun x hx ↦ ?_
  have hcount := List.countP_eq_zero.1 (h.processed.symm.trans hnone) x hx
  simpa using hcount

/-- A batch is given up at the start when its only request failed. -/
theorem Tallies.abort?_eq_start_iff {done : List (List String)} {log : List Exchange} {b : Batch}
    (h : b.Tallies done log) : b.abort? = some .failedAtStart ↔ ∃ x, log = [x] ∧ x.failed := by
  have hstart : b.abort? = some .failedAtStart ↔ b.progress.processed = 0 ∧ b.streak = 1 := by
    rw [abort?]
    split
    · next hnone => simpa using hnone
    · next hsome =>
      split <;> simpa using hsome
  rw [hstart]
  constructor
  · rintro ⟨hnone, hone⟩
    rw [h.streak, h.failuresAtEnd_eq hnone] at hone
    obtain ⟨x, rfl⟩ := List.length_eq_one_iff.1 hone
    have hcount := h.processed.symm.trans hnone
    exact ⟨x, rfl, by simpa using hcount⟩
  · rintro ⟨x, rfl, hx⟩
    refine ⟨?_, ?_⟩
    · simp [h.processed, hx]
    · simp [h.streak, failuresAtEnd, hx]

theorem Tallies.abort?_isSome_iff {done : List (List String)} {log : List Exchange} {b : Batch}
    (h : b.Tallies done log) : b.abort?.isSome ↔ GivesUp log := by
  rw [GivesUp, ← h.abort?_eq_start_iff, ← two_le_failuresAtEnd_iff, ← h.streak, abort?]
  split
  · simp
  · split <;> simp_all [maxStreak]

/-- **When a batch is given up later**, two requests at the end failed, and no more than two as
long as it was not given up before. -/
theorem Tallies.abort?_eq_consecutive {done : List (List String)} {log : List Exchange} {b : Batch}
    (h : b.Tallies done log) (hfirst : ¬ ∃ x, log = [x] ∧ x.failed)
    (hend : ∃ before x y, log = before ++ [x, y] ∧ x.failed ∧ y.failed)
    (hbefore : ∀ before, before <+: log → before ≠ log → ¬ GivesUp before) :
    b.abort? = some (.consecutiveFailures 2) := by
  have hstreak : b.streak = 2 := by
    obtain ⟨before, x, y, rfl, hx, hy⟩ := hend
    have hprefix : before ++ [x] <+: before ++ [x, y] := ⟨[y], by simp⟩
    have hnot := hbefore _ hprefix (by simp)
    have hshort : ¬ 2 ≤ failuresAtEnd (before ++ [x]) := fun hlong ↦
      hnot (.inr (two_le_failuresAtEnd_iff.1 hlong))
    rw [h.streak, show before ++ [x, y] = before ++ [x] ++ [y] by simp, failuresAtEnd_concat,
      if_pos hy]
    rw [failuresAtEnd_concat, if_pos hx] at hshort ⊢
    omega
  have hstart : ¬ (b.progress.processed = 0 ∧ b.streak = 1) := by omega
  rw [abort?, if_neg hstart, if_pos (by rw [hstreak, maxStreak]), hstreak]

/-! ## Where a run ends -/

/-- Whether the flag is up after these requests: the last of them raised it, or it was raised before
the first. -/
def flagAfter (raised : Bool) (log : List Exchange) : Bool :=
  (log.getLast?.map Exchange.interrupts).getD raised

theorem flagAfter_concat (raised : Bool) (log : List Exchange) (x : Exchange) :
    flagAfter raised (log ++ [x]) = x.interrupts := by
  simp [flagAfter]

theorem flagAfter_eq_true_iff {raised : Bool} {log : List Exchange} :
    flagAfter raised log = true ↔
      (log = [] ∧ raised = true) ∨ ∃ x ∈ log.getLast?, x.interrupts := by
  rcases log.eq_nil_or_concat with rfl | ⟨log, x, rfl⟩ <;> simp [flagAfter]

/-- The log of a run that may go on: no request before its end was one to stop after, and the flag
was down before each of them. -/
structure Open (raised : Bool) (log : List Exchange) (b : Batch) : Prop where
  goesOn : ∀ before, before <+: log → ¬ GivesUp before
  unraised : ∀ before, before <+: log → before ≠ log → flagAfter raised before = false
  flag : b.flag = flagAfter raised log
  interrupted : b.interrupted = false

theorem open_start (records : List (List String)) (raised : Bool) :
    Open raised [] (start records raised) where
  goesOn before hbefore := by
    rw [List.prefix_nil.1 hbefore]
    simp [GivesUp]
  unraised before hbefore hne := absurd (List.prefix_nil.1 hbefore) hne
  flag := rfl
  interrupted := rfl

/-- How a run can end. -/
inductive Ending (raised : Bool) (total : Nat) (log : List Exchange) (b : Batch) : Prop where
  /-- At a request after which the batch is given up. -/
  | givenUp (hlog : GivesUp log) (hb : b.interrupted = false)
  /-- After the last record. -/
  | complete (hlog : ¬ GivesUp log) (hlength : log.length = total) (hb : b.interrupted = false)
  /-- Because the flag is up and more requests were to come. -/
  | interrupted (hlog : ¬ GivesUp log) (hlength : log.length < total)
      (hraised : flagAfter raised log = true) (hb : b.interrupted)

/-- A run that has ended: its log belongs to the first records, and nothing came after a request to
stop after. -/
structure Ended (raised : Bool) (records : List (List String)) (log : List Exchange) (b : Batch) :
    Prop where
  tallies : b.Tallies (records.take log.length) log
  goesOn : ∀ before, before <+: log → before ≠ log → ¬ GivesUp before
  unraised : ∀ before, before <+: log → before ≠ log → flagAfter raised before = false
  ending : Ending raised records.length log b

section

variable {raised : Bool}

/-- Before a request that is made, none was one to stop after. -/
theorem Open.unraised_concat {log : List Exchange} {b : Batch} (h : Open raised log b)
    (hflag : b.flag = false) (x : Exchange) : ∀ before, before <+: log ++ [x] →
      before ≠ log ++ [x] → flagAfter raised before = false := by
  intro before hbefore hne
  rcases List.prefix_concat_iff.1 hbefore with rfl | hlog
  · exact absurd rfl hne
  by_cases hlast : before = log
  · subst hlast
    exact h.flag.symm.trans hflag
  · exact h.unraised before hlog hlast

theorem Open.goesOn_concat {log : List Exchange} {b : Batch} (h : Open raised log b)
    (x : Exchange) :
    ∀ before, before <+: log ++ [x] → before ≠ log ++ [x] → ¬ GivesUp before := by
  intro before hbefore hne
  rcases List.prefix_concat_iff.1 hbefore with rfl | hlog
  · exact absurd rfl hne
  · exact h.goesOn before hlog

/-! ### One request -/

theorem requestAll_of_flag (client : Client ω) (record : List String) (rest : List (List String))
    {b : Batch} (hflag : b.flag = true) (w : ω) :
    requestAll client (record :: rest) b w =
      ({ b with flag := false, interrupted := true }, w) := by
  rw [requestAll, if_pos hflag]

theorem requestAll_recorded_of_abort (client : Client ω) (record : List String)
    (rest : List (List String)) {b : Batch} (hflag : b.flag = false) {w : ω}
    (habort : (b.receive record (client.request (inputOf record) b.progress w)).abort?.isSome)
    (log : List Exchange) :
    let reply := client.request (inputOf record) b.progress w
    requestAll client.recorded (record :: rest) b (w, log) =
      (b.receive record reply, reply.state, log ++ [reply.toExchange (inputOf record)]) := by
  rw [requestAll, if_neg (by simp [hflag])]
  exact if_pos habort

theorem requestAll_recorded_of_goesOn (client : Client ω) (record : List String)
    (rest : List (List String)) {b : Batch} (hflag : b.flag = false) {w : ω}
    (hgoesOn : ¬ (b.receive record (client.request (inputOf record) b.progress w)).abort?.isSome)
    (log : List Exchange) :
    let reply := client.request (inputOf record) b.progress w
    requestAll client.recorded (record :: rest) b (w, log) =
      requestAll client.recorded rest (b.receive record reply)
        (reply.state, log ++ [reply.toExchange (inputOf record)]) := by
  rw [requestAll, if_neg (by simp [hflag])]
  exact if_neg hgoesOn

theorem interrupted_receive (b : Batch) (record : List String) (reply : Reply ω) :
    (b.receive record reply).interrupted = b.interrupted := by
  obtain ⟨answer, interrupts, state⟩ := reply
  cases answer <;> rfl

theorem flag_receive (b : Batch) (record : List String) (reply : Reply ω) :
    (b.receive record reply).flag = (b.flag || reply.interrupts) := by
  rfl

/-- A run goes on after a request that does not end it. -/
theorem Open.receive {log : List Exchange} {b : Batch} (h : Open raised log b)
    (hflag : b.flag = false) (record : List String) (reply : Reply ω)
    (hgoesOn : ¬ GivesUp (log ++ [reply.toExchange (inputOf record)])) :
    Open raised (log ++ [reply.toExchange (inputOf record)]) (b.receive record reply) where
  goesOn before hbefore := by
    by_cases hall : before = log ++ [reply.toExchange (inputOf record)]
    · rwa [hall]
    · exact h.goesOn_concat _ before hbefore hall
  unraised := h.unraised_concat hflag _
  flag := by simp [flag_receive, hflag, flagAfter_concat, Reply.toExchange]
  interrupted := by rw [interrupted_receive, h.interrupted]

/-- **Every run ends** in one of these ways, with the log of all its requests. -/
theorem ended_requestAll (client : Client ω) {done : List (List String)} {log : List Exchange}
    {b : Batch} (hb : b.Tallies done log) (hopen : Open raised log b) (rest : List (List String))
    (w : ω) :
    Ended raised (done ++ rest) (requestAll client.recorded rest b (w, log)).2.2
      (requestAll client.recorded rest b (w, log)).1 := by
  -- the records whose turn has come are as many as there are requests in the log
  have htake {done : List (List String)} {log : List Exchange} {b : Batch}
      (hb : b.Tallies done log) (rest : List (List String)) :
      (done ++ rest).take log.length = done := by
    rw [hb.length_eq, List.take_left]
  induction rest generalizing done log b w with
  | nil =>
    show Ended raised (done ++ []) log b
    refine ⟨(htake hb []).symm ▸ hb, fun before hbefore _ ↦ hopen.goesOn before hbefore,
      hopen.unraised, .complete (hopen.goesOn log (List.prefix_refl log)) ?_ hopen.interrupted⟩
    simp [hb.length_eq]
  | cons record rest ih =>
    cases hflag : b.flag with
    | true =>
      rw [requestAll_of_flag _ _ _ hflag]
      refine ⟨?_, fun before hbefore _ ↦ hopen.goesOn before hbefore, hopen.unraised,
        .interrupted (hopen.goesOn log (List.prefix_refl log)) ?_ (hopen.flag.symm.trans hflag)
          rfl⟩
      · show Tallies ((done ++ record :: rest).take log.length) log _
        rw [htake hb]
        exact ⟨hb.inputs, hb.counted, hb.processed, hb.enriched, hb.faults, hb.streak⟩
      · simp [hb.length_eq]
    | false =>
      have hb' := hb.receive record (client.request (inputOf record) b.progress w)
      by_cases habort :
          (b.receive record (client.request (inputOf record) b.progress w)).abort?.isSome
      · rw [requestAll_recorded_of_abort _ _ _ hflag habort]
        refine ⟨?_, hopen.goesOn_concat _, hopen.unraised_concat hflag _,
          .givenUp (hb'.abort?_isSome_iff.1 habort) ?_⟩
        · have htaken := htake hb' rest
          rw [List.append_assoc, List.singleton_append] at htaken
          rw [htaken]
          exact hb'
        · rw [interrupted_receive, hopen.interrupted]
      · rw [requestAll_recorded_of_goesOn _ _ _ hflag habort]
        have hopen' := hopen.receive hflag record _ (mt hb'.abort?_isSome_iff.2 habort)
        have hended := ih hb' hopen' (client.request (inputOf record) b.progress w).state
        rwa [List.append_assoc, List.singleton_append] at hended

end

/-- Keeping a log changes nothing else. -/
theorem requestAll_recorded (client : Client ω) (records : List (List String)) (b : Batch) (w : ω)
    (log : List Exchange) :
    requestAll client records b w =
      ((requestAll client.recorded records b (w, log)).1,
        (requestAll client.recorded records b (w, log)).2.1) := by
  induction records generalizing b w log with
  | nil => rfl
  | cons record rest ih =>
    cases hflag : b.flag with
    | true => rw [requestAll_of_flag _ _ _ hflag, requestAll_of_flag _ _ _ hflag]
    | false =>
      by_cases habort :
          (b.receive record (client.request (inputOf record) b.progress w)).abort?.isSome
      · rw [requestAll_recorded_of_abort _ _ _ hflag habort, requestAll, if_neg (by simp [hflag])]
        exact if_pos habort
      · rw [requestAll_recorded_of_goesOn _ _ _ hflag habort, ← ih, requestAll,
          if_neg (by simp [hflag])]
        exact if_neg habort

end Batch

/-! ## Reports -/

/-- What a report and the progress that is left say of the requests that were made, and of a flag
that was raised before any was. -/
structure Accounted (raised : Bool) (records : List (List String)) (log : List Exchange)
    (report : Report) (progress : Progress) : Prop where
  /-- Requests are made for the first records, in order, once each. -/
  inputs : log.map Exchange.input <+: records.map Batch.inputOf
  success : report.success = log.countP fun x ↦ x.relevance? = some .success
  doubt : report.doubt = log.countP fun x ↦ x.relevance? = some .doubt
  failed : report.failed = log.countP fun x ↦ x.relevance? = some .failed
  /-- Every answer is counted, and nothing else. -/
  answered : report.success + report.doubt + report.failed = log.countP fun x ↦ !x.failed
  processed : progress.processed = report.success + report.doubt + report.failed
  faults : report.faults = log.filterMap Exchange.fault?
  enriched : report.enriched = (records.zip log).filterMap fun d ↦ d.2.row? d.1
  failedAtStart : report.aborted = some .failedAtStart ↔ ∃ x ∈ log.head?, x.failed
  consecutiveFailures : report.aborted = some (.consecutiveFailures 2) ↔
    (∃ x ∈ log.head?, ¬ x.failed) ∧
      ∃ before x y, log = before ++ [x, y] ∧ x.failed ∧ y.failed
  /-- There is no other reason to give a batch up. -/
  aborted : report.aborted ∈ [none, some .failedAtStart, some (.consecutiveFailures 2)]
  /-- No request is made after two failures in a row. -/
  broken : ∀ before x y after, log = before ++ x :: y :: after → x.failed → y.failed → after = []
  /-- A flag that is raised during a request stops the batch after it, unless the request itself
  ends it. -/
  stopped : ∀ before x after, log = before ++ x :: after → x.interrupts →
    before.length + 1 < records.length → ¬ GivesUp (before ++ [x]) →
      after = [] ∧ report.interrupted = true
  /-- A flag that is raised before the first request stops the batch before it. -/
  unbegun : raised = true → records ≠ [] → log = [] ∧ report.interrupted = true
  interrupted : report.interrupted = true ↔ report.aborted = none ∧ log.length < records.length ∧
    ((log = [] ∧ raised = true) ∨ ∃ x ∈ log.getLast?, x.interrupts)
  /-- A batch that is neither given up nor interrupted asks about every record. -/
  complete : report.aborted = none → report.interrupted = false →
    log.map Exchange.input = records.map Batch.inputOf

namespace Batch

variable {raised : Bool} {records : List (List String)} {log : List Exchange} {b : Batch}

/-- Of a run that has ended, the first request failed only if it is the only one. -/
theorem Ended.head_failed_iff (h : Ended raised records log b) :
    (∃ x ∈ log.head?, x.failed) ↔ ∃ x, log = [x] ∧ x.failed := by
  constructor
  · rintro ⟨x, hx, hfailed⟩
    obtain ⟨rest, rfl⟩ : ∃ rest, log = x :: rest := by
      cases log with
      | nil => cases hx
      | cons y rest =>
        cases hx
        exact ⟨rest, rfl⟩
    by_cases hrest : rest = []
    · subst hrest
      exact ⟨x, rfl, hfailed⟩
    · exact absurd (.inl ⟨x, rfl, hfailed⟩) (h.goesOn [x] ⟨rest, rfl⟩ (by simpa using hrest))
  · rintro ⟨x, rfl, hfailed⟩
    exact ⟨x, rfl, hfailed⟩

/-- A run that ends in two failures is given up for them. -/
theorem Ended.abort?_eq_of_end (h : Ended raised records log b)
    (hend : ∃ before x y, log = before ++ [x, y] ∧ x.failed ∧ y.failed) :
    b.abort? = some (.consecutiveFailures 2) := by
  refine h.tallies.abort?_eq_consecutive ?_ hend h.goesOn
  rintro ⟨z, hz, -⟩
  obtain ⟨before, x, y, hlog, -, -⟩ := hend
  simpa using congrArg List.length (hz.symm.trans hlog)

theorem Ended.abort?_eq_consecutive_iff (h : Ended raised records log b) :
    b.abort? = some (.consecutiveFailures 2) ↔ (∃ x ∈ log.head?, ¬ x.failed) ∧
      ∃ before x y, log = before ++ [x, y] ∧ x.failed ∧ y.failed := by
  constructor
  · intro hb
    have hstart : ¬ ∃ x, log = [x] ∧ x.failed := by
      rw [← h.tallies.abort?_eq_start_iff, hb]
      simp
    have hend := (h.tallies.abort?_isSome_iff.1 (by rw [hb]; rfl)).resolve_left hstart
    refine ⟨?_, hend⟩
    obtain ⟨x, hx⟩ : ∃ x, x ∈ log.head? := by
      obtain ⟨before, x, y, rfl, -⟩ := hend
      exact Option.isSome_iff_exists.1 (by simp)
    exact ⟨x, hx, fun hfailed ↦ hstart (h.head_failed_iff.1 ⟨x, hx, hfailed⟩)⟩
  · rintro ⟨-, hend⟩
    exact h.abort?_eq_of_end hend

theorem Ended.abort?_mem (h : Ended raised records log b) :
    b.abort? ∈ [none, some .failedAtStart, some (.consecutiveFailures 2)] := by
  cases hb : b.abort? with
  | none => simp
  | some reason =>
    rw [← hb]
    rcases h.tallies.abort?_isSome_iff.1 (by rw [hb]; rfl) with hstart | hend
    · simp [h.tallies.abort?_eq_start_iff.2 hstart]
    · simp [h.abort?_eq_of_end hend]

theorem Ended.abort?_eq_none_iff (h : Ended raised records log b) :
    b.abort? = none ↔ ¬ GivesUp log := by
  rw [← h.tallies.abort?_isSome_iff]
  simp

theorem Ended.interrupted_iff (h : Ended raised records log b) :
    b.interrupted = true ↔ b.abort? = none ∧ log.length < records.length ∧
      flagAfter raised log = true := by
  rw [h.abort?_eq_none_iff]
  cases h.ending with
  | givenUp hlog hb => simp [hlog, hb]
  | complete hlog hlength hb => simp [hlength, hb]
  | interrupted hlog hlength hraised hb => exact iff_of_true hb ⟨hlog, hlength, hraised⟩

/-- Nothing follows two failures in a row. -/
theorem Ended.eq_nil_of_failed (h : Ended raised records log b) {before after : List Exchange}
    {x y : Exchange} (hlog : log = before ++ x :: y :: after) (hx : x.failed) (hy : y.failed) :
    after = [] := by
  by_contra hafter
  refine h.goesOn (before ++ [x, y]) ⟨after, by simp [hlog]⟩ ?_ (.inr ⟨before, x, y, rfl, hx, hy⟩)
  simpa [hlog] using hafter

/-- Nothing follows a request during which the flag was raised. -/
theorem Ended.eq_nil_of_interrupts (h : Ended raised records log b) {before after : List Exchange}
    {x : Exchange} (hlog : log = before ++ x :: after) (hx : x.interrupts) : after = [] := by
  by_contra hafter
  have hx' := h.unraised (before ++ [x]) ⟨after, by simp [hlog]⟩ (by simpa [hlog] using hafter)
  rw [flagAfter_concat, hx] at hx'
  cases hx'

/-- Nothing is requested after the flag was raised at the start. -/
theorem Ended.eq_nil_of_raised (h : Ended raised records log b) (hraised : raised = true) :
    log = [] := by
  by_contra hlog
  have hstart : raised = false := h.unraised [] (List.nil_prefix ..) (Ne.symm hlog)
  cases hstart.symm.trans hraised

/-- **The report of a run that has ended** says what its log says. -/
theorem Ended.accounted (h : Ended raised records log b) :
    Accounted raised records log (Report.ofBatch b) { b.progress with inProgress := false } where
  inputs := by
    rw [h.tallies.inputs, List.map_take]
    exact List.take_prefix ..
  success := h.tallies.counted .success
  doubt := h.tallies.counted .doubt
  failed := h.tallies.counted .failed
  answered := h.tallies.processed_eq.symm.trans h.tallies.processed
  processed := h.tallies.processed_eq
  faults := h.tallies.faults
  enriched := by
    have hlength : (records.take log.length).length = log.length := h.tallies.length_eq.symm
    have hzip : records.zip log = (records.take log.length).zip log := by
      calc records.zip log
          = (records.take log.length ++ records.drop log.length).zip (log ++ []) := by
            rw [List.take_append_drop, List.append_nil]
        _ = (records.take log.length).zip log := by
            rw [List.zip_append hlength, List.zip_nil_right, List.append_nil]
    rw [hzip]
    exact h.tallies.enriched
  failedAtStart := h.tallies.abort?_eq_start_iff.trans h.head_failed_iff.symm
  consecutiveFailures := h.abort?_eq_consecutive_iff
  aborted := h.abort?_mem
  broken before x y after hlog hx hy := h.eq_nil_of_failed hlog hx hy
  stopped before x after hlog hx hmore hgoesOn := by
    obtain rfl := h.eq_nil_of_interrupts hlog hx
    subst hlog
    refine ⟨rfl, h.interrupted_iff.2 ⟨h.abort?_eq_none_iff.2 hgoesOn, ?_, ?_⟩⟩
    · simpa using hmore
    · rwa [flagAfter_concat]
  unbegun hraised hrecords := by
    obtain rfl := h.eq_nil_of_raised hraised
    have hgoesOn : ¬ GivesUp [] := by simp [GivesUp]
    exact ⟨rfl, h.interrupted_iff.2 ⟨h.abort?_eq_none_iff.2 hgoesOn,
      List.length_pos_iff.2 hrecords, hraised⟩⟩
  interrupted := by
    rw [← flagAfter_eq_true_iff]
    exact h.interrupted_iff
  complete haborted hinterrupted := by
    have hgoesOn := h.abort?_eq_none_iff.1 haborted
    rw [h.tallies.inputs]
    cases h.ending with
    | givenUp hlog => exact absurd hlog hgoesOn
    | complete hlog hlength => rw [hlength, List.take_length]
    | interrupted hlog hlength hraised hb => exact absurd (hb.symm.trans hinterrupted) (by simp)

end Batch

namespace Enricher

/-- A batch of a service that is ready begins with nothing counted, and ends with a report. -/
theorem run_of_ready {client : Client ω} {w : ω} (hready : client.ready w = .ok ())
    (records : List (List String)) (e : Enricher) :
    let final := Batch.requestAll client records (.start records (client.raisedEarly w)) w
    run client records e w = (.ok (Report.ofBatch final.1),
      ⟨final.1.flag, { final.1.progress with inProgress := false }⟩, final.2) := by
  rw [run, hready]

/-- **What a batch accounts for.**  Whatever was enriched before and whatever the service answers,
a batch with a service that is ready ends with a report, and the report is accounted for by the
requests that were made. -/
theorem run_accounted (client : Client ω) (records : List (List String)) (e : Enricher) (w : ω)
    (hready : client.ready w = .ok ()) :
    ∃ (report : Report) (after : Enricher) (w' : ω) (log : List Exchange),
      run client records e w = (.ok report, after, w') ∧
        run client.recorded records e (w, []) = (.ok report, after, w', log) ∧
        Accounted (client.raisedEarly w) records log report after.progress := by
  let start : Batch := .start records (client.raisedEarly w)
  have hended := Batch.ended_requestAll client
    (Batch.tallies_start records (client.raisedEarly w))
    (Batch.open_start records (client.raisedEarly w)) records w
  have hplain := Batch.requestAll_recorded client records start w []
  have hready' : client.recorded.ready (w, []) = .ok () := hready
  rcases hrecorded : Batch.requestAll client.recorded records start (w, []) with ⟨final, w', log⟩
  rw [List.nil_append, hrecorded] at hended
  rw [hrecorded] at hplain
  refine ⟨Report.ofBatch final, ⟨final.flag, { final.progress with inProgress := false }⟩, w', log,
    ?_, ?_, hended.accounted⟩
  · rw [run_of_ready hready, hplain]
  · have hraised : client.recorded.raisedEarly (w, []) = client.raisedEarly w := rfl
    rw [run_of_ready hready', hraised, hrecorded]

/-! ## An example -/

/-- A service that gives the answers of a list, each with whether the flag is raised meanwhile, and
then finds nothing. -/
def scripted : Client (List (Answer × Bool)) where
  ready _ := .ok ()
  request _ _ script :=
    match script with
    | [] => ⟨.ok none, false, []⟩
    | (answer, interrupts) :: rest => ⟨answer, interrupts, rest⟩

/-- Something is found, nothing is found, and the service breaks down twice. -/
def breakdown : List (Answer × Bool) := [
  (.ok (some ⟨["2.35", "48.85"], 0.9⟩), false), (.error (.network "connection refused"), false),
  (.ok none, false), (.error (.timeout "3 Main St" "deadline"), false),
  (.error (.network "connection refused"), true)]

/-- Six addresses. -/
def addresses : List (List String) := [
  ["0", "Main St"], ["1", "Main St"], ["2", "Main St"], ["3", "Main St"], ["4", "Main St"],
  ["5", "Main St"]]

theorem breakdown_run_accounted :
    scripted.ready breakdown = .ok () ∧
      (∃ (report : Report) (after : Enricher) (rest : List (Answer × Bool)) (log : List Exchange),
        run scripted addresses ⟨true, {}⟩ breakdown = (.ok report, after, rest) ∧
          run scripted.recorded addresses ⟨true, {}⟩ (breakdown, []) =
            (.ok report, after, rest, log) ∧
          Accounted false addresses log report after.progress) ∧
      ∃ (report : Report) (after : Enricher),
        run { scripted with raisedEarly := fun _ ↦ true } addresses {} breakdown =
          (.ok report, after, breakdown) ∧
        report.interrupted = true := by
  refine ⟨rfl, run_accounted scripted addresses ⟨true, {}⟩ breakdown rfl, ?_⟩
  obtain ⟨report, after, rest, log, hrun, -, haccounted⟩ :=
    run_accounted { scripted with raisedEarly := fun _ ↦ true } addresses {} breakdown rfl
  have hrest : (run { scripted with raisedEarly := fun _ ↦ true } addresses {} breakdown).2.2 =
      breakdown := by
    decide +kernel
  rw [hrun] at hrest
  obtain rfl := hrest
  exact ⟨report, after, hrun, (haccounted.unbegun rfl (by decide)).2⟩

end Enricher

end ChartFeed
