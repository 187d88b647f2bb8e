import ChartFeed.Proofs.Store.Calls
import ChartFeed.Store.Repository

/-!
# Calls of a repository are atomic

A call of a repository sets properties, stages one write and, if asked to, commits.  Each of these
can fail, and other writes may be waiting already.  This file says what is left in every case.

* `Mutation` — the calls of a repository that write;
* `Mutation.Asks` — which write a call asks for: under one number one value, or none;
* `Mutation.stage` — the part of a call before the commit, `mutate_eq` says that each call is this
  part, a commit and the rule for failures;
* `Atomic` — what may be left: all is dropped that was staged, or just this write was added;
* `mutate_atomic` — **every call is atomic**, in every store and with every commit flag.
-/

set_option autoImplicit false

namespace ChartFeed

variable {α : Type}

/-! ## Calls that write -/

/-- A call of a repository that writes. -/
inductive Mutation (α : Type) where
  | create (properties : Dict Json)
  | update (m : α) (properties : Dict Json)
  | delete (m : α)

namespace Mutation

/-- The fault of a call that failed for this cause. -/
def failed : Mutation α → StoreFault → RepositoryFault
  | .create _ => .createFailed
  | .update .. => .updateFailed
  | .delete _ => .deleteFailed

/-- A repository that does not know what it creates turns down calls that create. -/
def AllowedBy (r : Repository α) : Mutation α → Prop
  | .create _ => r.configured = true
  | _ => True

theorem failed_ne_unconfigured (call : Mutation α) (cause : StoreFault) :
    call.failed cause ≠ .unconfigured := by
  cases call <;> exact nofun

variable [Model α]

/-- The call asks the store to put this value, or nothing, under this number, and answers with this
model. -/
inductive Asks (s : Store α) : Mutation α → α → Int → Option α → Prop
  /-- A new model gets the next number. -/
  | create {properties : Dict Json} {m : α} (h : Model.assign properties (Model.blank : α) = .ok m)
      (hid : Model.id? m = none) :
      Asks s (.create properties) (Model.withId s.nextId m) s.nextId
        (some (Model.withId s.nextId m))
  | createNumbered {properties : Dict Json} {m : α} {id : Int}
      (h : Model.assign properties (Model.blank : α) = .ok m) (hid : Model.id? m = some id) :
      Asks s (.create properties) m id (some m)
  | update {properties : Dict Json} {m changed old : α} {id : Int}
      (h : Model.assign properties m = .ok changed) (hid : Model.id? changed = some id)
      (hold : s.visible.get? id = some old) :
      Asks s (.update m properties) changed id (some changed)
  | delete {m old : α} {id : Int} (hid : Model.id? m = some id)
      (hold : s.visible.get? id = some old) :
      Asks s (.delete m) m id none

end Mutation

namespace Repository

theorem settle_eq_ok {wrap : StoreFault → RepositoryFault} {m m' : α}
    {outcome : Except StoreFault Unit × Store α} (h : (settle wrap m outcome).1 = .ok m') :
    m = m' := by
  obtain ⟨_ | _, s⟩ := outcome
  · cases h
  · exact Except.ok.inj h

variable [Model α]

/-- Makes a call that writes. -/
def mutate (r : Repository α) (commit : Bool) (s : Store α) :
    Mutation α → Except RepositoryFault α × Store α
  | .create properties => r.create properties commit s
  | .update m properties => update m properties commit s
  | .delete m => delete m commit s

end Repository

variable [Model α]

/-! ## What may be left of a call -/

/-- What a call of a repository may answer, and what it may leave of the store. -/
structure Atomic (r : Repository α) (s : Store α) (call : Mutation α) (commit : Bool)
    (answer : Except RepositoryFault α) (after : Store α) : Prop where
  /-- A call that failed drops all that was staged, so that only committed rows are found. -/
  failed : ∀ fault, answer = .error fault → fault ≠ .unconfigured →
    after.committed = s.committed ∧ after.staged = [] ∧
      ∀ (finder : Repository α) (id : Int),
        finder.findById id after = (s.committed.get? id).filter finder.shows
  /-- A call that is turned down changes nothing. -/
  unconfigured : answer = .error .unconfigured → after = s
  /-- A call that commits makes the visible rows, with just this write, the committed ones. -/
  committed : ∀ m, answer = .ok m → commit = true →
    ∃ id value?, call.Asks s m id value? ∧
      after.committed.get? = Function.update s.visible.get? id value? ∧ after.staged = []
  /-- A call that does not commit adds just this write to what is visible. -/
  deferred : ∀ m, answer = .ok m → commit = false →
    ∃ id value?, call.Asks s m id value? ∧ after.committed = s.committed ∧
      after.visible.get? = Function.update s.visible.get? id value?
  /-- A fault is of the kind of the call, or says that the repository is not configured. -/
  kind : ∀ fault, answer = .error fault →
    (fault = .unconfigured ∧ ¬ call.AllowedBy r) ∨ ∃ cause, fault = call.failed cause
  /-- A call goes through when it is allowed, its properties can be set and its row is there, and,
  if it commits, no fault was asked for and no two rows would share a key. -/
  goesThrough : (∃ m, answer = .ok m) ↔ call.AllowedBy r ∧
    ∃ m id value?, call.Asks s m id value? ∧ (commit = true →
      s.pendingFault = none ∧ KeysApart (Function.update s.visible.get? id value?))

/-! ## One write is staged -/

/-- The store after a write of this value, or of nothing, under this number was staged. -/
structure Staged (s : Store α) (id : Int) (value? : Option α) (next : Store α) : Prop where
  committed : next.committed = s.committed
  visible : next.visible.get? = Function.update s.visible.get? id value?
  pendingFault : next.pendingFault = s.pendingFault

theorem staged_put {s : Store α} {m : α} {id : Int} (h : Model.id? m = some id) (nextId : Int) :
    Staged s id (some m) (({ s with nextId := nextId } : Store α).stage (.put m)) where
  committed := rfl
  visible := by
    rw [Store.visible_stage, Store.apply_put h, Rows.get?_insert]
    rfl
  pendingFault := rfl

theorem staged_drop (s : Store α) (id : Int) : Staged s id none (s.stage (.drop id)) where
  committed := rfl
  visible := by rw [Store.visible_stage, Store.apply_drop, Rows.get?_erase]
  pendingFault := rfl

namespace Mutation

/-- The part of a call before the commit: the model that it answers with, and the store with its
write. -/
def stage (s : Store α) : Mutation α → Except StoreFault (α × Store α)
  | .create properties => (Model.assign properties Model.blank).map s.add
  | .update m properties =>
    (Model.assign properties m).bind fun changed ↦ (s.merge changed).map (changed, ·)
  | .delete m => (s.delete m).map (m, ·)

/-- A call that asks for a write stages it. -/
theorem Asks.stage {s : Store α} {call : Mutation α} {m : α} {id : Int} {value? : Option α}
    (h : call.Asks s m id value?) :
    ∃ next, call.stage s = .ok (m, next) ∧ Staged s id value? next := by
  cases h with
  | create h hid =>
    refine ⟨_, ?_, staged_put (Model.id?_withId ..) (s.nextId + 1)⟩
    rw [Mutation.stage, h, Except.map, Store.add_of_no_id hid]
  | createNumbered h hid =>
    refine ⟨_, ?_, staged_put hid s.nextId⟩
    rw [Mutation.stage, h, Except.map, Store.add_of_id hid]
  | update h hid hold =>
    refine ⟨_, ?_, staged_put hid s.nextId⟩
    rw [Mutation.stage, h, Except.bind, Store.merge_of_visible hid hold]
    rfl
  | delete hid hold =>
    refine ⟨_, ?_, staged_drop s id⟩
    rw [Mutation.stage, Store.delete_of_visible hid hold]
    rfl

theorem stage_create_eq_ok_iff {s next : Store α} {properties : Dict Json} {m : α} :
    stage s (.create properties) = .ok (m, next) ↔
      ∃ assigned, Model.assign properties (Model.blank : α) = .ok assigned ∧
        s.add assigned = (m, next) := by
  rw [stage]
  cases Model.assign properties (Model.blank : α) <;> simp [Except.map]

theorem stage_update_eq_ok_iff {s next : Store α} {properties : Dict Json} {m changed : α} :
    stage s (.update m properties) = .ok (changed, next) ↔
      Model.assign properties m = .ok changed ∧ s.merge changed = .ok next := by
  rw [stage]
  cases hassign : Model.assign properties m with
  | error cause => simp [Except.bind]
  | ok assigned =>
    simp only [Except.bind, Except.ok.injEq]
    constructor
    · cases hmerge : s.merge assigned with
      | error cause => exact nofun
      | ok merged =>
        rintro ⟨⟩
        exact ⟨rfl, hmerge⟩
    · rintro ⟨rfl, hmerge⟩
      rw [hmerge]
      rfl

theorem stage_delete_eq_ok_iff {s next : Store α} {m m' : α} :
    stage s (.delete m) = .ok (m', next) ↔ m = m' ∧ s.delete m = .ok next := by
  rw [stage]
  cases s.delete m <;> simp [Except.map]

/-- What is staged was asked for. -/
theorem exists_asks {s next : Store α} {call : Mutation α} {m : α}
    (h : call.stage s = .ok (m, next)) : ∃ id value?, call.Asks s m id value? := by
  cases call with
  | create properties =>
    obtain ⟨assigned, hassign, hadd⟩ := stage_create_eq_ok_iff.1 h
    cases hid : Model.id? assigned with
    | none =>
      rw [Store.add_of_no_id hid] at hadd
      cases hadd
      exact ⟨_, _, .create hassign hid⟩
    | some id =>
      rw [Store.add_of_id hid] at hadd
      cases hadd
      exact ⟨_, _, .createNumbered hassign hid⟩
  | update old properties =>
    obtain ⟨hassign, hmerge⟩ := stage_update_eq_ok_iff.1 h
    rcases Store.exists_or_missing s.visible.get? m with ⟨id, row, hid, hrow⟩ | hmissing
    · exact ⟨id, _, .update hassign hid hrow⟩
    · cases (Store.merge_of_missing hmissing).symm.trans hmerge
  | delete old =>
    obtain ⟨rfl, hdelete⟩ := stage_delete_eq_ok_iff.1 h
    rcases Store.exists_or_missing s.visible.get? old with ⟨id, row, hid, hrow⟩ | hmissing
    · exact ⟨id, _, .delete hid hrow⟩
    · cases (Store.delete_of_missing hmissing).symm.trans hdelete

end Mutation

/-! ## Calls -/

namespace Repository

theorem mutate_of_not_allowed {r : Repository α} {call : Mutation α} (h : ¬ call.AllowedBy r)
    (commit : Bool) (s : Store α) : r.mutate commit s call = (.error .unconfigured, s) := by
  cases call with
  | create properties =>
    have hconfigured : ¬ r.configured = true := h
    rw [mutate, create, if_neg hconfigured]
  | update | delete => exact absurd trivial h

/-- A call stages its write, commits if asked to, and rolls back when either failed. -/
theorem mutate_eq {r : Repository α} {call : Mutation α} (h : call.AllowedBy r) (commit : Bool)
    (s : Store α) :
    r.mutate commit s call =
      match call.stage s with
      | .error cause => (.error (call.failed cause), s.rollback)
      | .ok (m, next) => settle call.failed m (commitIf commit next) := by
  cases call with
  | create properties =>
    have hconfigured : r.configured = true := h
    rw [mutate, create, if_pos hconfigured, Mutation.stage]
    cases Model.assign properties (Model.blank : α) <;> rfl
  | update m properties =>
    rw [mutate, update, Mutation.stage]
    cases Model.assign properties m with
    | error cause => rfl
    | ok changed =>
      simp only [Except.bind]
      cases s.merge changed <;> rfl
  | delete m =>
    rw [mutate, delete, Mutation.stage]
    cases s.delete m <;> rfl

/-- A call that went through asked for a write. -/
theorem asks_of_mutate {r : Repository α} {commit : Bool} {s : Store α} {call : Mutation α} {m : α}
    (h : (r.mutate commit s call).1 = .ok m) : ∃ id value?, call.Asks s m id value? := by
  have hallowed : call.AllowedBy r := by
    by_contra hnot
    rw [mutate_of_not_allowed hnot] at h
    cases h
  rw [mutate_eq hallowed] at h
  cases hstage : call.stage s with
  | error cause =>
    rw [hstage] at h
    cases h
  | ok staged =>
    obtain ⟨m', next⟩ := staged
    rw [hstage] at h
    obtain rfl := settle_eq_ok h
    exact Mutation.exists_asks hstage

/-- A commit that is asked for goes through, and then nothing waits, or it fails, and then the
committed rows are the same. -/
theorem commitIf_cases (commit : Bool) (s : Store α) :
    (commit = false ∧ commitIf commit s = (.ok (), s)) ∨
      (commit = true ∧ s.pendingFault = none ∧ KeysApart s.visible.get? ∧
        commitIf commit s = (.ok (), { s with committed := s.visible, staged := [] })) ∨
      (commit = true ∧ ¬ (s.pendingFault = none ∧ KeysApart s.visible.get?) ∧
        ∃ cause after, commitIf commit s = (.error cause, after) ∧
          after.committed = s.committed) := by
  cases commit with
  | false => exact .inl ⟨rfl, rfl⟩
  | true =>
    refine .inr ?_
    rw [commitIf, if_pos rfl]
    rcases s.commit_cases with ⟨fault, hfault⟩ | ⟨hnone, ⟨key, hkey⟩ | hkeys⟩
    · refine .inr ⟨rfl, fun hok ↦ ?_, _, _, Store.commit_of_fault hfault, rfl⟩
      cases hfault.symm.trans hok.1
    · exact .inr ⟨rfl, fun hok ↦ hkey.not_keysApart hok.2, _, _,
        Store.commit_of_shared hnone hkey, rfl⟩
    · exact .inl ⟨rfl, hnone, hkeys, Store.commit_of_apart hnone hkeys⟩

end Repository

/-! ## The three ways a call can end -/

section Atomic

variable {r : Repository α} {s : Store α} {call : Mutation α} {commit : Bool}

theorem atomic_of_not_allowed (h : ¬ call.AllowedBy r) :
    Atomic r s call commit (.error .unconfigured) s where
  failed _ hfault hne := by
    cases hfault
    exact absurd rfl hne
  unconfigured _ := rfl
  committed _ hok := nomatch hok
  deferred _ hok := nomatch hok
  kind _ hfault := by
    cases hfault
    exact .inl ⟨rfl, h⟩
  goesThrough := by
    refine ⟨?_, fun hcall ↦ absurd hcall.1 h⟩
    rintro ⟨m, hok⟩
    cases hok

theorem atomic_of_failed {cause : StoreFault} {failed : Store α}
    (hcommitted : failed.committed = s.committed)
    (h : ∀ m id value?, call.Asks s m id value? →
      ¬ (commit = true → s.pendingFault = none ∧
        KeysApart (Function.update s.visible.get? id value?))) :
    Atomic r s call commit (.error (call.failed cause)) failed.rollback where
  failed _ _ _ := by
    refine ⟨hcommitted, rfl, fun finder id ↦ ?_⟩
    rw [Repository.findById, Store.find?, Store.visible_rollback, hcommitted]
  unconfigured hfault := absurd (Except.error.inj hfault) (call.failed_ne_unconfigured cause)
  committed _ hok := nomatch hok
  deferred _ hok := nomatch hok
  kind _ hfault := .inr ⟨cause, (Except.error.inj hfault).symm⟩
  goesThrough := by
    constructor
    · rintro ⟨m, hok⟩
      cases hok
    · rintro ⟨-, m, id, value?, hasks, hok⟩
      exact absurd hok (h m id value? hasks)

theorem atomic_of_done {m : α} {id : Int} {value? : Option α} {done : Store α}
    (hallowed : call.AllowedBy r) (hasks : call.Asks s m id value?)
    (hok : commit = true → s.pendingFault = none ∧
      KeysApart (Function.update s.visible.get? id value?))
    (hvisible : done.visible.get? = Function.update s.visible.get? id value?)
    (hcommitted : commit = true → done.committed = done.visible ∧ done.staged = [])
    (hdeferred : commit = false → done.committed = s.committed) :
    Atomic r s call commit (.ok m) done where
  failed _ hfault := nomatch hfault
  unconfigured hfault := nomatch hfault
  committed _ hm htrue := by
    cases hm
    obtain ⟨hrows, hstaged⟩ := hcommitted htrue
    exact ⟨id, value?, hasks, hrows ▸ hvisible, hstaged⟩
  deferred _ hm hfalse := by
    cases hm
    exact ⟨id, value?, hasks, hdeferred hfalse, hvisible⟩
  kind _ hfault := nomatch hfault
  goesThrough := ⟨fun _ ↦ ⟨hallowed, m, id, value?, hasks, hok⟩, fun _ ↦ ⟨m, rfl⟩⟩

end Atomic

/-- The write that a call asks for shows in the store that it stages. -/
theorem Mutation.Asks.staged {s next : Store α} {call : Mutation α} {m m' : α} {id : Int}
    {value? : Option α} (h : call.Asks s m id value?) (hstage : call.stage s = .ok (m', next)) :
    m = m' ∧ Staged s id value? next := by
  obtain ⟨next', hstage', hstaged⟩ := h.stage
  cases hstage.symm.trans hstage'
  exact ⟨rfl, hstaged⟩

/-- **Calls are atomic.**  Whatever the store holds and whatever waits in it, a call of a repository
adds just the write that it asks for, or drops all that waits, or changes nothing. -/
theorem Repository.mutate_atomic (r : Repository α) (s : Store α) (call : Mutation α)
    (commit : Bool) :
    Atomic r s call commit (r.mutate commit s call).1 (r.mutate commit s call).2 := by
  by_cases hallowed : call.AllowedBy r
  swap
  · rw [mutate_of_not_allowed hallowed]
    exact atomic_of_not_allowed hallowed
  rw [mutate_eq hallowed]
  cases hstage : call.stage s with
  | error cause =>
    refine atomic_of_failed rfl fun m id value? hasks ↦ ?_
    obtain ⟨next, hstage', -⟩ := hasks.stage
    cases hstage.symm.trans hstage'
  | ok staged =>
    obtain ⟨m, next⟩ := staged
    obtain ⟨id, value?, hasks⟩ := Mutation.exists_asks hstage
    obtain ⟨-, hstaged⟩ := hasks.staged hstage
    dsimp only
    rcases commitIf_cases commit next with
      ⟨rfl, hdone⟩ | ⟨rfl, hnone, hkeys, hdone⟩ | ⟨rfl, hnot, cause, failed, hfailed, hcommitted⟩
    · rw [hdone]
      exact atomic_of_done hallowed hasks nofun hstaged.visible nofun fun _ ↦ hstaged.committed
    · rw [hdone]
      rw [hstaged.visible] at hkeys
      exact atomic_of_done hallowed hasks (fun _ ↦ ⟨hstaged.pendingFault ▸ hnone, hkeys⟩)
        hstaged.visible (fun _ ↦ ⟨rfl, rfl⟩) nofun
    · rw [hfailed]
      refine atomic_of_failed (hcommitted.trans hstaged.committed)
        fun m' id' value?' hasks' hok ↦ ?_
      obtain ⟨-, hstaged'⟩ := hasks'.staged hstage
      obtain ⟨hnone, hkeys⟩ := hok rfl
      exact hnot ⟨hstaged.pendingFault.trans hnone, hstaged'.visible ▸ hkeys⟩

end ChartFeed
