import ChartFeed.Proofs.Store.Committed

/-!
# Committing now or later

A repository can commit every write as it makes it, or leave all of them to one commit at the end.
A store that commits each write reads its committed rows; one that waits carries out a growing list
of writes whenever it is read.

* `Repository.mutateAll` — calls that are made one after the other, all with the same commit flag;
* `Store.caughtUp` — the store that a commit leaves; it reads the same rows, and calls are staged in
  it as in the store itself (`Mutation.exists_stage_of_caughtUp`);
* `mutate_caughtUp_iff` — **one call**: it can be committed at once exactly when it goes through
  without a commit and no key is shared then;
* `mutateAll_caughtUp_iff` — **any calls**: they can be committed one by one exactly when they go
  through without commits and no key is shared on the way, and they leave the same;
* `commit_mutateAll` — calls that can be committed one by one can be committed together, with the
  same models and the same store in the end.
-/

set_option autoImplicit false

namespace ChartFeed

variable {α : Type} [Model α]

namespace Store

/-! ## What a commit leaves -/

/-- All that is visible is committed, and nothing waits. -/
def caughtUp (s : Store α) : Store α := { s with committed := s.visible, staged := [] }

theorem caughtUp_of_staged {s : Store α} (h : s.staged = []) : s.caughtUp = s := by
  obtain ⟨committed, staged, nextId, pendingFault⟩ := s
  cases h
  rfl

/-- Only what is visible, the counter and the fault matter for what a commit leaves. -/
theorem caughtUp_eq_iff {s t : Store α} :
    s.caughtUp = t.caughtUp ↔
      s.visible = t.visible ∧ s.nextId = t.nextId ∧ s.pendingFault = t.pendingFault := by
  simp [caughtUp]

/-- A commit goes through when no fault was asked for and no key is shared. -/
theorem commit_eq_ok_iff {s t : Store α} :
    s.commit = (.ok (), t) ↔
      s.pendingFault = none ∧ KeysApart s.visible.get? ∧ t = s.caughtUp := by
  rcases s.commit_cases with ⟨fault, hfault⟩ | ⟨hnone, ⟨key, hkey⟩ | hkeys⟩
  · simp [commit_of_fault hfault, hfault]
  · simp [commit_of_shared hnone hkey, hkey.not_keysApart]
  · simp [commit_of_apart hnone hkeys, hnone, hkeys, caughtUp, eq_comm]

/-- Stores that read the same rows still do after the same write. -/
theorem caughtUp_stage_congr {s t : Store α} (h : s.caughtUp = t.caughtUp) (w : Write α) :
    (s.stage w).caughtUp = (t.stage w).caughtUp := by
  rw [caughtUp_eq_iff] at h ⊢
  simpa using ⟨congrArg w.apply h.1, h.2⟩

theorem requireId_congr {s t : Store α} (h : s.visible = t.visible) (m : α) :
    s.requireId m = t.requireId m := by
  rw [requireId, requireId, h]

theorem add_congr {s t : Store α} (h : s.caughtUp = t.caughtUp) (m : α) :
    (s.add m).1 = (t.add m).1 ∧ (s.add m).2.caughtUp = (t.add m).2.caughtUp := by
  obtain ⟨hvisible, hnext, hfault⟩ := caughtUp_eq_iff.1 h
  cases hid : Model.id? m with
  | some id =>
    rw [add_of_id hid, add_of_id hid]
    exact ⟨rfl, caughtUp_stage_congr h _⟩
  | none =>
    rw [add_of_no_id hid, add_of_no_id hid, hnext]
    refine ⟨rfl, caughtUp_stage_congr (caughtUp_eq_iff.2 ?_) _⟩
    exact ⟨hvisible, rfl, hfault⟩

end Store

/-! ## One call -/

open Store (caughtUp_eq_iff)

/-- Stores that read the same rows stage a call in the same way, and then still read the same. -/
theorem Mutation.exists_stage_of_caughtUp {s t next : Store α} {call : Mutation α} {m : α}
    (h : s.caughtUp = t.caughtUp) (hstage : call.stage s = .ok (m, next)) :
    ∃ next', call.stage t = .ok (m, next') ∧ next'.caughtUp = next.caughtUp := by
  have hrequire := Store.requireId_congr (caughtUp_eq_iff.1 h).1
  cases call with
  | create properties =>
    obtain ⟨assigned, hassign, hadd⟩ := stage_create_eq_ok_iff.1 hstage
    obtain ⟨hmodel, hnext⟩ := Store.add_congr h assigned
    rw [hadd] at hmodel hnext
    refine ⟨(t.add assigned).2, stage_create_eq_ok_iff.2 ⟨assigned, hassign, ?_⟩, hnext.symm⟩
    exact Prod.ext hmodel.symm rfl
  | update old properties =>
    obtain ⟨hassign, hmerge⟩ := stage_update_eq_ok_iff.1 hstage
    obtain ⟨hfound, rfl⟩ := Store.merge_eq_ok_iff.1 hmerge
    refine ⟨_, stage_update_eq_ok_iff.2 ⟨hassign, Store.merge_eq_ok_iff.2 ⟨?_, rfl⟩⟩, ?_⟩
    · exact hrequire m ▸ hfound
    · exact Store.caughtUp_stage_congr h.symm _
  | delete old =>
    obtain ⟨hmodel, hdelete⟩ := stage_delete_eq_ok_iff.1 hstage
    obtain ⟨id, hfound, rfl⟩ := Store.delete_eq_ok_iff.1 hdelete
    refine ⟨_, stage_delete_eq_ok_iff.2 ⟨hmodel, Store.delete_eq_ok_iff.2 ⟨id, ?_, rfl⟩⟩, ?_⟩
    · exact hrequire old ▸ hfound
    · exact Store.caughtUp_stage_congr h.symm _

/-- Staging a write leaves the fault that was asked for. -/
theorem Mutation.pendingFault_of_stage {s next : Store α} {call : Mutation α} {m : α}
    (h : call.stage s = .ok (m, next)) : next.pendingFault = s.pendingFault := by
  obtain ⟨id, value?, hasks⟩ := exists_asks h
  exact (hasks.staged h).2.pendingFault

namespace Repository

variable {r : Repository α} {s t : Store α} {call : Mutation α} {m : α}

theorem commitIf_true (s : Store α) : commitIf true s = s.commit := rfl

theorem commitIf_false (s : Store α) : commitIf false s = (.ok (), s) := rfl

/-- A call goes through when it is allowed, its write is staged and the commit, if there is one,
goes through. -/
theorem mutate_eq_ok_iff {commit : Bool} :
    r.mutate commit s call = (.ok m, t) ↔
      call.AllowedBy r ∧
        ∃ next, call.stage s = .ok (m, next) ∧ commitIf commit next = (.ok (), t) := by
  by_cases hallowed : call.AllowedBy r
  · rw [mutate_eq hallowed]
    cases hstage : call.stage s with
    | error cause => simp
    | ok staged =>
      obtain ⟨m', next⟩ := staged
      rcases hcommit : commitIf commit next with ⟨result, after⟩
      cases result with
      | ok => simp [settle, hallowed, hcommit, and_assoc]
      | error => simp [settle, hcommit]
  · simp [mutate_of_not_allowed hallowed, hallowed]

/-- A call that goes through without a commit leaves the fault that was asked for. -/
theorem pendingFault_mutate_false (h : r.mutate false s call = (.ok m, t)) :
    t.pendingFault = s.pendingFault := by
  obtain ⟨-, next, hstage, hnext⟩ := mutate_eq_ok_iff.1 h
  obtain rfl : next = t := congrArg Prod.snd hnext
  exact Mutation.pendingFault_of_stage hstage

/-- **One call.**  It goes through with a commit, in the store that a commit left, exactly when it
goes through without one and no key is shared then. -/
theorem mutate_caughtUp_iff (hfault : s.pendingFault = none) :
    r.mutate true s.caughtUp call = (.ok m, t) ↔
      ∃ next, r.mutate false s call = (.ok m, next) ∧ KeysApart next.visible.get? ∧
        t = next.caughtUp := by
  have hsame : s.caughtUp.caughtUp = s.caughtUp := rfl
  simp only [mutate_eq_ok_iff, commitIf_true, commitIf_false, Store.commit_eq_ok_iff,
    Prod.mk.injEq, true_and]
  constructor
  · rintro ⟨hallowed, next, hstage, -, hkeys, rfl⟩
    obtain ⟨next', hstage', hnext⟩ := Mutation.exists_stage_of_caughtUp hsame hstage
    obtain ⟨hvisible, -, -⟩ := caughtUp_eq_iff.1 hnext
    exact ⟨next', ⟨hallowed, next', hstage', rfl⟩, hvisible ▸ hkeys, hnext.symm⟩
  · rintro ⟨_, ⟨hallowed, next, hstage, rfl⟩, hkeys, rfl⟩
    have hnone : next.pendingFault = none := (Mutation.pendingFault_of_stage hstage).trans hfault
    obtain ⟨next', hstage', hnext⟩ := Mutation.exists_stage_of_caughtUp hsame.symm hstage
    obtain ⟨hvisible, -, hfault'⟩ := caughtUp_eq_iff.1 hnext
    exact ⟨hallowed, next', hstage', hfault'.trans hnone, hvisible ▸ hkeys, hnext.symm⟩

/-! ## Any calls -/

/-- Makes calls one after the other, all with the same commit flag. -/
def mutateAll (r : Repository α) (commit : Bool) (s : Store α) :
    List (Mutation α) → List (Except RepositoryFault α) × Store α
  | [] => ([], s)
  | call :: rest =>
    ((r.mutate commit s call).1 :: (r.mutateAll commit (r.mutate commit s call).2 rest).1,
      (r.mutateAll commit (r.mutate commit s call).2 rest).2)

theorem mutateAll_cons_eq_iff {commit : Bool} {rest : List (Mutation α)}
    {answers : List (Except RepositoryFault α)} :
    r.mutateAll commit s (call :: rest) = (.ok m :: answers, t) ↔
      ∃ next, r.mutate commit s call = (.ok m, next) ∧
        r.mutateAll commit next rest = (answers, t) := by
  rcases hcall : r.mutate commit s call with ⟨answer, next⟩
  simp [mutateAll, hcall, Prod.ext_iff, and_assoc]

/-- Keys are apart all along the calls. -/
def ApartAlong (r : Repository α) (s : Store α) (calls : List (Mutation α)) : Prop :=
  ∀ before, before <+: calls → KeysApart (r.mutateAll false s before).2.visible.get?

theorem apartAlong_nil_iff : r.ApartAlong s [] ↔ KeysApart s.visible.get? := by
  simp [ApartAlong, mutateAll]

theorem apartAlong_cons_iff {rest : List (Mutation α)} :
    r.ApartAlong s (call :: rest) ↔
      KeysApart s.visible.get? ∧ r.ApartAlong (r.mutate false s call).2 rest := by
  constructor
  · intro h
    refine ⟨h [] List.nil_prefix, fun before hbefore ↦ ?_⟩
    exact h (call :: before) (List.cons_prefix_cons.2 ⟨rfl, hbefore⟩)
  · rintro ⟨hs, hrest⟩ before hbefore
    rcases List.prefix_cons_iff.1 hbefore with rfl | ⟨more, rfl, hmore⟩
    · exact hs
    · exact hrest more hmore

/-- Calls that go through without commits leave the fault that was asked for. -/
theorem pendingFault_mutateAll_false {calls : List (Mutation α)} {models : List α}
    (h : r.mutateAll false s calls = (models.map .ok, t)) : t.pendingFault = s.pendingFault := by
  induction calls generalizing s models with
  | nil => exact congrArg (Store.pendingFault ∘ Prod.snd) h.symm
  | cons call rest ih =>
    cases models with
    | nil => simp [mutateAll] at h
    | cons m models =>
      obtain ⟨next, hcall, hrest⟩ := mutateAll_cons_eq_iff.1 h
      exact (ih hrest).trans (pendingFault_mutate_false hcall)

/-- **Any calls.**  In the store that a commit left they go through with a commit each exactly when
they go through without commits and no key is shared on the way.  Then both leave the same, but for
what is still to be committed. -/
theorem mutateAll_caughtUp_iff {calls : List (Mutation α)} {models : List α}
    (hfault : s.pendingFault = none) (hkeys : KeysApart s.visible.get?) :
    r.mutateAll true s.caughtUp calls = (models.map .ok, t) ↔
      ∃ last, r.mutateAll false s calls = (models.map .ok, last) ∧ r.ApartAlong s calls ∧
        t = last.caughtUp := by
  induction calls generalizing s models with
  | nil => simp [mutateAll, apartAlong_nil_iff, hkeys, eq_comm]
  | cons call rest ih =>
    cases models with
    | nil => simp [mutateAll]
    | cons m models =>
      rw [List.map_cons]
      simp only [mutateAll_cons_eq_iff, mutate_caughtUp_iff hfault, apartAlong_cons_iff]
      constructor
      · rintro ⟨_, ⟨next, hcall, hapart, rfl⟩, hrest⟩
        have hnone : next.pendingFault = none := (pendingFault_mutate_false hcall).trans hfault
        obtain ⟨last, hlast, halong, ht⟩ := (ih hnone hapart).1 hrest
        exact ⟨last, ⟨next, hcall, hlast⟩, ⟨hkeys, by rwa [hcall]⟩, ht⟩
      · rintro ⟨last, ⟨next, hcall, hlast⟩, ⟨-, halong⟩, ht⟩
        rw [hcall] at halong
        have hnone : next.pendingFault = none := (pendingFault_mutate_false hcall).trans hfault
        have hapart : KeysApart next.visible.get? := halong [] List.nil_prefix
        exact ⟨next.caughtUp, ⟨next, hcall, hapart, rfl⟩,
          (ih hnone hapart).2 ⟨last, hlast, halong, ht⟩⟩

/-! ## One commit in the end -/

open Store (operated Operation)

/-- **Later is as good as now.**  Calls that a repository makes one after the other, each with a
commit, in a store where nothing waits and no fault was asked for, whatever was done with it before:
if all of them go through, then they go through without commits too and answer with the same models,
and one commit in the end leaves the very same store, in which nothing waits. -/
theorem commit_mutateAll (r : Repository α) (operations : List (Operation α))
    (calls : List (Mutation α)) (models : List α)
    (hstaged : (operated operations).staged = [])
    (hfault : (operated operations).pendingFault = none)
    (hnow : (r.mutateAll true (operated operations) calls).1 = models.map .ok) :
    (r.mutateAll false (operated operations) calls).1 = models.map .ok ∧
      (r.mutateAll false (operated operations) calls).2.commit =
        (.ok (), (r.mutateAll true (operated operations) calls).2) ∧
      (r.mutateAll true (operated operations) calls).2.staged = [] := by
  have hkeys : KeysApart (operated operations).committed.get? :=
    (Store.orderly_operated operations).apart
  generalize operated operations = s at hstaged hfault hnow hkeys ⊢
  have hs : s.caughtUp = s := Store.caughtUp_of_staged hstaged
  have hvisible : s.visible = s.committed := congrArg Store.committed hs
  have hall : r.mutateAll true s.caughtUp calls =
      (models.map .ok, (r.mutateAll true s calls).2) := by
    rw [hs, ← hnow]
  obtain ⟨last, hlast, halong, hleft⟩ := (mutateAll_caughtUp_iff hfault (hvisible ▸ hkeys)).1 hall
  have hlastKeys : KeysApart last.visible.get? := by
    simpa only [hlast] using halong calls (List.prefix_refl calls)
  have hlastFault : last.pendingFault = none := (pendingFault_mutateAll_false hlast).trans hfault
  rw [hlast, hleft]
  exact ⟨rfl, Store.commit_eq_ok_iff.2 ⟨hlastFault, hlastKeys, rfl⟩, rfl⟩

/-- A repository of databases that does not restrict anything. -/
def databases : Repository Database := {}

/-- One database is made and committed. -/
def salesMade : List (Operation Database) :=
  [.mutation databases true (.create [("database_name", .str "sales")])]

/-- Another database is made and changed, and the first one is deleted. -/
def stockForSales : List (Mutation Database) := [.create [("database_name", .str "stock")],
  .update { id := some 2, name := "stock" } [("allow_dml", .bool true)],
  .delete { id := some 1, name := "sales" }]

/-- The models that these calls answer with. -/
def stockForSalesModels : List Database := [{ id := some 2, name := "stock" },
  { id := some 2, name := "stock", allowWrites := true }, { id := some 1, name := "sales" }]

theorem commit_mutateAll_stockForSales :
    (operated salesMade).staged = [] ∧ (operated salesMade).pendingFault = none ∧
      (databases.mutateAll true (operated salesMade) stockForSales).1 =
        stockForSalesModels.map .ok ∧
      (databases.mutateAll false (operated salesMade) stockForSales).1 =
        stockForSalesModels.map .ok ∧
      (databases.mutateAll false (operated salesMade) stockForSales).2.commit =
        (.ok (), (databases.mutateAll true (operated salesMade) stockForSales).2) ∧
      (databases.mutateAll true (operated salesMade) stockForSales).2.staged = [] :=
  ⟨rfl, rfl, rfl, commit_mutateAll databases salesMade stockForSales _ rfl rfl rfl⟩

/-- The other way round it fails: two databases can change names with one commit in the end, but not
with a commit each. -/
example :
    let both : List (Operation Database) := [.call (.add { id := some 1, name := "sales" }),
      .call (.add { id := some 2, name := "stock" }), .call .commit]
    let calls : List (Mutation Database) :=
      [.update { id := some 1, name := "sales" } [("database_name", .str "stock")],
        .update { id := some 2, name := "stock" } [("database_name", .str "sales")]]
    (databases.mutateAll false (operated both) calls).2.commit.1 = .ok () ∧
      (databases.mutateAll true (operated both) calls).1 =
        [.error (.updateFailed (.notUnique "database" "database_name" "stock")),
          .error (.updateFailed (.notUnique "database" "database_name" "sales"))] :=
  ⟨rfl, rfl⟩

end Repository

end ChartFeed
