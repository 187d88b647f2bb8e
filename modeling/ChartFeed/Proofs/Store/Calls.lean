import ChartFeed.Proofs.Store.Keys

/-!
# Calls of a store

A store is used by one call after the other.  `Store.Call` has one constructor for each, and
`Store.run` makes a list of them; a property that every call keeps holds after every list.

* `Store.perform`, `Store.run` — what a call, and a list of calls, answers and leaves behind;
* `visible_stage` and its like — what the parts of a store are after each operation;
* `requireId_eq_ok_iff`, `requireId_of_missing` — when a value is there to be replaced or removed;
* `commit_of_fault`, `commit_of_shared`, `commit_of_apart` — the three ways a commit can go;
* `run_of_perform` — the induction over calls.
-/

set_option autoImplicit false

namespace ChartFeed.Store

variable {α : Type}

/-! ## The parts of a store -/

@[simp] theorem committed_stage (s : Store α) (w : Write α) :
    (s.stage w).committed = s.committed := rfl

@[simp] theorem nextId_stage (s : Store α) (w : Write α) : (s.stage w).nextId = s.nextId := rfl

@[simp] theorem pendingFault_stage (s : Store α) (w : Write α) :
    (s.stage w).pendingFault = s.pendingFault := rfl

variable [Model α]

@[simp] theorem visible_stage (s : Store α) (w : Write α) :
    (s.stage w).visible = w.apply s.visible := by
  simp [visible, stage, List.foldl_append]

@[simp] theorem visible_rollback (s : Store α) : s.rollback.visible = s.committed := rfl

theorem apply_put {m : α} {id : Int} (h : Model.id? m = some id) (rows : Rows α) :
    (Write.put m).apply rows = rows.insert id m := by
  rw [Write.apply, h]

@[simp] theorem apply_drop (id : Int) (rows : Rows α) :
    (Write.drop id : Write α).apply rows = rows.erase id := rfl

/-! ## Operations -/

theorem add_of_id {s : Store α} {m : α} {id : Int} (h : Model.id? m = some id) :
    s.add m = (m, s.stage (.put m)) := by
  rw [add, h]

theorem add_of_no_id {s : Store α} {m : α} (h : Model.id? m = none) :
    s.add m = (Model.withId s.nextId m,
      ({ s with nextId := s.nextId + 1 } : Store α).stage (.put (Model.withId s.nextId m))) := by
  rw [add, h]

theorem requireId_eq_ok_iff {s : Store α} {m : α} {id : Int} :
    s.requireId m = .ok id ↔ Model.id? m = some id ∧ ∃ old, s.visible.get? id = some old := by
  rw [requireId]
  cases Model.id? m with
  | none => simp
  | some k =>
    by_cases hk : s.visible.contains k = true
    · simp only [hk, if_true, Except.ok.injEq, Option.some.injEq]
      constructor
      · rintro rfl
        exact ⟨rfl, Rows.contains_iff.1 hk⟩
      · exact fun h ↦ h.1
    · simp only [hk, if_false, reduceCtorEq, false_iff, Option.some.injEq]
      rintro ⟨rfl, h⟩
      exact hk (Rows.contains_iff.2 h)

/-- The value is not there: it has no number, or no row is visible under it. -/
def Missing (rows : Int → Option α) (m : α) : Prop := ∀ id, Model.id? m = some id → rows id = none

/-- The fault that tells of a value that is not there. -/
def notFound (m : α) : StoreFault := .notFound (Model.kind α) ((Model.id? m).getD 0)

theorem requireId_of_missing {s : Store α} {m : α} (h : Missing s.visible.get? m) :
    s.requireId m = .error (notFound m) := by
  rw [requireId, notFound]
  cases hid : Model.id? m with
  | none => rfl
  | some id =>
    have hcontains : s.visible.contains id = false := by
      rw [Rows.contains, h id hid, Option.isSome_none]
    simp [hcontains]

/-- A value is there or it is missing. -/
theorem exists_or_missing (rows : Int → Option α) (m : α) :
    (∃ id old, Model.id? m = some id ∧ rows id = some old) ∨ Missing rows m := by
  by_cases h : Missing rows m
  · exact .inr h
  · simp only [Missing, not_forall] at h
    obtain ⟨id, hid, hrow⟩ := h
    obtain ⟨old, hold⟩ := Option.ne_none_iff_exists'.1 hrow
    exact .inl ⟨id, old, hid, hold⟩

theorem merge_eq_ok_iff {s next : Store α} {m : α} :
    s.merge m = .ok next ↔ (∃ id, s.requireId m = .ok id) ∧ s.stage (.put m) = next := by
  rw [merge]
  cases s.requireId m <;> simp [Except.map]

theorem delete_eq_ok_iff {s next : Store α} {m : α} :
    s.delete m = .ok next ↔ ∃ id, s.requireId m = .ok id ∧ s.stage (.drop id) = next := by
  rw [delete]
  cases s.requireId m <;> simp [Except.map]

theorem merge_of_visible {s : Store α} {m old : α} {id : Int} (hid : Model.id? m = some id)
    (hold : s.visible.get? id = some old) : s.merge m = .ok (s.stage (.put m)) := by
  rw [merge, requireId_eq_ok_iff.2 ⟨hid, old, hold⟩]
  rfl

theorem merge_of_missing {s : Store α} {m : α} (h : Missing s.visible.get? m) :
    s.merge m = .error (notFound m) := by
  rw [merge, requireId_of_missing h]
  rfl

theorem delete_of_visible {s : Store α} {m old : α} {id : Int} (hid : Model.id? m = some id)
    (hold : s.visible.get? id = some old) : s.delete m = .ok (s.stage (.drop id)) := by
  rw [delete, requireId_eq_ok_iff.2 ⟨hid, old, hold⟩]
  rfl

theorem delete_of_missing {s : Store α} {m : α} (h : Missing s.visible.get? m) :
    s.delete m = .error (notFound m) := by
  rw [delete, requireId_of_missing h]
  rfl

theorem commit_of_fault {s : Store α} {fault : StoreFault} (h : s.pendingFault = some fault) :
    s.commit = (.error fault, { s with pendingFault := none }) := by
  rw [commit, h]

theorem commit_of_shared {s : Store α} {key : String × String} (h : s.pendingFault = none)
    (hkey : FirstShared s.visible.get? key) :
    s.commit = (.error (.notUnique (Model.kind α) key.1 key.2), s) := by
  rw [commit, h, sharedKey?_eq_some_iff.2 hkey]

theorem commit_of_apart {s : Store α} (h : s.pendingFault = none)
    (hkeys : KeysApart s.visible.get?) :
    s.commit = (.ok (), { s with committed := s.visible, staged := [] }) := by
  rw [commit, h, sharedKey?_eq_none_iff.2 hkeys]

/-- A commit fails with the fault that was asked for, or with a shared key, or goes through. -/
theorem commit_cases (s : Store α) :
    (∃ fault, s.pendingFault = some fault) ∨
      s.pendingFault = none ∧
        ((∃ key, FirstShared s.visible.get? key) ∨ KeysApart s.visible.get?) := by
  cases hfault : s.pendingFault with
  | some fault => exact .inl ⟨fault, rfl⟩
  | none =>
    refine .inr ⟨rfl, ?_⟩
    cases hkey : sharedKey? s.visible with
    | some key => exact .inl ⟨key, sharedKey?_eq_some_iff.1 hkey⟩
    | none => exact .inr (sharedKey?_eq_none_iff.1 hkey)

/-! ## Calls -/

/-- A call of a store. -/
inductive Call (α : Type) where
  | add (m : α)
  | merge (m : α)
  | delete (m : α)
  | find (id : Int)
  | commit
  | rollback
  | failNextCommit (fault : StoreFault)

/-- What a store answers. -/
inductive Answer (α : Type) where
  /-- The value was staged, as it is given here. -/
  | stored (m : α)
  | found (m? : Option α)
  | done
  | failed (fault : StoreFault)
deriving DecidableEq

/-- What a call answers, and the store after it. -/
def perform (s : Store α) : Call α → Answer α × Store α
  | .add m => (.stored (s.add m).1, (s.add m).2)
  | .merge m =>
    match s.merge m with
    | .ok next => (.stored m, next)
    | .error fault => (.failed fault, s)
  | .delete m =>
    match s.delete m with
    | .ok next => (.done, next)
    | .error fault => (.failed fault, s)
  | .find id => (.found (s.find? id), s)
  | .commit =>
    match s.commit with
    | (.ok _, next) => (.done, next)
    | (.error fault, next) => (.failed fault, next)
  | .rollback => (.done, s.rollback)
  | .failNextCommit fault => (.done, s.failNextCommit fault)

/-- What calls answer that are made one after the other, and the store after them. -/
def run (s : Store α) : List (Call α) → List (Answer α) × Store α
  | [] => ([], s)
  | call :: rest =>
    ((s.perform call).1 :: ((s.perform call).2.run rest).1, ((s.perform call).2.run rest).2)

/-- The store after calls that begin without any row. -/
def after (calls : List (Call α)) : Store α := (empty.run calls).2

theorem run_append_snd (s : Store α) (calls more : List (Call α)) :
    (s.run (calls ++ more)).2 = ((s.run calls).2.run more).2 := by
  induction calls generalizing s with
  | nil => rfl
  | cons call rest ih => exact ih (s.perform call).2

theorem after_append (calls more : List (Call α)) :
    after (calls ++ more) = ((after calls).run more).2 :=
  run_append_snd empty calls more

/-- What every call keeps, every list of calls keeps. -/
theorem run_of_perform {p : Store α → Prop} (hp : ∀ s call, p s → p (s.perform call).2)
    {s : Store α} (hs : p s) (calls : List (Call α)) : p (s.run calls).2 := by
  induction calls generalizing s with
  | nil => exact hs
  | cons call rest ih => exact ih (hp s call hs)

end ChartFeed.Store
