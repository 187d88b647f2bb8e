import ChartFeed.Proofs.Store.Calls

/-!
# A store is a session of two maps

A store keeps its writes in a list and carries them out again whenever it is read.  A `Session`
keeps two maps instead, what is committed and what is being worked on, and has no list.

* `Session.Step` — the rules of a session, one for each way a call can go;
* `Store.session` — the two maps of a store;
* `step_session_iff` — **one call**: a session may answer a call, and go on, exactly as the store
  does;
* `run_session_iff` — **any calls**: the answers that a session may give to a list of calls from the
  beginning are those of the store, and there are no others.

The maps are functions of the number, so nothing in the rules is about lists of writes or rows.
-/

set_option autoImplicit false

namespace ChartFeed

variable {α : Type}

/-! ## Sessions -/

/-- What is committed and what is being worked on, each under numbers. -/
structure Session (α : Type) where
  committed : Int → Option α
  working : Int → Option α
  /-- The number of the next value that has none. -/
  nextId : Int
  /-- The fault that the next commit fails with. -/
  pendingFault : Option StoreFault

namespace Session

/-- A session in which nothing has happened. -/
def empty : Session α := ⟨fun _ ↦ none, fun _ ↦ none, 1, none⟩

/-- Puts a value, or nothing, under a number of the working map. -/
def set (s : Session α) (id : Int) (m? : Option α) : Session α :=
  { s with working := Function.update s.working id m? }

variable [Model α]

open Store (Call Missing notFound)

/-- What a session may answer to a call, and the session after it. -/
inductive Step : Session α → Call α → Store.Answer α → Session α → Prop
  /-- A value that has a number is put under it. -/
  | add {s : Session α} {m : α} {id : Int} (hid : Model.id? m = some id) :
      Step s (.add m) (.stored m) (s.set id (some m))
  /-- A value without one gets the next. -/
  | addNew {s : Session α} {m : α} (hid : Model.id? m = none) :
      Step s (.add m) (.stored (Model.withId s.nextId m))
        { s.set s.nextId (some (Model.withId s.nextId m)) with nextId := s.nextId + 1 }
  /-- What is there is replaced. -/
  | merge {s : Session α} {m old : α} {id : Int} (hid : Model.id? m = some id)
      (hold : s.working id = some old) :
      Step s (.merge m) (.stored m) (s.set id (some m))
  | mergeMissing {s : Session α} {m : α} (h : Missing s.working m) :
      Step s (.merge m) (.failed (notFound m)) s
  /-- What is there is removed. -/
  | delete {s : Session α} {m old : α} {id : Int} (hid : Model.id? m = some id)
      (hold : s.working id = some old) :
      Step s (.delete m) .done (s.set id none)
  | deleteMissing {s : Session α} {m : α} (h : Missing s.working m) :
      Step s (.delete m) (.failed (notFound m)) s
  | find {s : Session α} {id : Int} : Step s (.find id) (.found (s.working id)) s
  /-- A fault that was asked for comes first, and is used up. -/
  | commitFault {s : Session α} {fault : StoreFault} (h : s.pendingFault = some fault) :
      Step s .commit (.failed fault) { s with pendingFault := none }
  /-- Working rows that share a key are not committed. -/
  | commitShared {s : Session α} {key : String × String} (h : s.pendingFault = none)
      (hkey : FirstShared s.working key) :
      Step s .commit (.failed (.notUnique (Model.kind α) key.1 key.2)) s
  | commit {s : Session α} (h : s.pendingFault = none) (hkeys : KeysApart s.working) :
      Step s .commit .done { s with committed := s.working }
  | rollback {s : Session α} : Step s .rollback .done { s with working := s.committed }
  | failNextCommit {s : Session α} {fault : StoreFault} :
      Step s (.failNextCommit fault) .done { s with pendingFault := some fault }

/-- What a session may answer to calls that are made one after the other. -/
inductive Run : Session α → List (Call α) → List (Store.Answer α) → Session α → Prop
  | nil {s : Session α} : Run s [] [] s
  | cons {s t u : Session α} {call : Call α} {rest : List (Call α)} {answer : Store.Answer α}
      {answers : List (Store.Answer α)} (h : Step s call answer t) (hrest : Run t rest answers u) :
      Run s (call :: rest) (answer :: answers) u

/-- A session may answer a call in one way only. -/
theorem Step.unique {s t t' : Session α} {call : Call α} {answer answer' : Store.Answer α}
    (h : Step s call answer t) (h' : Step s call answer' t') : answer = answer' ∧ t = t' := by
  cases h with
  | add hid =>
    cases h' with
    | add hid' => cases hid.symm.trans hid'; exact ⟨rfl, rfl⟩
    | addNew hid' => cases hid.symm.trans hid'
  | addNew hid =>
    cases h' with
    | add hid' => cases hid.symm.trans hid'
    | addNew => exact ⟨rfl, rfl⟩
  | merge hid hold =>
    cases h' with
    | merge hid' => cases hid.symm.trans hid'; exact ⟨rfl, rfl⟩
    | mergeMissing hmissing => cases hold.symm.trans (hmissing _ hid)
  | mergeMissing hmissing =>
    cases h' with
    | merge hid hold => cases hold.symm.trans (hmissing _ hid)
    | mergeMissing => exact ⟨rfl, rfl⟩
  | delete hid hold =>
    cases h' with
    | delete hid' => cases hid.symm.trans hid'; exact ⟨rfl, rfl⟩
    | deleteMissing hmissing => cases hold.symm.trans (hmissing _ hid)
  | deleteMissing hmissing =>
    cases h' with
    | delete hid hold => cases hold.symm.trans (hmissing _ hid)
    | deleteMissing => exact ⟨rfl, rfl⟩
  | find => cases h'; exact ⟨rfl, rfl⟩
  | commitFault hfault =>
    cases h' with
    | commitFault hfault' => cases hfault.symm.trans hfault'; exact ⟨rfl, rfl⟩
    | commitShared hnone => cases hfault.symm.trans hnone
    | commit hnone => cases hfault.symm.trans hnone
  | commitShared hnone hkey =>
    cases h' with
    | commitFault hfault => cases hfault.symm.trans hnone
    | commitShared _ hkey' => cases hkey.unique hkey'; exact ⟨rfl, rfl⟩
    | commit _ hkeys => exact absurd hkeys hkey.not_keysApart
  | commit hnone hkeys =>
    cases h' with
    | commitFault hfault => cases hfault.symm.trans hnone
    | commitShared _ hkey => exact absurd hkeys hkey.not_keysApart
    | commit => exact ⟨rfl, rfl⟩
  | rollback => cases h'; exact ⟨rfl, rfl⟩
  | failNextCommit => cases h'; exact ⟨rfl, rfl⟩

end Session

/-! ## The session of a store -/

namespace Store

variable [Model α]

/-- The two maps of a store. -/
def session (s : Store α) : Session α :=
  ⟨s.committed.get?, s.visible.get?, s.nextId, s.pendingFault⟩

theorem session_empty : (empty : Store α).session = .empty := rfl

theorem session_stage_put {m : α} {id : Int} (h : Model.id? m = some id) (s : Store α) :
    (s.stage (.put m)).session = s.session.set id (some m) := by
  simp [session, Session.set, apply_put h]

theorem session_stage_drop (s : Store α) (id : Int) :
    (s.stage (.drop id)).session = s.session.set id none := by
  simp [session, Session.set]

/-- What a store answers to a call is what its session may answer. -/
theorem step_perform (s : Store α) (call : Call α) :
    s.session.Step call (s.perform call).1 (s.perform call).2.session := by
  cases call with
  | add m =>
    cases hid : Model.id? m with
    | some id =>
      rw [perform, add_of_id hid, session_stage_put hid]
      exact .add hid
    | none =>
      have hnew : Model.id? (Model.withId s.nextId m) = some s.nextId := Model.id?_withId ..
      rw [perform, add_of_no_id hid, session_stage_put hnew]
      exact .addNew hid
  | merge m =>
    rcases exists_or_missing s.visible.get? m with ⟨id, old, hid, hold⟩ | hmissing
    · rw [perform, merge_of_visible hid hold]
      exact session_stage_put hid s ▸ .merge hid hold
    · rw [perform, merge_of_missing hmissing]
      exact .mergeMissing hmissing
  | delete m =>
    rcases exists_or_missing s.visible.get? m with ⟨id, old, hid, hold⟩ | hmissing
    · rw [perform, delete_of_visible hid hold]
      exact session_stage_drop s id ▸ .delete hid hold
    · rw [perform, delete_of_missing hmissing]
      exact .deleteMissing hmissing
  | find id => exact .find
  | commit =>
    rcases s.commit_cases with ⟨fault, hfault⟩ | ⟨hnone, ⟨key, hkey⟩ | hkeys⟩
    · rw [perform, commit_of_fault hfault]
      exact .commitFault hfault
    · rw [perform, commit_of_shared hnone hkey]
      exact .commitShared hnone hkey
    · rw [perform, commit_of_apart hnone hkeys]
      exact .commit hnone hkeys
  | rollback => exact .rollback
  | failNextCommit fault => exact .failNextCommit

/-- **One call.**  A session answers a call, and goes on, exactly as the store does. -/
theorem step_session_iff {s : Store α} {call : Call α} {answer : Store.Answer α} {t : Session α} :
    s.session.Step call answer t ↔
      answer = (s.perform call).1 ∧ t = (s.perform call).2.session := by
  constructor
  · exact fun h ↦ h.unique (s.step_perform call)
  · rintro ⟨rfl, rfl⟩
    exact s.step_perform call

theorem run_session {s : Store α} {calls : List (Call α)} {answers : List (Store.Answer α)}
    {t : Session α} :
    s.session.Run calls answers t ↔ answers = (s.run calls).1 ∧ t = (s.run calls).2.session := by
  induction calls generalizing s answers with
  | nil =>
    constructor
    · rintro ⟨⟩
      exact ⟨rfl, rfl⟩
    · rintro ⟨rfl, rfl⟩
      exact .nil
  | cons call rest ih =>
    constructor
    · rintro (_ | ⟨h, hrest⟩)
      obtain ⟨rfl, rfl⟩ := step_session_iff.1 h
      obtain ⟨rfl, rfl⟩ := ih.1 hrest
      exact ⟨rfl, rfl⟩
    · rintro ⟨rfl, rfl⟩
      exact .cons (s.step_perform call) (ih.2 ⟨rfl, rfl⟩)

/-- **Any calls.**  To calls that are made from the beginning a session may give the answers of the
store and no others, and it ends with the maps of the store. -/
theorem run_session_iff (calls : List (Call α)) (answers : List (Store.Answer α)) (t : Session α) :
    Session.empty.Run calls answers t ↔
      answers = ((empty : Store α).run calls).1 ∧ t = (after calls).session := by
  rw [← session_empty]
  exact run_session

end Store

end ChartFeed
