import ChartFeed.Proofs.Store.Atomicity
import ChartFeed.Proofs.Store.Fields
import ChartFeed.Proofs.Store.Session

/-!
# Numbers that a store gives

A value that is added without a number gets the next number of a counter.  The counter does not
look at the rows: a value that is added with a number keeps it, and the counter stays where it is.

* `Session.Step.origin` — where a row comes from: it was there before, or the call put it there, and
  then it stands under its own number;
* `id?_of_find?` — every row stands under its own number, after any calls;
* `Passed` — no value is added with a number that the counter has not passed yet;
* `passed_iff_freshNumbers` — **numbers are fresh exactly then**: as long as calls keep to this,
  values without a number get numbers that no visible row has, and after the first call that does
  not, enough of them make one replace a row;
* `create_replaces_preset` — a row that is replaced when another one is created.
-/

set_option autoImplicit false

namespace ChartFeed

variable {α : Type}

/-! ## Where rows come from -/

namespace Session

/-- One of the two maps has this value under this number. -/
def Holds (s : Session α) (id : Int) (m : α) : Prop :=
  s.working id = some m ∨ s.committed id = some m

theorem Holds.of_set {s : Session α} {id k : Int} {m : α} {n? : Option α}
    (h : (s.set k n?).Holds id m) : s.Holds id m ∨ id = k ∧ n? = some m := by
  rcases h with h | h
  · simp only [set, Function.update_apply] at h
    split at h
    · next hk => exact .inr ⟨hk, h⟩
    · exact .inl (.inl h)
  · exact .inl (.inr h)

end Session

variable [Model α]

open Store (Call)

/-- The number of a value that is added with one. -/
def Store.Call.preset? : Call α → Option Int
  | .add m => Model.id? m
  | _ => none

namespace Session

/-- Where a row of the session after a call comes from. -/
inductive Origin (s t : Session α) (call : Call α) (id : Int) (m : α) : Prop
  | kept (h : s.Holds id m)
  /-- It was added with its number. -/
  | preset (hid : Model.id? m = some id) (h : call.preset? = some id)
  /-- It replaces a row that has its number. -/
  | replaced {old : α} (hid : Model.id? m = some id) (h : s.working id = some old)
  /-- It got the number of the counter. -/
  | given (hid : Model.id? m = some id) (h : id = s.nextId) (hnext : t.nextId = s.nextId + 1)

theorem Step.origin {s t : Session α} {call : Call α} {answer : Store.Answer α}
    (h : Step s call answer t) {id : Int} {m : α} (hm : t.Holds id m) : Origin s t call id m := by
  cases h with
  | add hid =>
    rcases hm.of_set with hold | ⟨rfl, hput⟩
    · exact .kept hold
    · cases hput
      exact .preset hid hid
  | addNew =>
    rcases Holds.of_set hm with hold | ⟨rfl, hput⟩
    · exact .kept hold
    · cases hput
      exact .given (Model.id?_withId ..) rfl rfl
  | merge hid hold =>
    rcases hm.of_set with hrow | ⟨rfl, hput⟩
    · exact .kept hrow
    · cases hput
      exact .replaced hid hold
  | delete =>
    rcases hm.of_set with hrow | ⟨-, hput⟩
    · exact .kept hrow
    · cases hput
  | commit => exact .kept (.inl (or_self_iff.1 hm))
  | rollback => exact .kept (.inr (or_self_iff.1 hm))
  | mergeMissing | deleteMissing | find | commitFault | commitShared | failNextCommit =>
    exact .kept hm

/-- The counter stays, or goes on by one. -/
theorem Step.nextId_cases {s t : Session α} {call : Call α} {answer : Store.Answer α}
    (h : Step s call answer t) : t.nextId = s.nextId ∨ t.nextId = s.nextId + 1 := by
  cases h with
  | addNew => exact .inr rfl
  | _ => exact .inl rfl

/-- Every row stands under its own number. -/
def Numbered (s : Session α) : Prop := ∀ id m, s.Holds id m → Model.id? m = some id

theorem Step.numbered {s t : Session α} {call : Call α} {answer : Store.Answer α}
    (h : Step s call answer t) (hs : s.Numbered) : t.Numbered := by
  intro id m hm
  cases h.origin hm with
  | kept hold => exact hs id m hold
  | preset hid | replaced hid | given hid => exact hid

/-- The counter has passed the number of every row. -/
def Behind (s : Session α) : Prop := ∀ id m, s.Holds id m → id < s.nextId

theorem Step.behind {s t : Session α} {call : Call α} {answer : Store.Answer α}
    (h : Step s call answer t) (hs : s.Behind) (hcall : ∀ id ∈ call.preset?, id < s.nextId) :
    t.Behind := by
  intro id m hm
  have hnext := h.nextId_cases
  cases h.origin hm with
  | kept hold =>
    have hlt := hs id m hold
    omega
  | preset _ hpreset =>
    have hlt := hcall id hpreset
    omega
  | replaced _ hold =>
    have hlt := hs id _ (.inl hold)
    omega
  | given _ hid hpassed => omega

end Session

namespace Store

theorem numbered_after (calls : List (Call α)) : (after calls).session.Numbered := by
  refine run_of_perform (p := fun s ↦ s.session.Numbered) ?_ ?_ calls
  · exact fun s call hs ↦ (s.step_perform call).numbered hs
  · rintro id m (h | h) <;> cases h

/-- **Every row stands under its own number**, whatever was called. -/
theorem id?_of_find? {calls : List (Call α)} {id : Int} {m : α}
    (h : (after calls).find? id = some m) : Model.id? m = some id :=
  numbered_after calls id m (.inl h)

/-! ## Fresh numbers -/

/-- No value is added with a number that the counter has not passed yet. -/
def Passed (s : Store α) : List (Call α) → Prop
  | [] => True
  | call :: rest => (∀ id ∈ call.preset?, id < s.nextId) ∧ (s.perform call).2.Passed rest

theorem passed_append_iff {s : Store α} {calls more : List (Call α)} :
    s.Passed (calls ++ more) ↔ s.Passed calls ∧ (s.run calls).2.Passed more := by
  induction calls generalizing s with
  | nil => simp [Passed, run]
  | cons call rest ih => simp only [List.cons_append, Passed, run, ih, and_assoc]

theorem behind_run {s : Store α} {calls : List (Call α)} (hs : s.session.Behind)
    (hcalls : s.Passed calls) : (s.run calls).2.session.Behind := by
  induction calls generalizing s with
  | nil => exact hs
  | cons call rest ih => exact ih ((s.step_perform call).behind hs hcalls.1) hcalls.2

/-- The number that the value gets is not that of a visible row. -/
def GivesFresh (s : Store α) (m : α) : Prop :=
  ∃ id, Model.id? (s.add m).1 = some id ∧ s.find? id = none

theorem id?_add {s : Store α} {m : α} (hm : Model.id? m = none) :
    Model.id? (s.add m).1 = some s.nextId := by
  rw [add_of_no_id hm, Model.id?_withId]

theorem givesFresh_iff {s : Store α} {m : α} (hm : Model.id? m = none) :
    s.GivesFresh m ↔ s.find? s.nextId = none := by
  simp [GivesFresh, id?_add hm]

theorem find?_nextId_of_behind {s : Store α} (hs : s.session.Behind) :
    s.find? s.nextId = none := by
  rw [Option.eq_none_iff_forall_ne_some]
  intro row hrow
  exact absurd (hs _ row (.inl hrow)) (Int.lt_irrefl _)

/-- Values without a number get numbers that no visible row has, whether they are added or made
from properties. -/
structure FreshNumbers (s : Store α) : Prop where
  added : ∀ m, Model.id? m = none → s.GivesFresh m
  created : ∀ (r : Repository α) (bag : Dict Json) (commit : Bool) (m : α),
    (r.create bag commit s).1 = .ok m → ∃ id, Model.id? m = some id ∧ s.find? id = none

theorem freshNumbers_of_behind
    (hbag : ∀ bag (m : α), Model.assign bag Model.blank = .ok m → Model.id? m = none)
    {s : Store α} (hs : s.session.Behind) : s.FreshNumbers where
  added m hm := (givesFresh_iff hm).2 (find?_nextId_of_behind hs)
  created r bag commit m hcreate := by
    have hmutate : (r.mutate commit s (.create bag)).1 = .ok m := hcreate
    obtain ⟨id, value?, hasks⟩ := Repository.asks_of_mutate hmutate
    cases hasks with
    | create => exact ⟨s.nextId, Model.id?_withId .., find?_nextId_of_behind hs⟩
    | createNumbered h hid => cases (hbag bag m h).symm.trans hid

/-- Values without a number leave the rows alone that the counter does not reach. -/
theorem run_add_new {s : Store α} {new : List α} (hnew : ∀ m ∈ new, Model.id? m = none) :
    (s.run (new.map .add)).2.nextId = s.nextId + new.length ∧
      ∀ id, s.nextId + new.length ≤ id → (s.run (new.map .add)).2.find? id = s.find? id := by
  induction new generalizing s with
  | nil => simp [run]
  | cons m rest ih =>
    obtain ⟨hm, hrest⟩ := List.forall_mem_cons.1 hnew
    have hid : Model.id? (Model.withId s.nextId m) = some s.nextId := Model.id?_withId ..
    have hnext : (s.perform (.add m)).2.nextId = s.nextId + 1 := by
      rw [perform, add_of_no_id hm, nextId_stage]
    have hfind : ∀ id, s.nextId < id → (s.perform (.add m)).2.find? id = s.find? id := by
      intro id hlt
      rw [perform, add_of_no_id hm, find?, visible_stage, apply_put hid, Rows.get?_insert,
        Function.update_of_ne (Int.ne_of_gt hlt)]
      rfl
    obtain ⟨hcount, hrows⟩ := ih (s := (s.perform (.add m)).2) hrest
    simp only [List.map_cons, run, List.length_cons]
    refine ⟨by omega, fun id hle ↦ ?_⟩
    rw [hrows id (by omega), hfind id (by omega)]

theorem passed_add_new {s : Store α} {new : List α} (hnew : ∀ m ∈ new, Model.id? m = none) :
    s.Passed (new.map .add) := by
  induction new generalizing s with
  | nil => exact trivial
  | cons m rest ih =>
    obtain ⟨hm, hrest⟩ := List.forall_mem_cons.1 hnew
    exact ⟨by simp [Call.preset?, hm], ih hrest⟩

/-- A row under a number that the counter has not reached is met after enough values without a
number. -/
theorem not_givesFresh_of_find? {s : Store α} {id : Int} {row blank : α}
    (hrow : s.find? id = some row) (hid : s.nextId ≤ id) (hblank : Model.id? blank = none) :
    ∃ k, ¬ (s.run ((List.replicate k blank).map .add)).2.GivesFresh blank := by
  have hnew : ∀ m ∈ List.replicate (id - s.nextId).toNat blank, Model.id? m = none :=
    fun m hm ↦ (List.eq_of_mem_replicate hm) ▸ hblank
  obtain ⟨hcount, hrows⟩ := run_add_new (s := s) hnew
  have hlength : s.nextId + ((List.replicate (id - s.nextId).toNat blank).length : Int) = id := by
    rw [List.length_replicate]
    omega
  rw [hlength] at hcount hrows
  refine ⟨(id - s.nextId).toNat, ?_⟩
  rw [givesFresh_iff hblank, hcount, hrows id (Int.le_refl id), hrow]
  simp

/-- The first call that does not keep to the counter adds a value with a number that the counter has
not reached. -/
theorem exists_of_not_passed {s : Store α} {calls : List (Call α)} (h : ¬ s.Passed calls) :
    ∃ before m id, before ++ [.add m] <+: calls ∧ Model.id? m = some id ∧
      (s.run before).2.nextId ≤ id := by
  induction calls generalizing s with
  | nil => exact absurd trivial h
  | cons call rest ih =>
    by_cases hcall : ∀ id ∈ call.preset?, id < s.nextId
    · obtain ⟨before, m, id, hprefix, hid, hle⟩ := ih fun hrest ↦ h ⟨hcall, hrest⟩
      exact ⟨call :: before, m, id, List.cons_prefix_cons.2 ⟨rfl, hprefix⟩, hid, hle⟩
    · simp only [not_forall, Int.not_lt, exists_prop] at hcall
      obtain ⟨id, hpreset, hle⟩ := hcall
      cases call with
      | add m => exact ⟨[], m, id, List.cons_prefix_cons.2 ⟨rfl, List.nil_prefix⟩, hpreset, hle⟩
      | _ => cases hpreset

/-- A value that is added with a number is visible under it, and the counter stays. -/
theorem run_add_preset {s : Store α} {m : α} {id : Int} (hid : Model.id? m = some id) :
    (s.run [.add m]).2.find? id = some m ∧ (s.run [.add m]).2.nextId = s.nextId := by
  simp only [run, perform, add_of_id hid]
  refine ⟨?_, rfl⟩
  rw [find?, visible_stage, apply_put hid, Rows.get?_insert, Function.update_self]

/-- **The numbers that are given are fresh exactly as long as no value is added with a number that
the counter has not passed.**  After such calls, and at any time before, any values without a number
can be added and the next one still gets a number that no visible row has.  After other calls there
is a time from which on enough of them make one replace a row. -/
theorem passed_iff_freshNumbers
    (hbag : ∀ bag (m : α), Model.assign bag Model.blank = .ok m → Model.id? m = none)
    (calls : List (Call α)) :
    (empty : Store α).Passed calls ↔
      ∀ before, before <+: calls → ∀ new : List α, (∀ m ∈ new, Model.id? m = none) →
        (after (before ++ new.map .add)).FreshNumbers := by
  constructor
  · rintro hpassed before ⟨rest, rfl⟩ new hnew
    have hbefore : (empty : Store α).Passed (before ++ new.map .add) :=
      passed_append_iff.2 ⟨(passed_append_iff.1 hpassed).1, passed_add_new hnew⟩
    have hempty : (empty : Store α).session.Behind := by
      rintro id m (h | h) <;> cases h
    exact freshNumbers_of_behind hbag (behind_run hempty hbefore)
  · intro hfresh
    by_contra hnot
    obtain ⟨before, m, id, hprefix, hid, hle⟩ := exists_of_not_passed hnot
    have hblank : Model.id? (Model.blank : α) = none := hbag [] _ rfl
    obtain ⟨hrow, hnext⟩ := run_add_preset (s := after before) hid
    rw [← after_append] at hrow hnext
    obtain ⟨k, hk⟩ := not_givesFresh_of_find? hrow (hnext ▸ hle) hblank
    rw [← after_append] at hk
    have hnew : ∀ m ∈ List.replicate k (Model.blank : α), Model.id? m = none :=
      fun m hm ↦ (List.eq_of_mem_replicate hm) ▸ hblank
    exact hk ((hfresh _ hprefix _ hnew).added _ hblank)

/-- A second database that is added with the number of the first replaces it, and the third still
gets a fresh number. -/
theorem replacing_freshNumbers :
    (∀ bag (m : Database), Model.assign bag Model.blank = .ok m → Model.id? m = none) ∧
      (after [.add ({ name := "sales" } : Database), .add { id := some 1, name := "stock" },
        .add { name := "staff" }]).FreshNumbers := by
  refine ⟨fun _ _ h ↦ Database.id_assign h, ?_⟩
  have hpassed : (empty : Store Database).Passed
      [.add { name := "sales" }, .add { id := some 1, name := "stock" }] := by
    simp [Passed, Call.preset?, perform, add, Model.id?, Model.withId, stage, empty]
  refine (passed_iff_freshNumbers (fun _ _ h ↦ Database.id_assign h) _).1 hpassed _
    (List.prefix_refl _) [{ name := "staff" }] ?_
  simp [Model.id?]

/-- A database is committed under the first number, which the counter has not passed.  Creating
another one gives it that number too: the first database is gone, and the call goes through. -/
theorem create_replaces_preset :
    (after [.add ({ id := some 1, name := "sales" } : Database), .commit]).find? 1 =
        some { id := some 1, name := "sales" } ∧
      ¬ (after [.add ({ id := some 1, name := "sales" } : Database), .commit]).FreshNumbers ∧
      ((({} : Repository Database).create [("database_name", .str "stock")] true
        (after [.add { id := some 1, name := "sales" }, .commit])).1 =
          .ok { id := some 1, name := "stock" }) ∧
      ((({} : Repository Database).create [("database_name", .str "stock")] true
        (after [.add { id := some 1, name := "sales" }, .commit])).2.committed.values =
          [{ id := some 1, name := "stock" }]) := by
  refine ⟨rfl, fun hfresh ↦ ?_, rfl, rfl⟩
  obtain ⟨id, hid, hfind⟩ := hfresh.created {} [("database_name", .str "stock")] true _ rfl
  cases hid
  cases hfind

end Store

end ChartFeed
