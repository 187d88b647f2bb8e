import Mathlib.Data.Fintype.Basic
import ChartFeed.Proofs.Store.Numbering

/-!
# Two clients of one store

Two clients look up the same model and update the copy that they found, each with its own bag of
properties.  An update stores the whole copy, so what becomes of the two bags depends on when the
copies were made.

* `Plan.turn`, `Plan.run` — the clients take turns in any order: one turn to look, one to stage the
  change, one to commit.  `turn_turn_of_looked` says that the last two make an update;
* `Plan.Has` — the row as it was, with the bags of some clients applied one after the other;
* `Sketch` — the same turns when all that is kept of a copy is which bags it has;
  `Meeting.follows_turn` and `Meeting.follows_run` say that the clients follow their sketch;
* `Meeting.run_schedule` — **what is committed in the end**, for every order of the turns: the bag
  of the client that stages last, and that of the other client only if it was staged before the last
  client looked.  Both clients are told that their update went through;
* `writesAndTables_first_lost` — two clients with different properties, of which one is lost.
-/

set_option autoImplicit false

namespace ChartFeed

/-- Names of databases are their only keys. -/
theorem Database.keysApart_iff {rows : Int → Option Database} :
    KeysApart rows ↔ ∀ i j m n, i ≠ j → rows i = some m → rows j = some n → n.name ≠ m.name := by
  rw [keysApart_iff_of_nodup fun m ↦ List.nodup_singleton _]
  simp [Model.uniqueKeys]

namespace TwoClients

open Store (Call after)

variable {α : Type}

/-! ## Turns -/

/-- The two clients. -/
inductive Client where
  | first
  | second
deriving DecidableEq

instance : Fintype Client := ⟨{.first, .second}, fun c ↦ by cases c <;> simp⟩

/-- The other one of the two. -/
def Client.other : Client → Client
  | .first => .second
  | .second => .first

/-- How far a client is with its update. -/
inductive Progress (α : Type) where
  /-- It has not looked the model up yet. -/
  | waiting
  /-- It has a copy of what it found. -/
  | looked (copy? : Option α)
  /-- Its change waits for a commit. -/
  | staged (changed : α)
  | answered (answer : Except RepositoryFault α)

/-- A store and the clients that use it. -/
structure Shared (α : Type) where
  store : Store α
  progress : Client → Progress α

/-- What the clients are going to do: look up the model with this number, each through its own
repository, and update it with its own bag. -/
structure Plan (α : Type) where
  id : Int
  repository : Client → Repository α := fun _ ↦ {}
  bag : Client → Dict Json

/-- The store and the progress of one client change. -/
def Shared.move (s : Shared α) (c : Client) (store : Store α) (progress : Progress α) : Shared α :=
  ⟨store, Function.update s.progress c progress⟩

namespace Plan

variable [Model α]

/-- Before any turn. -/
def start (s : Store α) : Shared α := ⟨s, fun _ ↦ .waiting⟩

/-- A client takes its next turn.  One that found nothing, or has an answer, does no more. -/
def turn (p : Plan α) (s : Shared α) (c : Client) : Shared α :=
  match s.progress c with
  | .waiting => s.move c s.store (.looked ((p.repository c).findById p.id s.store))
  | .looked none => s
  | .looked (some copy) =>
    match Mutation.stage s.store (.update copy (p.bag c)) with
    | .error cause => s.move c s.store.rollback (.answered (.error (.updateFailed cause)))
    | .ok (changed, next) => s.move c next (.staged changed)
  | .staged changed =>
    let outcome := Repository.settle .updateFailed changed s.store.commit
    s.move c outcome.2 (.answered outcome.1)
  | .answered _ => s

/-- The clients take turns in this order. -/
def run (p : Plan α) (s : Shared α) (schedule : List Client) : Shared α := schedule.foldl p.turn s

/-- What is left when a store that was called like this has been used in this order. -/
def finish (p : Plan α) (calls : List (Call α)) (schedule : List Client) : Shared α :=
  p.run (start (after calls)) schedule

/-- Two turns of a client that follow each other make an update. -/
theorem turn_turn_of_looked (p : Plan α) {s : Shared α} {c : Client} {copy : α}
    (h : s.progress c = .looked (some copy)) :
    p.turn (p.turn s c) c =
      s.move c (Repository.update copy (p.bag c) true s.store).2
        (.answered (Repository.update copy (p.bag c) true s.store).1) := by
  have hallowed : (Mutation.update copy (p.bag c)).AllowedBy (p.repository c) := trivial
  have hupdate := Repository.mutate_eq hallowed true s.store
  rw [Repository.mutate] at hupdate
  have hfirst : p.turn s c =
      match Mutation.stage s.store (.update copy (p.bag c)) with
      | .error cause => s.move c s.store.rollback (.answered (.error (.updateFailed cause)))
      | .ok (changed, next) => s.move c next (.staged changed) := by
    rw [turn, h]
  rw [hupdate, hfirst]
  cases Mutation.stage s.store (.update copy (p.bag c)) with
  | error cause => simp [turn, Shared.move, Mutation.failed]
  | ok staged =>
    simp [turn, Shared.move, Repository.commitIf, Mutation.failed, Function.update_idem]

end Plan

/-! ## Versions of the row -/

namespace Plan

variable {p : Plan Database} {m : Database} {bags : List Client}

/-- This is the row as it was with the bags of these clients applied: it has the values that they
give, and what no bag names is as before. -/
structure Has (p : Plan Database) (m : Database) (bags : List Client) (version : Database) :
    Prop where
  id : version.id = m.id
  given : ∀ c ∈ bags, ∀ name v, Dict.get? (p.bag c) name = some v → version.field? name = some v
  kept : ∀ name, (∀ c ∈ bags, Dict.get? (p.bag c) name = none) →
    version.field? name = m.field? name

theorem Has.unchanged (p : Plan Database) (m : Database) : p.Has m [] m where
  id := rfl
  given _ hc := nomatch hc
  kept _ _ := rfl

/-- No name is named twice, by one bag or by both. -/
def Disjoint (p : Plan Database) : Prop :=
  (Dict.keys (p.bag .first) ++ Dict.keys (p.bag .second)).Nodup

theorem Disjoint.nodup_keys (h : p.Disjoint) (c : Client) : (Dict.keys (p.bag c)).Nodup := by
  cases c with
  | first => exact (List.nodup_append.1 h).1
  | second => exact (List.nodup_append.1 h).2.1

theorem Disjoint.get?_eq_none (h : p.Disjoint) {c d : Client} (hcd : c ≠ d) {name : String}
    {v : Json} (hv : Dict.get? (p.bag c) name = some v) : Dict.get? (p.bag d) name = none := by
  have hname : name ∈ Dict.keys (p.bag c) := Dict.mem_keys_of_mem (Dict.mem_of_get? hv)
  have hkeys := (List.nodup_append.1 h).2.2
  rw [Dict.get?_eq_none_iff]
  intro hname'
  cases c <;> cases d
  · exact hcd rfl
  · exact hkeys name hname name hname' rfl
  · exact hkeys name hname' name hname rfl
  · exact hcd rfl

/-- Applying a bag to a version makes the version that has this bag too. -/
theorem Has.assign (hp : p.Disjoint) {version changed : Database} {c : Client}
    (h : p.Has m bags version) (hchanged : Model.assign (p.bag c) version = .ok changed) :
    p.Has m (bags ++ [c]) changed where
  id := (Database.id_assign hchanged).trans h.id
  given d hd name v hv := by
    rw [Database.field?_assign hchanged (hp.nodup_keys c)]
    by_cases hcd : d = c
    · rw [← hcd, hv, Option.some_or]
    · have hd : d ∈ bags := by simpa [hcd] using hd
      rw [hp.get?_eq_none hcd hv, Option.none_or]
      exact h.given d hd name v hv
  kept name hname := by
    rw [Database.field?_assign hchanged (hp.nodup_keys c), hname c (by simp), Option.none_or]
    exact h.kept name fun d hd ↦ hname d (List.mem_append_left _ hd)

end Plan

/-! ## The sketch of a run -/

/-- How far a client is, when all that is kept of its copy is which bags it has. -/
inductive Sketch.Phase where
  | waiting
  | looked (bags : List Client)
  | staged
  | answered
deriving DecidableEq

/-- Which bags the row has, in the order in which they were applied, and how far the clients are. -/
structure Sketch where
  row : List Client
  phase : Client → Sketch.Phase

namespace Sketch

/-- Before any turn. -/
def start : Sketch := ⟨[], fun _ ↦ .waiting⟩

/-- A client takes its next turn. -/
def turn (k : Sketch) (c : Client) : Sketch :=
  match k.phase c with
  | .waiting => ⟨k.row, Function.update k.phase c (.looked k.row)⟩
  | .looked bags => ⟨bags ++ [c], Function.update k.phase c .staged⟩
  | .staged => ⟨k.row, Function.update k.phase c .answered⟩
  | .answered => k

/-- The clients take turns in this order. -/
def run (k : Sketch) (schedule : List Client) : Sketch := schedule.foldl turn k

end Sketch

/-- How many turns the other client has had when this one takes the turn with this number. -/
def turnsBefore (c : Client) : List Client → Nat → Nat
  | [], _ => 0
  | d :: rest, n =>
    if d = c then
      match n with
      | 0 => 0
      | n + 1 => turnsBefore c rest n
    else turnsBefore c rest n + 1

theorem length_eq_count (schedule : List Client) :
    schedule.length = schedule.count .first + schedule.count .second := by
  induction schedule with
  | nil => rfl
  | cons c rest ih =>
    cases c with
    | first => simp [ih, Nat.add_right_comm]
    | second => simp [ih, Nat.add_assoc]

/-- When each client takes three turns, both are done, and the row has the bag of the client that
stages last; it has the other bag too if that was staged before the last client looked. -/
theorem Sketch.run_start {schedule : List Client} (h : ∀ c, schedule.count c = 3) :
    (∀ c, (start.run schedule).phase c = .answered) ∧
      ∃ last, 2 ≤ turnsBefore last schedule 1 ∧
        (start.run schedule).row =
          if 2 ≤ turnsBefore last schedule 0 then [last.other, last] else [last] := by
  have hlength : schedule.length = 6 := by rw [length_eq_count, h, h]
  match schedule, hlength with
  | [c₀, c₁, c₂, c₃, c₄, c₅], _ =>
    -- a sketch is small enough to go through every order of six turns
    revert c₀ c₁ c₂ c₃ c₄ c₅
    decide

/-! ## Clients follow their sketch -/

/-- Two clients meet at a row of a store: no fault was asked for, the row is visible to both, each
bag can be applied, and no key is shared whichever bags the row has. -/
structure Meeting (p : Plan Database) (calls : List (Call Database)) (m : Database) : Prop where
  found : (after calls).find? p.id = some m
  noFault : (after calls).pendingFault = none
  disjoint : p.Disjoint
  accepted : ∀ c, Model.Accepts Database (p.bag c)
  apart : ∀ bags version, p.Has m bags version →
    KeysApart (Function.update (after calls).visible.get? p.id (some version))
  shown : ∀ c bags version, p.Has m bags version → (p.repository c).shows version = true

/-- The progress of a client is as sketched; a copy has the bags that it should have. -/
inductive Plan.Agrees (p : Plan Database) (m : Database) : Sketch.Phase → Progress Database → Prop
  | waiting : Agrees p m .waiting .waiting
  | looked {bags : List Client} {copy : Database} (h : p.Has m bags copy) :
      Agrees p m (.looked bags) (.looked (some copy))
  | staged {changed : Database} : Agrees p m .staged (.staged changed)
  | answered {changed : Database} : Agrees p m .answered (.answered (.ok changed))

/-- The store and the clients are as sketched.  After a commit nothing is staged unless a client is
about to commit. -/
structure Follows (p : Plan Database) (calls : List (Call Database)) (m : Database)
    (s : Shared Database) (k : Sketch) : Prop where
  row : ∃ version, p.Has m k.row version ∧
    s.store.visible.get? = Function.update (after calls).visible.get? p.id (some version)
  noFault : s.store.pendingFault = none
  clients : ∀ c, p.Agrees m (k.phase c) (s.progress c)
  settled : (∃ c, k.phase c = .answered) → (∀ c, k.phase c ≠ .staged) → s.store.staged = []

section Follows

variable {p : Plan Database} {calls : List (Call Database)} {m : Database} {s : Shared Database}
  {k : Sketch}

theorem Meeting.follows_start (h : Meeting p calls m) :
    Follows p calls m (Plan.start (after calls)) .start where
  row := by
    refine ⟨m, .unchanged p m, ?_⟩
    rw [Function.update_eq_self_iff.2]
    · rfl
    · exact h.found.symm
  noFault := h.noFault
  clients _ := .waiting
  settled := by
    rintro ⟨_, hc⟩
    cases hc

/-- Moving one client keeps the others as they are sketched. -/
theorem Follows.agrees_move (hf : Follows p calls m s k) {c : Client} {store : Store Database}
    {phase : Sketch.Phase} {progress : Progress Database} (h : p.Agrees m phase progress)
    (d : Client) :
    p.Agrees m (Function.update k.phase c phase d) ((s.move c store progress).progress d) := by
  rw [Shared.move]
  by_cases hd : d = c
  · subst hd
    simpa using h
  · simpa [hd] using hf.clients d

/-- **One turn.**  Clients that are as sketched stay so. -/
theorem Meeting.follows_turn (h : Meeting p calls m) (hf : Follows p calls m s k) (c : Client) :
    Follows p calls m (p.turn s c) (k.turn c) := by
  obtain ⟨version, hversion, hvisible⟩ := hf.row
  have hfind : s.store.find? p.id = some version := by
    rw [Store.find?, hvisible, Function.update_self]
  have hagrees := hf.clients c
  rw [Plan.turn, Sketch.turn]
  generalize hphase : k.phase c = phase at hagrees
  generalize hprogress : s.progress c = progress at hagrees
  cases hagrees with
  | waiting =>
    have hcopy : (p.repository c).findById p.id s.store = some version := by
      rw [Repository.findById, hfind, Option.filter_some, if_pos (h.shown c _ _ hversion)]
    refine ⟨⟨version, hversion, hvisible⟩, hf.noFault,
      hf.agrees_move (hcopy ▸ .looked hversion), ?_⟩
    rintro ⟨d, hd⟩ hstaged
    have hdc : d ≠ c := by
      rintro rfl
      simp at hd
    refine hf.settled ⟨d, by simpa [hdc] using hd⟩ fun e he ↦ ?_
    by_cases hec : e = c
    · cases hphase.symm.trans (hec ▸ he)
    · exact hstaged e (by simpa [hec] using he)
  | @looked bags copy hcopy =>
    obtain ⟨changed, hchanged⟩ := (Model.accepts_iff copy).1 (h.accepted c)
    have hhas : p.Has m (bags ++ [c]) changed := hcopy.assign h.disjoint hchanged
    have hid : Model.id? changed = some p.id := hhas.id.trans (Store.id?_of_find? h.found)
    have hasks : (Mutation.update copy (p.bag c)).Asks s.store changed p.id (some changed) :=
      .update hchanged hid hfind
    obtain ⟨next, hstage, hnext⟩ := hasks.stage
    simp only [hstage]
    refine ⟨⟨changed, hhas, ?_⟩, hnext.pendingFault.trans hf.noFault, hf.agrees_move .staged, ?_⟩
    · exact hnext.visible.trans (by rw [hvisible, Function.update_idem])
    · -- the client itself is about to commit
      exact fun _ hstaged ↦ absurd (Function.update_self ..) (hstaged c)
  | @staged changed =>
    have hkeys : KeysApart s.store.visible.get? := hvisible ▸ h.apart _ _ hversion
    simp only [Store.commit_of_apart hf.noFault hkeys, Repository.settle]
    exact ⟨⟨version, hversion, hvisible⟩, hf.noFault, hf.agrees_move .answered, fun _ _ ↦ rfl⟩
  | answered => exact hf

/-- **Any turns.** -/
theorem Meeting.follows_run (h : Meeting p calls m) (hf : Follows p calls m s k)
    (schedule : List Client) : Follows p calls m (p.run s schedule) (k.run schedule) := by
  induction schedule generalizing s k with
  | nil => exact hf
  | cons c rest ih => exact ih (h.follows_turn hf c)

end Follows

/-! ## What is committed -/

/-- What the row is in the end: it has the bag of the client that staged last; the other bag was
lost unless it was staged before the last client looked; no other field has changed. -/
structure Plan.Outcome (p : Plan Database) (m : Database) (schedule : List Client) (last : Client)
    (version : Database) : Prop where
  id : version.id = m.id
  ofLast : ∀ name v, Dict.get? (p.bag last) name = some v → version.field? name = some v
  ofOther : ∀ name v, Dict.get? (p.bag last.other) name = some v →
    version.field? name = if 2 ≤ turnsBefore last schedule 0 then some v else m.field? name
  unnamed : ∀ name, (∀ c, Dict.get? (p.bag c) name = none) → version.field? name = m.field? name

theorem Client.other_ne (c : Client) : c.other ≠ c := by
  cases c <;> decide

theorem Plan.Has.outcome {p : Plan Database} {m version : Database} {schedule : List Client}
    {last : Client} (hp : p.Disjoint)
    (h : p.Has m (if 2 ≤ turnsBefore last schedule 0 then [last.other, last] else [last]) version) :
    p.Outcome m schedule last version where
  id := h.id
  ofLast := h.given last (by split <;> simp)
  ofOther name v hv := by
    split at h
    · next hkept => rw [if_pos hkept, h.given last.other (by simp) name v hv]
    · next hlost =>
      rw [if_neg hlost]
      refine h.kept name fun c hc ↦ ?_
      rw [List.mem_singleton.1 hc]
      exact hp.get?_eq_none last.other_ne hv
  unnamed name hname := h.kept name fun c _ ↦ hname c

/-- **What two clients leave behind.**  In whatever order the two take their turns, both are told
that their update went through, and what is committed are the rows as they were with the one row
changed: all of the bag that was staged last, and the other bag only if it was staged before the
client with the last one looked. -/
theorem Meeting.run_schedule {p : Plan Database} {calls : List (Call Database)} {m : Database}
    (h : Meeting p calls m) {schedule : List Client} (hturns : ∀ c, schedule.count c = 3) :
    ∃ last version, 2 ≤ turnsBefore last schedule 1 ∧
      (∀ c, ∃ changed, (p.finish calls schedule).progress c = .answered (.ok changed)) ∧
      (p.finish calls schedule).store.committed.get? =
        Function.update (after calls).visible.get? p.id (some version) ∧
      (p.finish calls schedule).store.staged = [] ∧
      p.Outcome m schedule last version := by
  have hf : Follows p calls m (p.finish calls schedule) (Sketch.start.run schedule) :=
    h.follows_run h.follows_start schedule
  obtain ⟨hanswered, last, hlast, hrow⟩ := Sketch.run_start hturns
  obtain ⟨version, hversion, hvisible⟩ := hf.row
  have hsettled : (p.finish calls schedule).store.staged = [] :=
    hf.settled ⟨last, hanswered last⟩ fun c hc ↦ by cases (hanswered c).symm.trans hc
  refine ⟨last, version, hlast, fun c ↦ ?_, ?_, hsettled, ?_⟩
  · have hagrees := hf.clients c
    rw [hanswered c] at hagrees
    generalize hprogress : (p.finish calls schedule).progress c = progress at hagrees
    cases hagrees with
    | @answered changed => exact ⟨changed, rfl⟩
  · rwa [Store.visible, hsettled] at hvisible
  · exact (hrow ▸ hversion).outcome h.disjoint

/-! ## Two clients that change different fields -/

/-- A store with one database. -/
def salesOnly : List (Call Database) := [.add { name := "sales" }, .commit]

/-- One client allows writing to the database, the other allows making tables. -/
def writesAndTables : Plan Database where
  id := 1
  bag
    | .first => [("allow_dml", .bool true)]
    | .second => [("allow_ctas", .bool true)]

theorem meeting_writesAndTables :
    Meeting writesAndTables salesOnly { id := some 1, name := "sales" } where
  found := rfl
  noFault := rfl
  disjoint := by simp [Plan.Disjoint, writesAndTables, Dict.keys]
  accepted c := (Model.accepts_iff {}).2 (by cases c <;> exact ⟨_, rfl⟩)
  apart _ version _ := by
    have halone : ∀ i ≠ 1, (after salesOnly).visible.get? i = none := by
      intro i hi
      have hrows : (after salesOnly).visible.entries =
        [(1, { id := some 1, name := "sales" })] := rfl
      rw [Rows.get?, hrows, Rows.find?_cons, if_neg hi.symm]
      rfl
    have hone : ∀ i v, Function.update (after salesOnly).visible.get? writesAndTables.id
        (some version) i = some v → i = 1 := by
      intro i v hv
      by_contra hi
      have hother : i ≠ writesAndTables.id := hi
      rw [Function.update_of_ne hother, halone i hi] at hv
      cases hv
    rw [Database.keysApart_iff]
    exact fun i j m n hij hm hn ↦ absurd ((hone i m hm).trans (hone j n hn).symm) hij
  shown _ _ _ _ := rfl

/-- Both look, then one updates and then the other. -/
def bothLookFirst : List Client := [.first, .second, .first, .first, .second, .second]

theorem writesAndTables_run_schedule :
    Meeting writesAndTables salesOnly { id := some 1, name := "sales" } ∧
      (∀ c, bothLookFirst.count c = 3) ∧
      ∃ last version, 2 ≤ turnsBefore last bothLookFirst 1 ∧
        (∀ c, ∃ changed,
          (writesAndTables.finish salesOnly bothLookFirst).progress c = .answered (.ok changed)) ∧
        (writesAndTables.finish salesOnly bothLookFirst).store.committed.get? =
          Function.update (after salesOnly).visible.get? writesAndTables.id (some version) ∧
        (writesAndTables.finish salesOnly bothLookFirst).store.staged = [] ∧
        writesAndTables.Outcome { id := some 1, name := "sales" } bothLookFirst last version :=
  ⟨meeting_writesAndTables, by decide, meeting_writesAndTables.run_schedule (by decide)⟩

/-- Both updates go through, and the first one is lost: the row that is committed does not allow
writing. -/
theorem writesAndTables_first_lost :
    Meeting writesAndTables salesOnly { id := some 1, name := "sales" } ∧
      (∀ c, bothLookFirst.count c = 3) ∧
      (writesAndTables.finish salesOnly bothLookFirst).progress .first =
        .answered (.ok { id := some 1, name := "sales", allowWrites := true }) ∧
      (writesAndTables.finish salesOnly bothLookFirst).progress .second =
        .answered (.ok { id := some 1, name := "sales", allowTables := true }) ∧
      (writesAndTables.finish salesOnly bothLookFirst).store.committed.values =
        [{ id := some 1, name := "sales", allowTables := true }] ∧
      Dict.get? (writesAndTables.bag .first) "allow_dml" = some (.bool true) ∧
      ({ id := some 1, name := "sales", allowTables := true } : Database).field? "allow_dml" =
        some (.bool false) :=
  ⟨meeting_writesAndTables, by decide, rfl, rfl, rfl, rfl, rfl⟩

end TwoClients

end ChartFeed
