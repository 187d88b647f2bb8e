import ChartFeed.Proofs.Store.TwoClients

/-!
# What is committed, whatever was done

Keys are checked only when a store commits, so rows that wait may share one, and rows may change
places within one commit.  What is committed is always in order, and nothing more can be said of it.

* `Store.Operation`, `Store.operated` — a store is used by its own calls and by those of
  repositories, in any order;
* `exists_calls_operated` — a repository does nothing that calls of the store could not do;
* `Session.Orderly` — the committed rows have no key in common and every row stands under its own
  number, `Session.Step.orderly` says that each call keeps this;
* `exists_operated_iff` — **what can be committed**: exactly the rows that are in order;
* `Database.exists_operated_iff_names` — for databases: the rows with different names, each under
  its own number.
-/

set_option autoImplicit false

namespace ChartFeed

variable {α : Type}

namespace Store

/-! ## Everything that can be done with a store -/

/-- One use of a store.  A repository that looks a row up changes nothing, and it commits and rolls
back as the store does, so neither is listed again. -/
inductive Operation (α : Type) where
  | call (call : Call α)
  /-- A repository creates, changes or deletes a model, and commits if asked to. -/
  | mutation (r : Repository α) (commit : Bool) (mutation : Mutation α)

variable [Model α]

/-- The store after one use. -/
def operate (s : Store α) : Operation α → Store α
  | .call call => (s.perform call).2
  | .mutation r commit mutation => (r.mutate commit s mutation).2

/-- The store after uses that begin without any row. -/
def operated (operations : List (Operation α)) : Store α := operations.foldl operate empty

theorem operated_map_call (calls : List (Call α)) : operated (calls.map .call) = after calls := by
  suffices h : ∀ s : Store α, (calls.map .call).foldl operate s = (s.run calls).2 from h empty
  induction calls with
  | nil => exact fun _ ↦ rfl
  | cons call rest ih => exact fun s ↦ ih (s.perform call).2

/-- Staging a write is a call of the store. -/
theorem exists_call_of_stage {s next : Store α} {mutation : Mutation α} {m : α}
    (h : mutation.stage s = .ok (m, next)) : ∃ call, (s.perform call).2 = next := by
  cases mutation with
  | create properties =>
    obtain ⟨assigned, -, hadd⟩ := Mutation.stage_create_eq_ok_iff.1 h
    exact ⟨.add assigned, congrArg Prod.snd hadd⟩
  | update old properties =>
    obtain ⟨-, hmerge⟩ := Mutation.stage_update_eq_ok_iff.1 h
    exact ⟨.merge m, by rw [perform, hmerge]⟩
  | delete old =>
    obtain ⟨-, hdelete⟩ := Mutation.stage_delete_eq_ok_iff.1 h
    exact ⟨.delete old, by rw [perform, hdelete]⟩

/-- A commit that is asked for, and the rule for failures, are calls of the store. -/
theorem exists_calls_settle (wrap : StoreFault → RepositoryFault) (m : α) (commit : Bool)
    (s : Store α) :
    ∃ calls, (Repository.settle wrap m (Repository.commitIf commit s)).2 = (s.run calls).2 := by
  cases commit with
  | false => exact ⟨[], rfl⟩
  | true =>
    rw [Repository.commitIf, if_pos rfl]
    rcases hcommit : s.commit with ⟨result, next⟩
    cases result with
    | ok => exact ⟨[.commit], by simp [Repository.settle, run, perform, hcommit]⟩
    | error => exact ⟨[.commit, .rollback], by simp [Repository.settle, run, perform, hcommit]⟩

/-- A repository does nothing that calls of the store could not do. -/
theorem exists_calls_mutate (r : Repository α) (commit : Bool) (s : Store α)
    (mutation : Mutation α) : ∃ calls, (r.mutate commit s mutation).2 = (s.run calls).2 := by
  by_cases hallowed : mutation.AllowedBy r
  · rw [Repository.mutate_eq hallowed]
    cases hstage : mutation.stage s with
    | error cause => exact ⟨[.rollback], rfl⟩
    | ok staged =>
      obtain ⟨m, next⟩ := staged
      obtain ⟨call, rfl⟩ := exists_call_of_stage hstage
      obtain ⟨calls, hcalls⟩ := exists_calls_settle mutation.failed m commit (s.perform call).2
      exact ⟨call :: calls, hcalls⟩
  · exact ⟨[], by rw [Repository.mutate_of_not_allowed hallowed]; rfl⟩

/-- Whatever is done with a store, calls of the store can do. -/
theorem exists_calls_operated (operations : List (Operation α)) :
    ∃ calls, operated operations = after calls := by
  suffices h : ∀ s : Store α, ∃ calls, operations.foldl operate s = (s.run calls).2 from h empty
  induction operations with
  | nil => exact fun s ↦ ⟨[], rfl⟩
  | cons operation rest ih =>
    intro s
    have hfirst : ∃ calls, s.operate operation = (s.run calls).2 := by
      cases operation with
      | call call => exact ⟨[call], rfl⟩
      | mutation r commit mutation => exact exists_calls_mutate r commit s mutation
    obtain ⟨calls, hcalls⟩ := hfirst
    obtain ⟨more, hmore⟩ := ih (s.operate operation)
    exact ⟨calls ++ more, by rw [run_append_snd, ← hcalls]; exact hmore⟩

end Store

/-! ## Committed rows are in order -/

variable [Model α]

open Store (Call)

/-- No two committed rows have a key in common, and every row stands under its own number. -/
structure Session.Orderly (s : Session α) : Prop where
  apart : KeysApart s.committed
  numbered : s.Numbered

/-- Each call keeps committed rows in order: only a commit changes them, and it has checked the keys
of what it commits. -/
theorem Session.Step.orderly {s t : Session α} {call : Call α} {answer : Store.Answer α}
    (h : Step s call answer t) (hs : s.Orderly) : t.Orderly where
  apart := by
    cases h with
    | commit _ hkeys => exact hkeys
    | _ => exact hs.apart
  numbered := h.numbered hs.numbered

namespace Store

theorem orderly_after (calls : List (Call α)) : (after calls).session.Orderly := by
  refine run_of_perform (p := fun s ↦ s.session.Orderly) ?_ ⟨⟨?_, ?_⟩, numbered_after []⟩ calls
  · exact fun s call hs ↦ (s.step_perform call).orderly hs
  · exact fun h ↦ nomatch h
  · exact fun _ h _ ↦ nomatch h

/-- Committed rows are in order, whatever was done. -/
theorem orderly_operated (operations : List (Operation α)) :
    (operated operations).session.Orderly := by
  obtain ⟨calls, hcalls⟩ := exists_calls_operated operations
  exact hcalls ▸ orderly_after calls

/-! ## All rows in order can be committed -/

/-- Values that are added with the numbers of their entries are visible under them. -/
theorem run_add_own {entries : List (Int × α)} (h : ∀ e ∈ entries, Model.id? e.2 = some e.1)
    (s : Store α) :
    (s.run (entries.map fun e ↦ .add e.2)).2.visible =
        entries.foldl (fun rows e ↦ rows.insert e.1 e.2) s.visible ∧
      (s.run (entries.map fun e ↦ .add e.2)).2.pendingFault = s.pendingFault := by
  induction entries generalizing s with
  | nil => exact ⟨rfl, rfl⟩
  | cons first rest ih =>
    obtain ⟨hfirst, hrest⟩ := List.forall_mem_cons.1 h
    have hadd : (s.perform (.add first.2)).2 = s.stage (.put first.2) := by
      rw [perform, add_of_id hfirst]
    rw [List.map_cons, run, hadd, List.foldl_cons, ← apply_put hfirst, ← visible_stage]
    exact ih hrest (s.stage (.put first.2))

/-- Rows in order are committed by adding each of them with its number. -/
theorem exists_committed_eq {rows : Rows α} (hkeys : KeysApart rows.get?)
    (hown : ∀ id m, rows.get? id = some m → Model.id? m = some id) :
    ∃ calls, (after calls).committed = rows := by
  have hentries : ∀ e ∈ rows.entries, Model.id? e.2 = some e.1 :=
    fun e he ↦ hown e.1 e.2 (Rows.mem_entries_iff.1 he)
  obtain ⟨hvisible, hfault⟩ := run_add_own hentries empty
  have hrows : (after (rows.entries.map fun e ↦ .add e.2)).visible = rows := by
    refine Rows.get?_injective (funext fun id ↦ ?_)
    rw [after, hvisible, Rows.get?_foldl_insert rows.ascending]
    exact Option.or_none
  refine ⟨rows.entries.map (fun e ↦ .add e.2) ++ [.commit], ?_⟩
  have hcommit : (after (rows.entries.map fun e ↦ .add e.2)).commit = _ :=
    commit_of_apart hfault (hrows.symm ▸ hkeys)
  rw [after_append, run, perform, hcommit]
  exact hrows

/-- **What can be committed.**  Whatever is done with a store, the committed rows have no key in
common and each stands under its own number, and all rows of this kind can be committed. -/
theorem exists_operated_iff {rows : Rows α} :
    (∃ operations, (operated operations).committed = rows) ↔
      KeysApart rows.get? ∧ ∀ id m, rows.get? id = some m → Model.id? m = some id := by
  constructor
  · rintro ⟨operations, rfl⟩
    have horderly := orderly_operated operations
    exact ⟨horderly.apart, fun id m hm ↦ horderly.numbered id m (.inr hm)⟩
  · rintro ⟨hkeys, hown⟩
    obtain ⟨calls, hcalls⟩ := exists_committed_eq hkeys hown
    exact ⟨calls.map .call, by rw [operated_map_call, hcalls]⟩

end Store

/-! ## Databases -/

namespace Database

open Store (operated Operation)

/-- **Committed databases.**  The rows that a store of databases can have committed, whatever was
done with it, are exactly those in which any two rows have different names and every row's own
number is the one that it stands under. -/
theorem exists_operated_iff_names (rows : Rows Database) :
    (∃ operations : List (Operation Database), (operated operations).committed = rows) ↔
      (∀ i j m n, i ≠ j → rows.get? i = some m → rows.get? j = some n → n.name ≠ m.name) ∧
        ∀ i m, rows.get? i = some m → m.id = some i := by
  rw [Store.exists_operated_iff, Database.keysApart_iff]
  rfl

/-- Two databases change names within one commit.  In between both have the same name, so that a
commit after the first change is turned down. -/
example :
    let sales : Database := { id := some 1, name := "sales" }
    let stock : Database := { id := some 2, name := "stock" }
    let begun : List (Operation Database) := [.call (.add sales), .call (.add stock), .call .commit,
      .mutation {} false (.update sales [("database_name", .str "stock")])]
    (operated begun).commit.1 =
        .error (.notUnique "database" "database_name" "stock") ∧
      (operated (begun ++ [.mutation {} true
        (.update stock [("database_name", .str "sales")])])).committed.values =
          [{ sales with name := "stock" }, { stock with name := "sales" }] :=
  ⟨rfl, rfl⟩

end Database

end ChartFeed
