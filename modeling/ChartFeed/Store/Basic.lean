import ChartFeed.Store.Model
import ChartFeed.Store.Rows

/-!
# Stores

A `Store` keeps committed rows and a list of writes that are not committed yet.  Reading sees the
committed rows with the writes carried out (`Store.visible`); a rollback drops the writes.

* `Store.add`, `Store.merge` and `Store.delete` stage one write;
* `Store.commit` makes what is visible the committed rows, if no two visible rows share a key;
* a store can be told to fail its next commit.
-/

set_option autoImplicit false

namespace ChartFeed

/-- A write that waits for a commit. -/
inductive Write (α : Type) where
  /-- Stores a value under its number. -/
  | put (model : α)
  /-- Removes the row with this number. -/
  | drop (id : Int)
deriving DecidableEq

/-- Carries out a write. -/
def Write.apply {α : Type} [Model α] (rows : Rows α) : Write α → Rows α
  | .put model =>
    match Model.id? model with
    | some id => rows.insert id model
    | none => rows
  | .drop id => rows.erase id

/-- The first field and value that come a second time. -/
def repeatedKey? (seen : List (String × String)) : List (String × String) → Option (String × String)
  | [] => none
  | key :: rest => if key ∈ seen then some key else repeatedKey? (key :: seen) rest

/-- Committed rows and writes that wait for a commit. -/
structure Store (α : Type) where
  committed : Rows α
  /-- The writes since the last commit or rollback, in order. -/
  staged : List (Write α)
  /-- The number of the next value that has none. -/
  nextId : Int
  /-- The fault that the next commit fails with. -/
  pendingFault : Option StoreFault

namespace Store

variable {α : Type} [Model α]

/-- A store without rows; numbers begin at one. -/
def empty : Store α := ⟨.empty, [], 1, none⟩

/-- The rows that reading sees. -/
def visible (s : Store α) : Rows α := s.staged.foldl Write.apply s.committed

/-- Adds a write to those that wait. -/
def stage (s : Store α) (w : Write α) : Store α := { s with staged := s.staged ++ [w] }

/-- The visible value under a number. -/
def find? (s : Store α) (id : Int) : Option α := s.visible.get? id

/-- Adds a value; one without a number gets the next. -/
def add (s : Store α) (m : α) : α × Store α :=
  match Model.id? m with
  | some _ => (m, s.stage (.put m))
  | none =>
    let numbered := Model.withId s.nextId m
    (numbered, ({ s with nextId := s.nextId + 1 } : Store α).stage (.put numbered))

/-- The number of a value that is visible under it. -/
def requireId (s : Store α) (m : α) : Except StoreFault Int :=
  match Model.id? m with
  | none => .error (.notFound (Model.kind α) 0)
  | some id => if s.visible.contains id then .ok id else .error (.notFound (Model.kind α) id)

/-- Replaces a visible value. -/
def merge (s : Store α) (m : α) : Except StoreFault (Store α) :=
  (s.requireId m).map fun _ ↦ s.stage (.put m)

/-- Removes a visible value. -/
def delete (s : Store α) (m : α) : Except StoreFault (Store α) :=
  (s.requireId m).map fun id ↦ s.stage (.drop id)

/-- Drops the writes that wait. -/
def rollback (s : Store α) : Store α := { s with staged := [] }

/-- Makes the next commit fail. -/
def failNextCommit (s : Store α) (fault : StoreFault) : Store α :=
  { s with pendingFault := some fault }

/-- The first key that two rows share. -/
def sharedKey? (rows : Rows α) : Option (String × String) :=
  repeatedKey? [] (rows.values.flatMap Model.uniqueKeys)

/-- Commits what is visible.  A fault that was asked for comes first and is used up; a store that
fails keeps its rows and its writes. -/
def commit (s : Store α) : Except StoreFault Unit × Store α :=
  match s.pendingFault with
  | some fault => (.error fault, { s with pendingFault := none })
  | none =>
    match sharedKey? s.visible with
    | some (field, value) => (.error (.notUnique (Model.kind α) field value), s)
    | none => (.ok (), { s with committed := s.visible, staged := [] })

end Store

end ChartFeed
