import ChartFeed.Store.Basic

/-!
# Repositories

A `Repository` creates, changes and deletes models in a store.  Each such call either goes through
or rolls the store back, so that nothing is left half done: `Repository.settle` is that rule.

A call may leave its write uncommitted, to be committed with later ones.
-/

set_option autoImplicit false

namespace ChartFeed

/-- Why a call of a repository did not go through. -/
inductive RepositoryFault where
  /-- The repository does not know what it creates. -/
  | unconfigured
  | createFailed (cause : StoreFault)
  | updateFailed (cause : StoreFault)
  | deleteFailed (cause : StoreFault)
deriving DecidableEq

/-- The fault of the store behind a failed call. -/
def RepositoryFault.cause? : RepositoryFault → Option StoreFault
  | .unconfigured => none
  | .createFailed cause | .updateFailed cause | .deleteFailed cause => some cause

/-- The wording of a repository fault. -/
def RepositoryFault.message : RepositoryFault → String
  | .unconfigured => "DAO is not configured correctly: missing model definition"
  | .createFailed cause => "Create failed: " ++ cause.message
  | .updateFailed cause => "Update failed: " ++ cause.message
  | .deleteFailed cause => "Delete failed: " ++ cause.message

/-- Access to the models of a store. -/
structure Repository (α : Type) where
  /-- Whether it knows what it creates. -/
  configured : Bool := true
  /-- Which models a search by number finds. -/
  shows : α → Bool := fun _ ↦ true

namespace Repository

variable {α : Type} [Model α]

/-- The visible model with this number, if the repository shows it. -/
def findById (r : Repository α) (id : Int) (s : Store α) : Option α := (s.find? id).filter r.shows

/-- Commits if asked to. -/
def commitIf (commit : Bool) (s : Store α) : Except StoreFault Unit × Store α :=
  if commit then s.commit else (.ok (), s)

/-- Rolls the store back when a call failed. -/
def settle (wrap : StoreFault → RepositoryFault) (m : α) :
    Except StoreFault Unit × Store α → Except RepositoryFault α × Store α
  | (.ok _, s) => (.ok m, s)
  | (.error cause, s) => (.error (wrap cause), s.rollback)

/-- Creates a model with the given properties. -/
def create (r : Repository α) (properties : Dict Json) (commit : Bool) (s : Store α) :
    Except RepositoryFault α × Store α :=
  if r.configured then
    match Model.assign properties (Model.blank : α) with
    | .error cause => (.error (.createFailed cause), s.rollback)
    | .ok m =>
      let (added, next) := s.add m
      settle .createFailed added (commitIf commit next)
  else (.error .unconfigured, s)

/-- Sets properties of a model and stores it. -/
def update (m : α) (properties : Dict Json) (commit : Bool) (s : Store α) :
    Except RepositoryFault α × Store α :=
  match Model.assign properties m with
  | .error cause => (.error (.updateFailed cause), s.rollback)
  | .ok changed =>
    match s.merge changed with
    | .error cause => (.error (.updateFailed cause), s.rollback)
    | .ok next => settle .updateFailed changed (commitIf commit next)

/-- Deletes a model. -/
def delete (m : α) (commit : Bool) (s : Store α) : Except RepositoryFault α × Store α :=
  match s.delete m with
  | .error cause => (.error (.deleteFailed cause), s.rollback)
  | .ok next => settle .deleteFailed m (commitIf commit next)

end Repository

end ChartFeed
