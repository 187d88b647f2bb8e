import ChartFeed.Host.Fault
import ChartFeed.Host.Path
import ChartFeed.Time.Instant

/-!
# Hosts

A `Host` is what a program sees of the machine that it runs on: variables, files and the time.  All
of it comes in through one structure, so that the same program can run on a real machine and on one
that is given as data.
-/

set_option autoImplicit false

namespace ChartFeed

/-- What a path leads to. -/
inductive Entry where
  | file
  | directory
deriving DecidableEq

/-- What a program sees of a machine, each look being a step in `m`. -/
structure Host (m : Type → Type) where
  /-- The current directory. -/
  directory : m String
  /-- The value of a variable. -/
  valueOf? : String → m (Option String)
  /-- What a path leads to. -/
  entry? : String → m (Option Entry)
  /-- The text of a file. -/
  read : String → m (Except FileFault String)
  now : m Instant

namespace Host

variable {m : Type → Type} [Monad m]

/-- The home directory, if one is set. -/
def home? (h : Host m) : m (Option String) := do
  return (← h.valueOf? "HOME").filter fun home ↦ !home.isEmpty

/-- A path that a user wrote, made absolute. -/
def expand (h : Host m) (path : String) : m String := do
  return Path.expand (← h.home?) (← h.directory) path

/-- Whether a path leads anywhere. -/
def exists? (h : Host m) (path : String) : m Bool := do
  return (← h.entry? path).isSome

/-- The host with variables set that it does not have. -/
def withVariables (h : Host m) (defaults : List (String × String)) : Host m :=
  { h with
    valueOf? := fun name ↦ do
      match ← h.valueOf? name with
      | some value => return some value
      | none => return defaults.lookup name }

end Host

end ChartFeed
