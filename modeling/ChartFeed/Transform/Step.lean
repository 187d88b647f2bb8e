import ChartFeed.Transform.Contribution
import ChartFeed.Transform.Difference
import ChartFeed.Transform.Ordering
import ChartFeed.Transform.Pivot
import ChartFeed.Transform.Rolling
import ChartFeed.Transform.Running

/-!
# Post-processing steps

* `Transform` is one of the eight operations with its options, and `Transform.read` reads one from
  an object with the fields `operation` and `options`: whatever can be wrong with a step without
  looking at a table is found here;
* `Step` is a transform with the value that it was read from;
* `Step.readAll` reads a list and leaves out what is not truthy; `applySteps` applies one step after
  the other.
-/

set_option autoImplicit false

namespace ChartFeed

/-- A post-processing operation with its options. -/
inductive Transform where
  | aggregate (s : Summary)
  | pivot (p : Pivot)
  | sort (s : RowSort)
  | rolling (r : Rolling)
  | select (s : Selection)
  | diff (d : Difference)
  | cum (r : Running)
  | contribution (c : Contribution)
deriving DecidableEq

namespace Transform

/-- The name of the operation. -/
def operation : Transform → String
  | .aggregate _ => "aggregate"
  | .pivot _ => "pivot"
  | .sort _ => "sort"
  | .rolling _ => "rolling"
  | .select _ => "select"
  | .diff _ => "diff"
  | .cum _ => "cum"
  | .contribution _ => "contribution"

/-- Applies an operation to a table. -/
def apply : Transform → Table → Except Rejection Table
  | .aggregate s => s.apply
  | .pivot p => p.apply
  | .sort s => s.apply
  | .rolling r => r.apply
  | .select s => s.apply
  | .diff d => d.apply
  | .cum r => r.apply
  | .contribution c => c.apply

/-- Reads options by their shape. -/
def shaped {α : Type} (operation : String) (reader : Reader α) (options : Json) :
    Except Rejection α :=
  match reader options with
  | .ok a => .ok a
  | .error m => .error (.invalidOptions operation (.shape m))

/-- Turns a fault of the options into a rejection of the operation. -/
def checked {α : Type} (operation : String) : Except OptionFault α → Except Rejection α
  | .ok a => .ok a
  | .error fault => .error (.invalidOptions operation fault)

/-- Reads the options of an operation. -/
def ofOptions (operation : String) (options : Json) : Except Rejection Transform :=
  match operation with
  | "aggregate" => do
    let o ← shaped operation Summary.Options.read options
    let s ← Summary.ofOptions o
    return .aggregate s
  | "pivot" => do
    let o ← shaped operation Pivot.Options.read options
    let p ← Pivot.ofOptions o
    return .pivot p
  | "sort" => (shaped operation RowSort.read options).map .sort
  | "rolling" => do
    let o ← shaped operation RollingOptions.read options
    let r ← checked operation (Rolling.ofOptions o)
    return .rolling r
  | "select" => (shaped operation Selection.read options).map .select
  | "diff" => (shaped operation Difference.read options).map .diff
  | "cum" => (shaped operation Running.read options).map .cum
  | "contribution" => do
    let o ← shaped operation Contribution.Options.read options
    let c ← checked operation (Contribution.ofOptions o)
    return .contribution c
  | other => .error (.unknownOperation other)

/-- The options of a step; without any they are an empty object. -/
def optionsOf (step : Dict Json) : Json :=
  match Dict.get? step "options" with
  | none | some .null => .obj []
  | some options => options

/-- Reads a step. -/
def read : Json → Except Rejection Transform
  | .obj step =>
    match (Dict.get? step "operation").bind Json.asString? with
    | none => .error .missingOperation
    | some operation => ofOptions operation (optionsOf step)
  | _ => .error (.invalidPostProcessing .notAnObject)

end Transform

/-- A step as it was submitted, and what it does. -/
structure Step where
  source : Json
  transform : Transform
deriving DecidableEq

namespace Step

/-- Reads a step and keeps the value it was read from. -/
def read (v : Json) : Except Rejection Step := (Transform.read v).map fun t ↦ ⟨v, t⟩

/-- Reads steps one after the other; the first fault counts. -/
def readEach : List Json → Except Rejection (List Step)
  | [] => .ok []
  | v :: rest => do
    let s ← read v
    let ss ← readEach rest
    return s :: ss

/-- Reads the steps among the values that are truthy. -/
def readAll (values : List Json) : Except Rejection (List Step) :=
  readEach (values.filter Json.truthy)

end Step

/-- Applies steps one after the other to a table. -/
def applySteps : List Step → Table → Except Rejection Table
  | [], t => .ok t
  | s :: rest, t => do
    let next ← s.transform.apply t
    applySteps rest next

end ChartFeed
