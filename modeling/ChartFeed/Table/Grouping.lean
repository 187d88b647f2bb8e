import ChartFeed.Table.Basic

/-!
# Rows by key, and rows in order

* `Key.update` changes what stands under a key in a list in ascending order of the keys;
* `Grouping` lists the rows of every key, keys in ascending order.  Keys are the same when they
  compare as equal, and the first row's key stands for all;
* `Grouping.ofColumns` groups the rows of a table by the cells of some columns; rows with an absent
  cell there belong to no group;
* `sortStably` sorts by a relation and keeps the order of what it does not tell apart.
-/

set_option autoImplicit false

namespace ChartFeed

/-- Changes what stands under a key.  The search goes from the least key upward and ends at the
first that is not less.  A key that is not found there comes in, and has what `start` is changed
to. -/
def Key.update {α : Type} (start : α) (change : α → α) (key : Key) :
    List (Key × α) → List (Key × α)
  | [] => [(key, change start)]
  | (k, a) :: rest =>
    match Key.order key k with
    | .lt => (key, change start) :: (k, a) :: rest
    | .eq => (k, change a) :: rest
    | .gt => (k, a) :: update start change key rest

/-- The rows of every key, keys in ascending order. -/
abbrev Grouping := List (Key × List Nat)

namespace Grouping

/-- Adds a row to the group of its key. -/
def add (key : Key) (row : Nat) (g : Grouping) : Grouping :=
  Key.update [] (fun rows ↦ rows ++ [row]) key g

theorem add_nil (key : Key) (row : Nat) : add key row [] = [(key, [row])] := rfl

theorem add_cons (key : Key) (row : Nat) (k : Key) (rows : List Nat) (g : Grouping) :
    add key row ((k, rows) :: g) =
      match Key.order key k with
      | .lt => (key, [row]) :: (k, rows) :: g
      | .eq => (k, rows ++ [row]) :: g
      | .gt => (k, rows) :: add key row g :=
  rfl

/-- The rows whose key compares as equal to this one. -/
def rowsOf? (key : Key) (g : Grouping) : Option (List Nat) :=
  match g with
  | [] => none
  | (k, rows) :: rest =>
    match Key.order key k with
    | .lt => none
    | .eq => some rows
    | .gt => rowsOf? key rest

/-- The keys in ascending order. -/
def keys (g : Grouping) : List Key := g.map Prod.fst

/-- The cells of a row in some columns. -/
def keyAt (columns : List Column) (row : Nat) : Key := columns.map fun c ↦ c.cellAt row

/-- Adds the rows with a key to their groups, in the order of the rows. -/
def addRows (keyOf : Nat → Option Key) (rows : List Nat) (g : Grouping) : Grouping :=
  rows.foldl (fun g row ↦
    match keyOf row with
    | some key => add key row g
    | none => g) g

/-- Groups the rows with a key, in the order of the rows. -/
def ofRows (keyOf : Nat → Option Key) (rows : List Nat) : Grouping := addRows keyOf rows []

/-- The key of a row, when all its cells are present. -/
def presentKeyAt (columns : List Column) (row : Nat) : Option Key :=
  let key := keyAt columns row
  if key.any Cell.isAbsent then none else some key

/-- The rows without an absent cell in the columns, by their cells there. -/
def ofColumns (columns : List Column) : Grouping :=
  let count := match columns with
    | [] => 0
    | c :: _ => c.cells.length
  ofRows (presentKeyAt columns) (List.range count)

end Grouping

/-! ## Keys without repetition -/

/-- Adds a key to an ascending list, unless one that compares as equal is there. -/
def Key.addDistinct (key : Key) : List Key → List Key
  | [] => [key]
  | k :: rest =>
    match Key.order key k with
    | .lt => key :: k :: rest
    | .eq => k :: rest
    | .gt => k :: addDistinct key rest

/-! ## Sorting -/

variable {α : Type}

/-- Inserts an element into a list in descending order, before what is not greater. -/
def insertDescending (before : α → α → Bool) (x : α) : List α → List α
  | [] => [x]
  | y :: rest => if before x y then y :: insertDescending before x rest else x :: y :: rest

/-- Sorts by a relation; elements that it does not tell apart keep their order.  If the relation
does not order the elements, all that can be relied on is that they are rearranged: a standard sort
may arrange them differently, and it may panic when it notices. -/
def sortStably (before : α → α → Bool) (xs : List α) : List α :=
  (xs.foldl (fun acc x ↦ insertDescending before x acc) []).reverse

end ChartFeed
