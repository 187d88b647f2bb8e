import ChartFeed.Table.Basic

/-!
# Computing columns from columns

Several transforms compute new columns from the numbers of old ones and name where each goes.  All
of them are computed before any is stored, so a column may be source and destination at once.
-/

set_option autoImplicit false

namespace ChartFeed

/-- The new cells under their names, computed from the sources in a table. -/
def computeColumns (t : Table) (compute : List (Option Float) → List Cell)
    (mapping : List (String × String)) : Except Rejection (List (String × List Cell)) := do
  let sources ← t.requireEach (mapping.map Prod.fst)
  return (mapping.zip sources).map fun (names, source) ↦ (names.2, compute source.numbers)

/-- Computes columns from columns and stores the results under the mapping's second names. -/
def Table.assign (t : Table) (mapping : List (String × String))
    (compute : List (Option Float) → List Cell) : Except Rejection Table := do
  t.requireAll (mapping.map Prod.fst)
  let computed ← computeColumns t compute mapping
  return t.upsertAll computed

end ChartFeed
