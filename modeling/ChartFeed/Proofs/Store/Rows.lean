import Mathlib.Logic.Function.Basic
import ChartFeed.Proofs.Listing
import ChartFeed.Store.Rows

/-!
# Looking up rows

What matters about rows is which value `Rows.get?` finds under a number, and in which order the rows
are listed.  This file says what each operation does to the first, and that the second follows from
it.

* `get?_insert`, `get?_erase` — the view after setting and after removing a number, as an update of
  a function;
* `mem_entries_iff` — the entries are what is found;
* `Lists` — a list names the values of a map in the order of their numbers.  `Lists.unique` says
  that a map has at most one such list, and `lists_entries` that the entries are the one of
  `Rows.get?`.
-/

set_option autoImplicit false

namespace ChartFeed.Rows

variable {α : Type}

/-! ## One number -/

theorem find?_cons (k id : Int) (v : α) (rest : List (Int × α)) :
    find? ((k, v) :: rest) id = if k = id then some v else find? rest id := rfl

theorem find?_place (entries : List (Int × α)) (k : Int) (v : α) (id : Int) :
    find? (place entries k v) id = if id = k then some v else find? entries id := by
  induction entries with
  | nil => simp [place, find?_cons, find?, eq_comm]
  | cons first rest ih =>
    obtain ⟨l, w⟩ := first
    rw [place]
    split
    · rw [find?_cons]
      simp only [eq_comm]
    · split
      · next hkl =>
        subst hkl
        rw [find?_cons, find?_cons]
        by_cases hid : k = id
        · simp [hid]
        · simp [hid, Ne.symm hid]
      · next hkl =>
        rw [find?_cons, find?_cons, ih]
        by_cases hl : l = id
        · have hk : id ≠ k := fun e ↦ hkl (e.symm.trans hl.symm)
          simp [hl, hk]
        · simp [hl]

/-- Setting a number changes what is found under it. -/
@[simp] theorem get?_insert (rows : Rows α) (id : Int) (value : α) :
    (rows.insert id value).get? = Function.update rows.get? id (some value) := by
  funext k
  rw [Function.update_apply]
  exact find?_place rows.entries id value k

theorem find?_filter_ne (entries : List (Int × α)) (k id : Int) :
    find? (entries.filter fun e ↦ e.1 != k) id = if id = k then none else find? entries id := by
  induction entries with
  | nil => simp [find?]
  | cons first rest ih =>
    obtain ⟨l, w⟩ := first
    by_cases hlk : l = k
    · subst hlk
      rw [List.filter_cons_of_neg (by simp), ih, find?_cons]
      by_cases hid : id = l
      · simp [hid]
      · simp [hid, Ne.symm hid]
    · rw [List.filter_cons_of_pos (by simpa using hlk), find?_cons, find?_cons, ih]
      by_cases hl : l = id
      · have hk : id ≠ k := fun e ↦ hlk (hl.trans e)
        simp [hl, hk]
      · simp [hl]

/-- Removing a number leaves nothing under it. -/
@[simp] theorem get?_erase (rows : Rows α) (id : Int) :
    (rows.erase id).get? = Function.update rows.get? id none := by
  funext k
  rw [Function.update_apply]
  exact find?_filter_ne rows.entries id k

theorem contains_iff {rows : Rows α} {id : Int} :
    rows.contains id = true ↔ ∃ value, rows.get? id = some value :=
  Option.isSome_iff_exists

/-! ## The order of the rows -/

/-- The list names the values of the map, in the order of their numbers. -/
structure Lists (rows : Int → Option α) (entries : List (Int × α)) : Prop where
  ascending : entries.Pairwise fun a b ↦ a.1 < b.1
  mem_iff : ∀ id value, (id, value) ∈ entries ↔ rows id = some value

/-- A map is listed in one way. -/
theorem Lists.unique {rows : Int → Option α} {l l' : List (Int × α)} (h : Lists rows l)
    (h' : Lists rows l') : l = l' :=
  eq_of_pairwise_of_mem_iff (fun _ _ ↦ Int.lt_asymm) h.ascending h'.ascending fun (id, value) ↦
    (h.mem_iff id value).trans (h'.mem_iff id value).symm

theorem find?_eq_some_iff {entries : List (Int × α)}
    (h : entries.Pairwise fun a b ↦ a.1 < b.1) {id : Int} {value : α} :
    find? entries id = some value ↔ (id, value) ∈ entries := by
  induction entries with
  | nil => simp [find?]
  | cons first rest ih =>
    obtain ⟨k, v⟩ := first
    obtain ⟨hfirst, hrest⟩ := List.pairwise_cons.1 h
    rw [find?_cons, List.mem_cons, Prod.mk.injEq]
    by_cases hk : k = id
    · -- no later entry has the number of the first one
      have hlater : (id, value) ∉ rest := fun hmem ↦ absurd (hfirst _ hmem) (by simp [hk])
      simp [hk, hlater, eq_comm]
    · simp [hk, Ne.symm hk, ih hrest]

theorem mem_entries_iff {rows : Rows α} {id : Int} {value : α} :
    (id, value) ∈ rows.entries ↔ rows.get? id = some value :=
  (find?_eq_some_iff rows.ascending).symm

theorem lists_entries (rows : Rows α) : Lists rows.get? rows.entries :=
  ⟨rows.ascending, fun _ _ ↦ mem_entries_iff⟩

/-- Rows are what is found in them. -/
theorem get?_injective {rows rows' : Rows α} (h : rows.get? = rows'.get?) : rows = rows' := by
  have hentries : rows.entries = rows'.entries :=
    (lists_entries rows).unique (h ▸ lists_entries rows')
  cases rows
  cases rows'
  cases hentries
  rfl

/-- Entries in the order of their numbers replace what stands under these numbers. -/
theorem get?_foldl_insert {entries : List (Int × α)}
    (h : entries.Pairwise fun a b ↦ a.1 < b.1) (rows : Rows α) (id : Int) :
    (entries.foldl (fun rows e ↦ rows.insert e.1 e.2) rows).get? id =
      (find? entries id).or (rows.get? id) := by
  induction entries generalizing rows with
  | nil => rfl
  | cons first rest ih =>
    obtain ⟨k, v⟩ := first
    obtain ⟨hfirst, hrest⟩ := List.pairwise_cons.1 h
    rw [List.foldl_cons, ih hrest, find?_cons, get?_insert, Function.update_apply]
    by_cases hk : k = id
    · -- no later entry has the number of the first one
      have hnone : find? rest id = none := by
        rw [Option.eq_none_iff_forall_ne_some]
        intro w hw
        exact absurd (hfirst _ ((find?_eq_some_iff hrest).1 hw)) (by simp [hk])
      simp [hk, hnone]
    · simp [hk, Ne.symm hk]

end ChartFeed.Rows
