/-!
# Rows by number

`Rows` holds values under integer numbers, in ascending order of the numbers.  The order is part of
the type: two collections that hold the same values under the same numbers are equal.

* `Rows.get?`, `Rows.insert` and `Rows.erase` look up, set and remove one number;
* `Rows.values` lists the values in the order of their numbers.
-/

set_option autoImplicit false

namespace ChartFeed

/-- Values under integer numbers. -/
structure Rows (α : Type) where
  /-- The numbers with their values. -/
  entries : List (Int × α)
  /-- The numbers ascend. -/
  ascending : entries.Pairwise fun a b ↦ a.1 < b.1

namespace Rows

variable {α : Type}

/-- No rows. -/
def empty : Rows α := ⟨[], .nil⟩

instance : Inhabited (Rows α) := ⟨empty⟩

instance [DecidableEq α] : DecidableEq (Rows α) := fun a b ↦
  if h : a.entries = b.entries then
    .isTrue (by cases a; cases b; cases h; rfl)
  else .isFalse fun e ↦ h (e ▸ rfl)

/-- The value under the first entry with this number. -/
def find? : List (Int × α) → Int → Option α
  | [], _ => none
  | (k, v) :: rest, id => if k = id then some v else find? rest id

/-- Sets the value under a number at its place in the order. -/
def place : List (Int × α) → Int → α → List (Int × α)
  | [], id, value => [(id, value)]
  | (k, v) :: rest, id, value =>
    if id < k then (id, value) :: (k, v) :: rest
    else if id = k then (id, value) :: rest
    else (k, v) :: place rest id value

theorem fst_mem_place {entries : List (Int × α)} {id : Int} {value : α} {e : Int × α}
    (h : e ∈ place entries id value) : e.1 = id ∨ e ∈ entries := by
  induction entries with
  | nil => simp_all [place]
  | cons first rest ih =>
    obtain ⟨k, v⟩ := first
    simp only [place] at h
    split at h
    · rcases List.mem_cons.1 h with rfl | h
      · exact .inl rfl
      · exact .inr h
    · split at h
      · rcases List.mem_cons.1 h with rfl | h
        · exact .inl rfl
        · exact .inr (List.mem_cons_of_mem _ h)
      · rcases List.mem_cons.1 h with rfl | h
        · exact .inr List.mem_cons_self
        · exact (ih h).imp_right (List.mem_cons_of_mem _)

theorem ascending_place {entries : List (Int × α)} (id : Int) (value : α)
    (h : entries.Pairwise fun a b ↦ a.1 < b.1) :
    (place entries id value).Pairwise fun a b ↦ a.1 < b.1 := by
  induction entries with
  | nil => simp [place]
  | cons first rest ih =>
    obtain ⟨k, v⟩ := first
    rw [List.pairwise_cons] at h
    simp only [place]
    split
    · next hlt =>
      refine List.pairwise_cons.2 ⟨fun e he ↦ ?_, List.pairwise_cons.2 h⟩
      rcases List.mem_cons.1 he with rfl | he
      · exact hlt
      · exact Int.lt_trans hlt (h.1 e he)
    · split
      · next heq =>
        subst heq
        exact List.pairwise_cons.2 h
      · next hnlt hne =>
        refine List.pairwise_cons.2 ⟨fun e he ↦ ?_, ih h.2⟩
        rcases fst_mem_place he with hid | he
        · rw [hid]
          show k < id
          omega
        · exact h.1 e he

/-- The value under a number. -/
def get? (rows : Rows α) (id : Int) : Option α := find? rows.entries id

/-- Whether there is a row with this number. -/
def contains (rows : Rows α) (id : Int) : Bool := (rows.get? id).isSome

/-- Sets the value under a number. -/
def insert (rows : Rows α) (id : Int) (value : α) : Rows α :=
  ⟨place rows.entries id value, ascending_place id value rows.ascending⟩

/-- Removes the row with this number. -/
def erase (rows : Rows α) (id : Int) : Rows α :=
  ⟨rows.entries.filter fun e ↦ e.1 != id, rows.ascending.filter _⟩

/-- The values in the order of their numbers. -/
def values (rows : Rows α) : List α := rows.entries.map Prod.snd

end Rows

end ChartFeed
