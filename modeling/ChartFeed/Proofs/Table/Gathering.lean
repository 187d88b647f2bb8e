import ChartFeed.Proofs.Table.Grouping

/-!
# Putting groups under their keys once more

The groups of a grouping can be taken one after the other and put under their keys again.  One
expects to find the same grouping.  But each group is searched for among those that are already
there, as a row is, and an order that is not transitive may find a key that compares as equal where
there was none before, or a greater key in front of a smaller one.

* `Key.map_update` — changing what stands under a key, seen through a function.
* `gathered` — the groups, put under their keys once more.
* `forall_mem_gathered` — what is to be said of the groups then, whatever the order: their keys and
  rows are keys and rows of groups that were there.
* `gathered_eq_self` — nothing changes if the keys ascend.
-/

set_option autoImplicit false

namespace ChartFeed

namespace Key

variable {α β : Type} {start : α} {change : α → α} {change' : β → β} {key : Key}
  {cells : List (Key × α)}

/-- A change can be made to what a function makes of everything, if the function respects it. -/
theorem map_update (f : α → β) (start : α) (h : ∀ a, f (change a) = change' (f a)) :
    (update start change key cells).map (fun x ↦ (x.1, f x.2)) =
      update (f start) change' key (cells.map fun x ↦ (x.1, f x.2)) := by
  induction cells with
  | nil => simp [update, h]
  | cons x rest ih =>
    obtain ⟨k, a⟩ := x
    rw [List.map_cons, update, update]
    cases Key.order key k with
    | lt => simp [h]
    | eq => simp [h]
    | gt => simp [ih]

/-- A key that is greater than all others comes last. -/
theorem update_of_forall_gt (h : ∀ x ∈ cells, Key.order key x.1 = .gt) :
    update start change key cells = cells ++ [(key, change start)] := by
  induction cells with
  | nil => rfl
  | cons x rest ih =>
    obtain ⟨hx, hrest⟩ := List.forall_mem_cons.1 h
    simp only [update, hx, ih hrest, List.cons_append]

end Key

namespace Grouping

/-- The groups, put under their keys once more, one after the other. -/
def gathered (g : Grouping) : Grouping :=
  g.foldl (fun found x ↦ Key.update [] (fun rows ↦ rows ++ x.2) x.1 found) []

variable {g : Grouping}

theorem gathered_append_singleton (g : Grouping) (x : Key × List Nat) :
    gathered (g ++ [x]) = Key.update [] (fun rows ↦ rows ++ x.2) x.1 (gathered g) :=
  List.foldl_append

/-- **What holds of the groups, and is kept when one more is put with them, holds afterwards.** -/
theorem forall_mem_gathered {Q : Key × List Nat → Prop} (hnew : ∀ x ∈ g, Q x)
    (hmore : ∀ x ∈ g, ∀ y, Q y → Q (y.1, y.2 ++ x.2)) : ∀ x ∈ gathered g, Q x := by
  induction g using List.reverseRecOn with
  | nil => exact fun x hx ↦ nomatch hx
  | append_singleton g x ih =>
    rw [List.forall_mem_append, List.forall_mem_singleton] at hnew hmore
    rw [gathered_append_singleton]
    exact forall_mem_update (ih hnew.1 hmore.1) hnew.2 fun y _ _ ↦ hmore.2 y

theorem rows_ne_nil_of_mem_gathered (h : ∀ x ∈ g, x.2 ≠ []) : ∀ x ∈ gathered g, x.2 ≠ [] :=
  forall_mem_gathered h fun x hx y _ ↦ List.append_ne_nil_of_right_ne_nil y.2 (h x hx)

/-- The keys are keys that were there. -/
theorem keys_gathered_subset (g : Grouping) : (gathered g).keys ⊆ g.keys :=
  List.forall_mem_map.2 <| forall_mem_gathered (Q := fun x ↦ x.1 ∈ g.keys)
    (fun _ ↦ List.mem_map_of_mem) fun _ _ _ ↦ id

/-- **Nothing changes if the keys ascend.** -/
theorem gathered_eq_self (h : Ascending g.keys) : gathered g = g := by
  induction g using List.reverseRecOn with
  | nil => rfl
  | append_singleton g x ih =>
    rw [keys, List.map_append, Ascending, List.pairwise_append] at h
    obtain ⟨hg, -, hless⟩ := h
    rw [gathered_append_singleton, ih hg]
    refine Key.update_of_forall_gt fun y hy ↦ Std.OrientedCmp.gt_of_lt ?_
    exact hless y.1 (List.mem_map_of_mem hy) x.1 (List.mem_singleton_self _)

end Grouping

end ChartFeed
