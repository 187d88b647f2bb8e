import Mathlib.Data.List.Induction
import Mathlib.Data.List.Nodup

/-!
# Lists that are known by their members

A list in a strict order is known by what is in it.  So it is said of many lists which members they
have and how these are ordered, and not how they are found.

* `eq_of_pairwise_of_mem_iff` — there is only one list with given members in a strict order;
* `Collects` — a list has the items of another with a property, each once, in the order of their
  first mention, as names are reported that something is wrong with;
* `collects_foldl` — one walk collects them.
-/

set_option autoImplicit false

namespace ChartFeed

variable {α : Type}

/-- Lists with the same members in a strict order are the same. -/
theorem eq_of_pairwise_of_mem_iff {r : α → α → Prop} (hr : ∀ a b, r a b → ¬ r b a)
    {xs ys : List α} (hxs : xs.Pairwise r) (hys : ys.Pairwise r) (h : ∀ a, a ∈ xs ↔ a ∈ ys) :
    xs = ys := by
  have hne {a b : α} (hab : r a b) : a ≠ b := by
    rintro rfl
    exact hr a a hab hab
  have hperm : xs.Perm ys := (List.perm_ext_iff_of_nodup (hxs.imp hne) (hys.imp hne)).2 h
  exact hperm.eq_of_pairwise (fun a b _ _ hab hba ↦ absurd hba (hr a b hab)) hxs hys

/-! ## Items in the order of their first mention -/

variable [DecidableEq α] {p : α → Prop} {items collected : List α}

/-- The items in the second list are those of the first with a property, each once, in the order in
which they are first mentioned. -/
structure Collects (p : α → Prop) (items collected : List α) : Prop where
  mem_iff : ∀ item, item ∈ collected ↔ item ∈ items ∧ p item
  /-- What is mentioned first comes first, so nothing comes twice. -/
  inOrder : collected.Pairwise fun a b ↦ items.idxOf a < items.idxOf b

theorem Collects.nodup (h : Collects p items collected) : collected.Nodup :=
  h.inOrder.imp fun {a b} hab hne ↦ by
    subst hne
    exact Nat.lt_irrefl _ hab

/-- There is only one such list. -/
theorem Collects.unique {other : List α} (h : Collects p items collected)
    (h' : Collects p items other) : collected = other :=
  eq_of_pairwise_of_mem_iff (fun _ _ ↦ Nat.lt_asymm) h.inOrder h'.inOrder fun item ↦
    (h.mem_iff item).trans (h'.mem_iff item).symm

/-- One more item is collected when it has the property and is new. -/
theorem Collects.concat [DecidablePred p] (h : Collects p items collected) (item : α) :
    Collects p (items ++ [item])
      (if p item ∧ item ∉ collected then collected ++ [item] else collected) := by
  have horder : collected.Pairwise fun a b ↦
      (items ++ [item]).idxOf a < (items ++ [item]).idxOf b :=
    h.inOrder.imp_of_mem fun {a b} ha hb hab ↦ by
      rw [List.idxOf_append_of_mem ((h.mem_iff a).1 ha).1,
        List.idxOf_append_of_mem ((h.mem_iff b).1 hb).1]
      exact hab
  split
  · next hnew =>
    have hitem : item ∉ items := fun hmem ↦ hnew.2 ((h.mem_iff item).2 ⟨hmem, hnew.1⟩)
    refine ⟨fun other ↦ ?_, List.pairwise_append.2 ⟨horder, List.pairwise_singleton .., ?_⟩⟩
    · rw [List.mem_append, List.mem_append, h.mem_iff, List.mem_singleton, or_and_right]
      exact or_congr_right (iff_self_and.2 fun e ↦ e ▸ hnew.1)
    · intro a ha b hb
      have hmem := ((h.mem_iff a).1 ha).1
      rw [List.mem_singleton.1 hb, List.idxOf_append_of_mem hmem, List.idxOf_append_of_notMem hitem]
      exact Nat.lt_add_right _ (List.idxOf_lt_length_of_mem hmem)
  · next hold =>
    -- what is not collected now either lacks the property or was collected before
    refine ⟨fun other ↦ ?_, horder⟩
    rw [h.mem_iff, List.mem_append, List.mem_singleton, or_and_right]
    refine ⟨.inl, fun hmem ↦ hmem.elim id ?_⟩
    rintro ⟨rfl, hp⟩
    exact (h.mem_iff other).1 (Decidable.by_contra fun hnew ↦ hold ⟨hp, hnew⟩)

/-- **One walk collects the items**, whatever is repeated. -/
theorem collects_foldl (p : α → Prop) [DecidablePred p] (items : List α) :
    Collects p items
      (items.foldl (fun acc item ↦ if p item ∧ item ∉ acc then acc ++ [item] else acc) []) := by
  induction items using List.reverseRecOn with
  | nil => exact ⟨fun _ ↦ by simp, .nil⟩
  | append_singleton items item ih =>
    rw [List.foldl_append]
    exact ih.concat item

end ChartFeed
