import ChartFeed.Proofs.Table.NestedGrouping

/-!
# Grouping rows in another order

The groups of some rows are found by taking the rows one after the other, so another order of the
rows may give a group another key, and has its rows in another order.  Nothing else changes, if the
order of the cells is transitive.

* `ofRows_map` — grouping rows that are numbered anew is numbering the rows of the groups anew,
  whatever the order of cells.
* `Ascending.forall₂` — two ascending lists of keys that have keys for each other agree one by one.
* `Ordered.forall₂_ofRows` — so rearranged rows have the same groups, up to keys that compare as
  equal and the order of the rows in them.
-/

set_option autoImplicit false

namespace ChartFeed.Grouping

/-! ## Rows that are numbered anew -/

/-- A group whose rows are numbered anew. -/
def renumber (f : Nat → Nat) (group : Key × List Nat) : Key × List Nat :=
  (group.1, group.2.map f)

variable {keyOf keyOf' : Nat → Option Key} {rows rows' : List Nat}

theorem keys_renumber (f : Nat → Nat) (g : Grouping) : keys (g.map (renumber f)) = g.keys := by
  rw [keys, List.map_map]
  rfl

theorem add_renumber (f : Nat → Nat) (key : Key) (row : Nat) (g : Grouping) :
    add key (f row) (g.map (renumber f)) = (add key row g).map (renumber f) := by
  induction g with
  | nil => rfl
  | cons group rest ih =>
    obtain ⟨k, members⟩ := group
    rw [List.map_cons, renumber, add_cons, add_cons]
    cases Key.order key k with
    | lt => rfl
    | eq => simp [renumber]
    | gt => exact congrArg _ ih

/-- **Grouping rows that are numbered anew** gives the groups of the rows, numbered anew. -/
theorem ofRows_map (keyOf : Nat → Option Key) (f : Nat → Nat) (rows : List Nat) :
    ofRows keyOf (rows.map f) = (ofRows (fun row ↦ keyOf (f row)) rows).map (renumber f) := by
  induction rows using List.reverseRecOn with
  | nil => rfl
  | append_singleton rows row ih =>
    rw [List.map_append, List.map_singleton, ofRows_append_singleton, ofRows_append_singleton, ih]
    cases keyOf (f row) with
    | none => rfl
    | some key => exact add_renumber f key row _

/-- Grouping depends on the keys of the rows alone. -/
theorem ofRows_congr (h : ∀ row ∈ rows, keyOf row = keyOf' row) :
    ofRows keyOf rows = ofRows keyOf' rows := by
  induction rows using List.reverseRecOn with
  | nil => rfl
  | append_singleton rows row ih =>
    rw [List.forall_mem_append, List.forall_mem_singleton] at h
    rw [ofRows_append_singleton, ofRows_append_singleton, ih h.1, h.2]

/-! ## Keys of the same groups -/

section

variable {kind : Key → Prop} (hkind : TransitiveOn Key.order kind) {k k' : Key}
  {ks ks' : List Key}

include hkind

/-- The first of ascending keys compare as equal when each has its like in the other list. -/
theorem first_order_eq (hof : ∀ x ∈ k :: ks, kind x) (hof' : ∀ x ∈ k' :: ks', kind x)
    (hless : ∀ x ∈ ks, Key.order k x = .lt) (hless' : ∀ x ∈ ks', Key.order k' x = .lt)
    (hmem : ∃ x ∈ k' :: ks', Key.order k x = .eq) (hmem' : ∃ x ∈ k :: ks, Key.order k' x = .eq) :
    Key.order k k' = .eq := by
  obtain ⟨x, hx, hkx⟩ := hmem
  obtain ⟨y, hy, hky⟩ := hmem'
  obtain ⟨hk, hkinds⟩ := List.forall_mem_cons.1 hof
  obtain ⟨hk', hkinds'⟩ := List.forall_mem_cons.1 hof'
  rcases List.mem_cons.1 hx with rfl | hx
  · exact hkx
  rcases List.mem_cons.1 hy with rfl | hy
  · exact Std.OrientedCmp.eq_comm.1 hky
  -- otherwise each would be before the other
  have hlt : Key.order k k' = .lt :=
    (hkind.congr_right hk hk' (hkinds y hy) hky).trans (hless y hy)
  have hlt' : Key.order k' k = .lt :=
    (hkind.congr_right hk' hk (hkinds' x hx) hkx).trans (hless' x hx)
  rw [Std.OrientedCmp.gt_of_lt hlt'] at hlt
  cases hlt

/-- A key after the first has its like after the first of the other list. -/
theorem exists_after_first {x : Key} (hk : kind k) (hk' : kind k') (hx : kind x)
    (hfirst : Key.order k k' = .eq) (hless : Key.order k x = .lt)
    (hmem : ∃ x' ∈ k' :: ks', Key.order x x' = .eq) : ∃ x' ∈ ks', Key.order x x' = .eq := by
  obtain ⟨x', hx', heq⟩ := hmem
  rcases List.mem_cons.1 hx' with rfl | hx'
  · rw [hkind.congr_right hk hx hk' heq, hfirst] at hless
    cases hless
  · exact ⟨x', hx', heq⟩

/-- **Ascending keys agree one by one** when each has its like in the other list. -/
theorem Ascending.forall₂ (hks : Ascending ks) (hks' : Ascending ks') (hof : ∀ k ∈ ks, kind k)
    (hof' : ∀ k ∈ ks', kind k) (hmem : ∀ k ∈ ks, ∃ k' ∈ ks', Key.order k k' = .eq)
    (hmem' : ∀ k' ∈ ks', ∃ k ∈ ks, Key.order k' k = .eq) :
    List.Forall₂ (fun k k' ↦ Key.order k k' = .eq) ks ks' := by
  induction ks generalizing ks' with
  | nil =>
    cases ks' with
    | nil => exact .nil
    | cons k' rest' =>
      obtain ⟨k, hk, -⟩ := hmem' k' (List.mem_cons_self ..)
      cases hk
  | cons k rest ih =>
    cases ks' with
    | nil =>
      obtain ⟨k', hk', -⟩ := hmem k (List.mem_cons_self ..)
      cases hk'
    | cons k' rest' =>
      obtain ⟨hless, hrest⟩ := List.pairwise_cons.1 hks
      obtain ⟨hless', hrest'⟩ := List.pairwise_cons.1 hks'
      obtain ⟨hk, hkinds⟩ := List.forall_mem_cons.1 hof
      obtain ⟨hk', hkinds'⟩ := List.forall_mem_cons.1 hof'
      obtain ⟨hlike, hlikes⟩ := List.forall_mem_cons.1 hmem
      obtain ⟨hlike', hlikes'⟩ := List.forall_mem_cons.1 hmem'
      have hfirst := first_order_eq hkind hof hof' hless hless' hlike hlike'
      have hfirst' := Std.OrientedCmp.eq_comm.1 hfirst
      refine .cons hfirst (ih hrest hrest' hkinds hkinds' (fun x hx ↦ ?_) fun x hx ↦ ?_)
      · exact exists_after_first hkind hk hk' (hkinds x hx) hfirst (hless x hx) (hlikes x hx)
      · exact exists_after_first hkind hk' hk (hkinds' x hx) hfirst' (hless' x hx) (hlikes' x hx)

end

namespace Ordered

variable {columns : List Column}

/-- **Rearranged rows have the same groups**: their keys compare as equal, and their rows are
rearranged. -/
theorem forall₂_ofRows (h : Ordered columns rows) (hperm : rows.Perm rows') :
    List.Forall₂ (fun x x' ↦ Key.order x.1 x'.1 = .eq ∧ x.2.Perm x'.2)
      (ofRows (presentKeyAt columns) rows) (ofRows (presentKeyAt columns) rows') := by
  have h' : Ordered columns rows' := h.mono hperm.symm.subset
  have hlike {xs xs' : List Nat} (hxs : Ordered columns xs) (hxs' : Ordered columns xs')
      (hsub : xs ⊆ xs') : ∀ k ∈ (ofRows (presentKeyAt columns) xs).keys,
        ∃ k' ∈ (ofRows (presentKeyAt columns) xs').keys, Key.order k k' = .eq := by
    intro k hk
    obtain ⟨row, hrow, hkey⟩ := exists_of_mem_keys hk
    obtain ⟨k', hk', heq⟩ := hxs'.exists_key (hsub hrow) hkey
    exact ⟨k', hk', Std.OrientedCmp.eq_comm.1 heq⟩
  have hkeys := h.ascending.forall₂ h.transitive_keys h'.ascending
    (fun k ↦ h.within_of_mem_keys) (fun k ↦ h'.within_of_mem_keys)
    (hlike h h' hperm.subset) (hlike h' h hperm.symm.subset)
  rw [h.ofRows_eq, h'.ofRows_eq, List.forall₂_map_left_iff, List.forall₂_map_right_iff]
  refine List.forall₂_iff_zip.2 ⟨hkeys.length_eq, fun {k k'} hzip ↦ ?_⟩
  obtain ⟨hk, hk'⟩ := List.of_mem_zip hzip
  have heq : Key.order k k' = .eq := (List.forall₂_iff_zip.1 hkeys).2 hzip
  refine ⟨heq, ?_⟩
  rw [h.rowsWith_congr (h.within_of_mem_keys hk) (h'.within_of_mem_keys hk') heq]
  exact hperm.filter _

end Ordered

end ChartFeed.Grouping
