import Mathlib.Data.List.Induction
import ChartFeed.Proofs.Table.CellOrder
import ChartFeed.Proofs.Table.Columns
import ChartFeed.Table.Grouping

/-!
# What is in a group

A grouping is built row by row, and what is in it at the end does not show that: every group has the
rows whose keys compare as equal to its own, in the order of the rows.

Two kinds of facts are kept apart, because they ask for different things.

* **Of any order.**  A property of groups that holds of a single row and is kept when a row is added
  holds of every group (`forall_mem_ofRows`).  That is enough for what the key of a group looks
  like, for where its rows come from and for what their keys are.
* **Of a transitive order.**  The search for the group of a key goes through ascending keys and
  stops at the first that is greater, so it can pass a key by unless the order is transitive on the
  keys that are there.  If it is, `rowsOf?_add` says what adding a row does to looking up a key,
  and `ofRows_eq_map` says what the grouping is.

The distinct keys of a list of rows are the keys of their grouping (`keys_add`), so nothing has to
be said about them separately.
-/

set_option autoImplicit false

namespace ChartFeed.Grouping

/-! ## The key of a row -/

/-- The number of rows that are grouped. -/
def rowTotal (columns : List Column) : Nat := (columns.head?.map fun c ↦ c.cells.length).getD 0

theorem ofColumns_eq (columns : List Column) :
    ofColumns columns = ofRows (presentKeyAt columns) (List.range (rowTotal columns)) := by
  cases columns <;> rfl

theorem length_keyAt (columns : List Column) (row : Nat) :
    (keyAt columns row).length = columns.length :=
  List.length_map ..

theorem presentKeyAt_eq_some_iff {columns : List Column} {row : Nat} {k : Key} :
    presentKeyAt columns row = some k ↔
      keyAt columns row = k ∧ ¬ k.any Cell.isAbsent = true := by
  simp only [presentKeyAt]
  constructor
  · intro h
    split at h
    · cases h
    · next hpresent =>
      cases h
      exact ⟨rfl, hpresent⟩
  · rintro ⟨rfl, hpresent⟩
    rw [if_neg hpresent]

theorem length_of_presentKeyAt {columns : List Column} {row : Nat} {k : Key}
    (h : presentKeyAt columns row = some k) : k.length = columns.length := by
  rw [← (presentKeyAt_eq_some_iff.1 h).1, length_keyAt]

variable {key : Key} {row : Nat} {g : Grouping} {keyOf : Nat → Option Key} {rows : List Nat}

/-! ## Any order -/

/-- What holds of all that stands under keys holds of it after a change, if it holds of what the
change makes. -/
theorem forall_mem_update {α : Type} {start : α} {change : α → α} {cells : List (Key × α)}
    {Q : Key × α → Prop} (hcells : ∀ x ∈ cells, Q x) (hnew : Q (key, change start))
    (hmore : ∀ x ∈ cells, Key.order key x.1 = .eq → Q x → Q (x.1, change x.2)) :
    ∀ x ∈ Key.update start change key cells, Q x := by
  induction cells with
  | nil => exact List.forall_mem_singleton.2 hnew
  | cons y rest ih =>
    obtain ⟨k, a⟩ := y
    obtain ⟨hy, hrest⟩ := List.forall_mem_cons.1 hcells
    obtain ⟨hmorey, hmorerest⟩ := List.forall_mem_cons.1 hmore
    rw [Key.update]
    split
    · exact List.forall_mem_cons.2 ⟨hnew, hcells⟩
    · next heq => exact List.forall_mem_cons.2 ⟨hmorey heq hy, hrest⟩
    · exact List.forall_mem_cons.2 ⟨hy, ih hrest hmorerest⟩

theorem forall_mem_add {Q : Key × List Nat → Prop} (hg : ∀ x ∈ g, Q x) (hnew : Q (key, [row]))
    (hmore : ∀ x ∈ g, Key.order key x.1 = .eq → Q x → Q (x.1, x.2 ++ [row])) :
    ∀ x ∈ add key row g, Q x :=
  forall_mem_update hg hnew hmore

theorem addRows_append (keyOf : Nat → Option Key) (rows rows' : List Nat) (g : Grouping) :
    addRows keyOf (rows ++ rows') g = addRows keyOf rows' (addRows keyOf rows g) :=
  List.foldl_append

theorem ofRows_append_singleton (keyOf : Nat → Option Key) (rows : List Nat) (row : Nat) :
    ofRows keyOf (rows ++ [row]) =
      match keyOf row with
      | some key => add key row (ofRows keyOf rows)
      | none => ofRows keyOf rows :=
  addRows_append ..

/-- **What holds of a single row, and is kept when a row is added, holds of every group.** -/
theorem forall_mem_ofRows {Q : Key × List Nat → Prop}
    (hnew : ∀ row ∈ rows, ∀ key, keyOf row = some key → Q (key, [row]))
    (hmore : ∀ row ∈ rows, ∀ key, keyOf row = some key → ∀ x, Key.order key x.1 = .eq → Q x →
      Q (x.1, x.2 ++ [row])) : ∀ x ∈ ofRows keyOf rows, Q x := by
  induction rows using List.reverseRecOn with
  | nil => exact fun x hx ↦ nomatch hx
  | append_singleton rows row ih =>
    simp only [List.forall_mem_append, List.forall_mem_singleton] at hnew hmore
    rw [ofRows_append_singleton]
    cases hkey : keyOf row with
    | none => exact ih hnew.1 hmore.1
    | some key =>
      exact forall_mem_add (ih hnew.1 hmore.1) (hnew.2 key hkey) fun x _ ↦ hmore.2 key hkey x

/-- The key of a group is that of one of the rows. -/
theorem exists_of_mem_keys {k : Key} (h : k ∈ (ofRows keyOf rows).keys) :
    ∃ row ∈ rows, keyOf row = some k := by
  obtain ⟨x, hx, rfl⟩ := List.mem_map.1 h
  exact forall_mem_ofRows (Q := fun x ↦ ∃ row ∈ rows, keyOf row = some x.1)
    (fun row hrow key hkey ↦ ⟨row, hrow, hkey⟩) (fun _ _ _ _ _ _ hx ↦ hx) x hx

/-- The rows of a group are among the rows. -/
theorem rows_subset_of_mem_ofRows {x : Key × List Nat} (h : x ∈ ofRows keyOf rows) :
    x.2 ⊆ rows := by
  refine forall_mem_ofRows (Q := fun x ↦ x.2 ⊆ rows) (fun row hrow key _ ↦ ?_)
    (fun row hrow _ _ x _ hx ↦ ?_) x h
  · exact List.cons_subset.2 ⟨hrow, List.nil_subset _⟩
  · exact List.append_subset.2 ⟨hx, List.cons_subset.2 ⟨hrow, List.nil_subset _⟩⟩

/-- Every group has a row. -/
theorem rows_ne_nil_of_mem_ofRows : ∀ x ∈ ofRows keyOf rows, x.2 ≠ [] :=
  forall_mem_ofRows (fun _ _ _ _ ↦ List.cons_ne_nil _ _) fun _ _ _ _ _ _ _ ↦ by simp

/-- **The rows of a group have keys that compare as equal to its own.** -/
theorem order_eq_of_mem {x : Key × List Nat} (hx : x ∈ ofRows keyOf rows) (hrow : row ∈ x.2) :
    ∃ key, keyOf row = some key ∧ Key.order key x.1 = .eq := by
  refine forall_mem_ofRows
    (Q := fun x ↦ ∀ row ∈ x.2, ∃ key, keyOf row = some key ∧ Key.order key x.1 = .eq)
    (fun row _ key hkey ↦ ?_) (fun row _ key hkey x heq hx ↦ ?_) x hx row hrow
  · exact List.forall_mem_singleton.2 ⟨key, hkey, Std.ReflCmp.compare_self⟩
  · exact List.forall_mem_append.2 ⟨hx, List.forall_mem_singleton.2 ⟨key, hkey, heq⟩⟩

/-- The keys with one more are those of a grouping with one more row. -/
theorem keys_add (key : Key) (row : Nat) (g : Grouping) :
    (add key row g).keys = Key.addDistinct key g.keys := by
  induction g with
  | nil => rfl
  | cons x rest ih =>
    obtain ⟨k, members⟩ := x
    simp only [keys] at ih
    simp only [keys, add_cons, List.map_cons, Key.addDistinct]
    cases Key.order key k <;> simp [ih]

/-- **Distinct keys are the keys of a grouping.** -/
theorem keys_ofRows (keyOf : Nat → Option Key) (rows : List Nat) :
    (ofRows keyOf rows).keys =
      (rows.filterMap keyOf).foldl (fun acc key ↦ Key.addDistinct key acc) [] := by
  induction rows using List.reverseRecOn with
  | nil => rfl
  | append_singleton rows row ih =>
    rw [ofRows_append_singleton, List.filterMap_append, List.foldl_append, ← ih]
    cases hkey : keyOf row with
    | none => simp [hkey]
    | some key => simp [hkey, keys_add]

/-! ## A transitive order -/

/-- The keys ascend strictly. -/
def Ascending (keys : List Key) : Prop := keys.Pairwise fun a b ↦ Key.order a b = .lt

/-- The rows whose key compares as equal to this one. -/
def rowsWith (keyOf : Nat → Option Key) (key : Key) (rows : List Nat) : List Nat :=
  rows.filter fun row ↦ (keyOf row).any fun k ↦ Key.order key k == .eq

theorem mem_rowsWith_iff : row ∈ rowsWith keyOf key rows ↔
    row ∈ rows ∧ ∃ k, keyOf row = some k ∧ Key.order key k = .eq := by
  simp [rowsWith, Option.any_eq_true]

theorem rowsWith_append_singleton (keyOf : Nat → Option Key) (key : Key) (rows : List Nat)
    (row : Nat) : rowsWith keyOf key (rows ++ [row]) =
      if (keyOf row).any fun k ↦ Key.order key k == .eq then rowsWith keyOf key rows ++ [row]
      else rowsWith keyOf key rows := by
  rw [rowsWith, List.filter_append, List.filter_cons]
  split <;> simp [rowsWith]

/-- The keys are of this kind and ascend strictly. -/
structure Sorted (kind : Key → Prop) (g : Grouping) : Prop where
  ascending : Ascending g.keys
  kind_of_mem : ∀ k ∈ g.keys, kind k

variable {kind : Key → Prop} {k : Key} {members : List Nat}

theorem sorted_cons_iff : Sorted kind ((k, members) :: g) ↔
    (∀ k' ∈ g.keys, Key.order k k' = .lt) ∧ kind k ∧ Sorted kind g := by
  constructor
  · rintro ⟨hascending, hkind⟩
    obtain ⟨hless, hrest⟩ := List.pairwise_cons.1 hascending
    obtain ⟨hk, hkinds⟩ := List.forall_mem_cons.1 hkind
    exact ⟨hless, hk, hrest, hkinds⟩
  · rintro ⟨hless, hk, hrest, hkinds⟩
    exact ⟨List.pairwise_cons.2 ⟨hless, hrest⟩, List.forall_mem_cons.2 ⟨hk, hkinds⟩⟩

/-- What is found belongs to a key that compares as equal. -/
theorem mem_of_rowsOf? (h : rowsOf? key g = some members) :
    ∃ k, (k, members) ∈ g ∧ Key.order key k = .eq := by
  induction g with
  | nil => cases h
  | cons x rest ih =>
    obtain ⟨k, others⟩ := x
    rw [rowsOf?] at h
    split at h
    · cases h
    · next hk =>
      cases h
      exact ⟨k, List.mem_cons_self .., hk⟩
    · obtain ⟨k', hmem, hk'⟩ := ih h
      exact ⟨k', List.mem_cons_of_mem _ hmem, hk'⟩

/-- The rows of a key that is there are found. -/
theorem Sorted.rowsOf?_of_mem (hg : Sorted kind g) (h : (k, members) ∈ g) :
    rowsOf? k g = some members := by
  induction g with
  | nil => cases h
  | cons x rest ih =>
    obtain ⟨first, others⟩ := x
    obtain ⟨hless, -, hrest⟩ := sorted_cons_iff.1 hg
    rcases List.mem_cons.1 h with h | h
    · cases h
      simp [rowsOf?, Std.ReflCmp.compare_self]
    · have hgt := Std.OrientedCmp.gt_of_lt (hless k (List.mem_map_of_mem h))
      simp only [rowsOf?, hgt, ih hrest h]

section

variable (hkind : TransitiveOn Key.order kind)

include hkind

theorem Sorted.add (hg : Sorted kind g) (hkey : kind key) : Sorted kind (add key row g) := by
  induction g with
  | nil => exact ⟨List.pairwise_singleton .., List.forall_mem_singleton.2 hkey⟩
  | cons x rest ih =>
    obtain ⟨k, members⟩ := x
    obtain ⟨hless, hk, hrest⟩ := sorted_cons_iff.1 hg
    rw [add_cons]
    split
    · next hkeyk =>
      refine sorted_cons_iff.2 ⟨List.forall_mem_cons.2 ⟨hkeyk, fun k' hk' ↦ ?_⟩, hkey, hg⟩
      exact hkind.lt_trans hkey hk (hrest.kind_of_mem k' hk') hkeyk (hless k' hk')
    · exact sorted_cons_iff.2 ⟨hless, hk, hrest⟩
    · next hkeyk =>
      refine sorted_cons_iff.2 ⟨fun k' hk' ↦ ?_, hk, ih hrest⟩
      obtain ⟨x, hx, rfl⟩ := List.mem_map.1 hk'
      exact forall_mem_add (Q := fun x ↦ Key.order k x.1 = .lt)
        (fun x hx ↦ hless _ (List.mem_map_of_mem hx)) (Std.OrientedCmp.gt_iff_lt.1 hkeyk)
        (fun _ _ _ hx ↦ hx) x hx

/-- **Adding a row** adds it to the rows of the keys that compare as equal to its own. -/
theorem Sorted.rowsOf?_add (hg : Sorted kind g) (hkey : kind key) {other : Key}
    (hother : kind other) :
    rowsOf? other (Grouping.add key row g) =
      if Key.order other key = .eq then some ((rowsOf? other g).getD [] ++ [row])
      else rowsOf? other g := by
  induction g with
  | nil =>
    rw [add_nil]
    cases hok : Key.order other key <;> simp [rowsOf?, hok]
  | cons x rest ih =>
    obtain ⟨k, members⟩ := x
    obtain ⟨-, hk, hrest⟩ := sorted_cons_iff.1 hg
    rw [add_cons]
    cases hkeyk : Key.order key k with
    | lt =>
      have hless (h : Key.order other key = .lt) : Key.order other k = .lt :=
        hkind.lt_trans hother hkey hk h hkeyk
      cases hok : Key.order other key with
      | lt => simp [rowsOf?, hok, hless hok]
      | eq => simp [rowsOf?, hok, (hkind.congr_left hother hkey hk hok).trans hkeyk]
      | gt => simp [rowsOf?, hok]
    | eq =>
      have hsame : Key.order other key = Key.order other k :=
        hkind.congr_right hother hkey hk hkeyk
      cases hok : Key.order other k with
      | lt | eq | gt => simp [rowsOf?, hok, hsame]
    | gt =>
      -- a key that is not greater than `k` is smaller than the key that is added
      have hmore : Key.order k key = .lt := Std.OrientedCmp.gt_iff_lt.1 hkeyk
      cases hok : Key.order other k with
      | lt => simp [rowsOf?, hok, hkind.lt_trans hother hk hkey hok hmore]
      | eq => simp [rowsOf?, hok, (hkind.congr_left hother hk hkey hok).trans hmore]
      | gt => simp only [rowsOf?, hok, ih hrest]

variable (hkeys : ∀ row ∈ rows, ∀ key, keyOf row = some key → kind key)

include hkeys

/-- **The groups are sorted.** -/
theorem sorted_ofRows : Sorted kind (ofRows keyOf rows) := by
  induction rows using List.reverseRecOn with
  | nil => exact ⟨.nil, fun k hk ↦ nomatch hk⟩
  | append_singleton rows row ih =>
    simp only [List.forall_mem_append, List.forall_mem_singleton] at hkeys
    rw [ofRows_append_singleton]
    cases hkey : keyOf row with
    | none => exact ih hkeys.1
    | some key => exact (ih hkeys.1).add hkind (hkeys.2 key hkey)

/-- **Looking up a key** finds the rows whose keys compare as equal to it. -/
theorem rowsOf?_ofRows (hkey : kind key) :
    rowsOf? key (ofRows keyOf rows) =
      if rowsWith keyOf key rows = [] then none else some (rowsWith keyOf key rows) := by
  induction rows using List.reverseRecOn with
  | nil => rfl
  | append_singleton rows row ih =>
    have hall := hkeys
    simp only [List.forall_mem_append, List.forall_mem_singleton] at hkeys
    specialize ih hkeys.1
    rw [ofRows_append_singleton, rowsWith_append_singleton]
    cases hk : keyOf row with
    | none => simpa using ih
    | some k =>
      have hsorted := sorted_ofRows hkind hkeys.1
      rw [hsorted.rowsOf?_add hkind (hkeys.2 k hk) hkey, ih]
      simp only [Option.any_some, beq_iff_eq]
      split
      · split <;> simp_all
      · rfl

/-- **What a grouping is**: every key with the rows whose keys compare as equal to it. -/
theorem ofRows_eq_map :
    ofRows keyOf rows = (ofRows keyOf rows).keys.map fun k ↦ (k, rowsWith keyOf k rows) := by
  have hsorted := sorted_ofRows hkind hkeys
  rw [keys, List.map_map]
  refine (List.map_id _).symm.trans (List.map_congr_left fun x hx ↦ ?_)
  obtain ⟨k, members⟩ := x
  have hfound := hsorted.rowsOf?_of_mem hx
  rw [rowsOf?_ofRows hkind hkeys (hsorted.kind_of_mem k (List.mem_map_of_mem hx))] at hfound
  split at hfound
  · cases hfound
  · exact Prod.ext rfl (Option.some.inj hfound).symm

/-- Every row with a key has one that compares as equal among the groups. -/
theorem exists_mem_keys (hrow : row ∈ rows) (hkey : keyOf row = some key) :
    ∃ k ∈ (ofRows keyOf rows).keys, Key.order key k = .eq := by
  have hmem : row ∈ rowsWith keyOf key rows :=
    mem_rowsWith_iff.2 ⟨hrow, key, hkey, Std.ReflCmp.compare_self⟩
  have hfound := rowsOf?_ofRows hkind hkeys (hkeys row hrow key hkey)
  rw [if_neg (List.ne_nil_of_mem hmem)] at hfound
  obtain ⟨k, hk, heq⟩ := mem_of_rowsOf? hfound
  exact ⟨k, List.mem_map_of_mem hk, heq⟩

end

end ChartFeed.Grouping
