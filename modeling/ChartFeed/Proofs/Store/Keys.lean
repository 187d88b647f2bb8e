import Mathlib.Data.List.Lattice
import Mathlib.Data.List.Pairwise
import ChartFeed.Proofs.Store.Rows
import ChartFeed.Store.Basic

/-!
# Keys that no two rows share

A store refuses to commit rows of which two have the same key.  It walks the keys of all rows in the
order of their numbers and stops at the first that it has met before.

* `FirstRepeated` — the first item of a list that comes a second time, `repeatedKey?_eq_some_iff`
  says that this is what the walk finds;
* `KeysApart` — no key is named twice, by two rows or by one, and `keysApart_iff_of_nodup` when one
  row never does that by itself;
* `FirstShared` — the first key that is named twice when rows are listed by their numbers;
* `sharedKey?_eq_none_iff`, `sharedKey?_eq_some_iff` — what the check of a commit says about the
  map of the rows.
-/

set_option autoImplicit false

namespace ChartFeed

/-! ## The first repeated item -/

/-- The list has this item a second time, and none before that. -/
def FirstRepeated {κ : Type} (items : List κ) (item : κ) : Prop :=
  ∃ before after, items = before ++ item :: after ∧ item ∈ before ∧ before.Nodup

variable {seen keys : List (String × String)} {key key' : String × String}

theorem repeatedKey?_cons (seen rest : List (String × String)) (key : String × String) :
    repeatedKey? seen (key :: rest) =
      if key ∈ seen then some key else repeatedKey? (key :: seen) rest := rfl

theorem repeatedKey?_eq_some_iff_of_seen :
    repeatedKey? seen keys = some key ↔
      ∃ before after, keys = before ++ key :: after ∧ (key ∈ seen ∨ key ∈ before) ∧
        before.Nodup ∧ ∀ k ∈ before, k ∉ seen := by
  induction keys generalizing seen with
  | nil => simp [repeatedKey?]
  | cons first rest ih =>
    rw [repeatedKey?_cons]
    by_cases hfirst : first ∈ seen
    · rw [if_pos hfirst, Option.some.injEq]
      constructor
      · rintro rfl
        exact ⟨[], rest, rfl, .inl hfirst, .nil, by simp⟩
      · rintro ⟨_ | ⟨k, before⟩, after, hkeys, -, -, hfresh⟩
        · exact (List.cons.inj hkeys).1
        · have hk : first = k := (List.cons.inj hkeys).1
          exact absurd hfirst (hk ▸ hfresh k List.mem_cons_self)
    · rw [if_neg hfirst, ih]
      constructor
      · rintro ⟨before, after, rfl, hkey, hnodup, hfresh⟩
        refine ⟨first :: before, after, rfl, ?_, ?_, ?_⟩
        · simpa [or_comm, or_left_comm, or_assoc] using hkey
        · refine List.nodup_cons.2 ⟨fun hmem ↦ hfresh first hmem List.mem_cons_self, hnodup⟩
        · intro k hk
          rcases List.mem_cons.1 hk with rfl | hk
          · exact hfirst
          · exact fun hseen ↦ hfresh k hk (List.mem_cons_of_mem _ hseen)
      · rintro ⟨_ | ⟨k, before⟩, after, hkeys, hkey, hnodup, hfresh⟩
        · -- the list would begin with an item that was seen
          have hseen : key ∈ seen := by simpa using hkey
          exact absurd hseen ((List.cons.inj hkeys).1 ▸ hfirst)
        · obtain ⟨rfl, rfl⟩ := List.cons.inj hkeys
          obtain ⟨hk, hnodup⟩ := List.nodup_cons.1 hnodup
          refine ⟨before, after, rfl, ?_, hnodup, fun x hx hmem ↦ ?_⟩
          · simpa [or_comm, or_left_comm, or_assoc] using hkey
          · rcases List.mem_cons.1 hmem with rfl | hseen
            · exact hk hx
            · exact hfresh x (List.mem_cons_of_mem _ hx) hseen

theorem repeatedKey?_eq_some_iff : repeatedKey? [] keys = some key ↔ FirstRepeated keys key := by
  rw [repeatedKey?_eq_some_iff_of_seen]
  simp [FirstRepeated]

theorem repeatedKey?_eq_none_iff_of_seen :
    repeatedKey? seen keys = none ↔ keys.Nodup ∧ ∀ k ∈ keys, k ∉ seen := by
  induction keys generalizing seen with
  | nil => simp [repeatedKey?]
  | cons first rest ih =>
    rw [repeatedKey?_cons]
    by_cases hfirst : first ∈ seen
    · simp [hfirst]
    · rw [if_neg hfirst, ih, List.nodup_cons, List.forall_mem_cons]
      constructor
      · rintro ⟨hnodup, hfresh⟩
        refine ⟨⟨fun hmem ↦ hfresh first hmem List.mem_cons_self, hnodup⟩, hfirst, fun k hk ↦ ?_⟩
        exact fun hseen ↦ hfresh k hk (List.mem_cons_of_mem _ hseen)
      · rintro ⟨⟨hmem, hnodup⟩, -, hfresh⟩
        refine ⟨hnodup, fun k hk hseen ↦ ?_⟩
        rcases List.mem_cons.1 hseen with rfl | hseen
        · exact hmem hk
        · exact hfresh k hk hseen

theorem repeatedKey?_eq_none_iff : repeatedKey? [] keys = none ↔ keys.Nodup := by
  simp [repeatedKey?_eq_none_iff_of_seen]

theorem FirstRepeated.unique (h : FirstRepeated keys key) (h' : FirstRepeated keys key') :
    key = key' :=
  Option.some.inj ((repeatedKey?_eq_some_iff.2 h).symm.trans (repeatedKey?_eq_some_iff.2 h'))

/-! ## Keys of rows -/

variable {α : Type} [Model α]

/-- No key is named twice. -/
structure KeysApart (rows : Int → Option α) : Prop where
  /-- One value names its keys once. -/
  within : ∀ {i m}, rows i = some m → (Model.uniqueKeys m).Nodup
  /-- Two values have no key in common. -/
  between : ∀ {i j m n}, i ≠ j → rows i = some m → rows j = some n →
    List.Disjoint (Model.uniqueKeys m) (Model.uniqueKeys n)

/-- When no value names a key twice, keys are apart if no two rows share one. -/
theorem keysApart_iff_of_nodup (h : ∀ m : α, (Model.uniqueKeys m).Nodup)
    {rows : Int → Option α} :
    KeysApart rows ↔ ∀ i j m n, i ≠ j → rows i = some m → rows j = some n →
      List.Disjoint (Model.uniqueKeys m) (Model.uniqueKeys n) :=
  ⟨fun hkeys _ _ _ _ ↦ hkeys.between, fun hkeys ↦ ⟨fun _ ↦ h _, hkeys _ _ _ _⟩⟩

/-- The keys of rows that are listed, in their order. -/
def keysOf (entries : List (Int × α)) : List (String × String) :=
  entries.flatMap fun e ↦ Model.uniqueKeys e.2

/-- Going through the rows by their numbers, this is the first key that was named before. -/
def FirstShared (rows : Int → Option α) (key : String × String) : Prop :=
  ∃ entries, Rows.Lists rows entries ∧ FirstRepeated (keysOf entries) key

theorem FirstShared.unique {rows : Int → Option α} (h : FirstShared rows key)
    (h' : FirstShared rows key') : key = key' := by
  obtain ⟨l, hl, hkey⟩ := h
  obtain ⟨l', hl', hkey'⟩ := h'
  cases hl.unique hl'
  exact hkey.unique hkey'

theorem keysApart_iff_nodup {rows : Int → Option α} {entries : List (Int × α)}
    (h : Rows.Lists rows entries) : KeysApart rows ↔ (keysOf entries).Nodup := by
  rw [keysOf, List.nodup_flatMap]
  constructor
  · intro hkeys
    refine ⟨fun e he ↦ hkeys.within ((h.mem_iff e.1 e.2).1 he), ?_⟩
    refine h.ascending.imp_of_mem fun {a b} ha hb hlt ↦ ?_
    exact hkeys.between (Int.ne_of_lt hlt) ((h.mem_iff a.1 a.2).1 ha) ((h.mem_iff b.1 b.2).1 hb)
  · rintro ⟨hwithin, hbetween⟩
    refine ⟨fun {i m} hm ↦ hwithin (i, m) ((h.mem_iff i m).2 hm), fun {i j m n} hij hm hn ↦ ?_⟩
    have hsymm :
        Std.Symm (Function.onFun List.Disjoint fun e : Int × α ↦ Model.uniqueKeys e.2) :=
      ⟨fun _ _ hab ↦ List.Disjoint.symm hab⟩
    exact hbetween.forall ((h.mem_iff i m).2 hm) ((h.mem_iff j n).2 hn)
      fun e ↦ hij (congrArg Prod.fst e)

theorem FirstShared.not_keysApart {rows : Int → Option α} (h : FirstShared rows key) :
    ¬ KeysApart rows := by
  obtain ⟨entries, hentries, before, after, hkeys, hmem, -⟩ := h
  rw [keysApart_iff_nodup hentries, hkeys]
  exact fun hnodup ↦ (List.nodup_append.1 hnodup).2.2 key hmem key List.mem_cons_self rfl

namespace Store

theorem sharedKey?_eq (rows : Rows α) :
    sharedKey? rows = repeatedKey? [] (keysOf rows.entries) := by
  rw [sharedKey?, Rows.values, keysOf, List.flatMap_map]

/-- The check finds nothing exactly when no key is named twice. -/
theorem sharedKey?_eq_none_iff {rows : Rows α} : sharedKey? rows = none ↔ KeysApart rows.get? := by
  rw [sharedKey?_eq, repeatedKey?_eq_none_iff, keysApart_iff_nodup (Rows.lists_entries rows)]

theorem sharedKey?_eq_some_iff {rows : Rows α} :
    sharedKey? rows = some key ↔ FirstShared rows.get? key := by
  rw [sharedKey?_eq, repeatedKey?_eq_some_iff]
  constructor
  · exact fun h ↦ ⟨rows.entries, Rows.lists_entries rows, h⟩
  · rintro ⟨entries, hentries, h⟩
    rwa [hentries.unique (Rows.lists_entries rows)] at h

end Store

end ChartFeed
