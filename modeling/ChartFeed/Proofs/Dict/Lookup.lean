import Mathlib.Data.List.Nodup
import ChartFeed.Json.Canonical

/-!
# Looking up keys in dictionaries

A dictionary is a list of entries, and what matters about it is mostly which value `Dict.get?`
finds under a key.  This file says what each operation does to that view.

* `get?_insert`, `get?_append`, `get?_insertAll` — the view after setting keys;
* `get?_perm` — when keys are distinct the view does not depend on the order of the entries, and
  `perm_of_get?` is the converse; `eq_of_keys_of_get?` when the order is the same too;
* `mapValues_insertAll` — setting keys commutes with a function of the values;
* `Related` — two dictionaries have the same keys, in whatever order, with related values;
* `sortKeys_eq_iff_perm` — two dictionaries with distinct keys sort to the same list exactly when
  one is a rearrangement of the other.
-/

set_option autoImplicit false

namespace ChartFeed.Dict

variable {α β α' β' : Type}

/-! ## One key -/

@[simp] theorem get?_nil (key : String) : get? ([] : Dict α) key = none := rfl

theorem get?_cons (k key : String) (v : α) (rest : Dict α) :
    get? ((k, v) :: rest) key = if k = key then some v else get? rest key := rfl

theorem get?_eq_none_iff {d : Dict α} {key : String} : get? d key = none ↔ key ∉ keys d := by
  induction d with
  | nil => simp [keys]
  | cons entry rest ih =>
    obtain ⟨k, v⟩ := entry
    simp only [keys] at ih
    by_cases h : k = key
    · simp [get?_cons, keys, h]
    · have h' : key ≠ k := fun e ↦ h e.symm
      simp [get?_cons, keys, h, h', ih]

theorem mem_of_get? {d : Dict α} {key : String} {v : α} (h : get? d key = some v) :
    (key, v) ∈ d := by
  induction d with
  | nil => simp at h
  | cons entry rest ih =>
    obtain ⟨k, w⟩ := entry
    rw [get?_cons] at h
    split at h
    · next e => subst e; cases h; simp
    · exact List.mem_cons_of_mem _ (ih h)

theorem mem_keys_of_mem {d : Dict α} {key : String} {v : α} (h : (key, v) ∈ d) : key ∈ keys d :=
  List.mem_map.2 ⟨(key, v), h, rfl⟩

theorem get?_of_mem {d : Dict α} {key : String} {v : α} (hd : (keys d).Nodup)
    (h : (key, v) ∈ d) : get? d key = some v := by
  induction d with
  | nil => simp at h
  | cons entry rest ih =>
    obtain ⟨k, w⟩ := entry
    have hk : k ∉ keys rest ∧ (keys rest).Nodup := by simpa [keys] using hd
    rw [get?_cons]
    rcases List.mem_cons.1 h with e | hmem
    · cases e; simp
    · have hne : k ≠ key := fun e ↦ hk.1 (e ▸ mem_keys_of_mem hmem)
      rw [if_neg hne]
      exact ih hk.2 hmem

theorem get?_eq_some_iff {d : Dict α} {key : String} {v : α} (hd : (keys d).Nodup) :
    get? d key = some v ↔ (key, v) ∈ d :=
  ⟨mem_of_get?, get?_of_mem hd⟩

/-! ## Setting and leaving out keys -/

theorem get?_insert (d : Dict α) (k key : String) (v : α) :
    get? (insert d k v) key = if k = key then some v else get? d key := by
  induction d with
  | nil => simp [insert, get?_cons]
  | cons entry rest ih =>
    obtain ⟨l, w⟩ := entry
    by_cases h : l = k
    · subst h
      by_cases hk : l = key <;> simp [insert, get?_cons, hk]
    · rw [insert, if_neg h, get?_cons, get?_cons, ih]
      by_cases hl : l = key
      · have hk : k ≠ key := fun e ↦ h (hl.trans e.symm)
        simp [hl, hk]
      · simp [hl]

@[simp] theorem get?_insert_self (d : Dict α) (key : String) (v : α) :
    get? (insert d key v) key = some v := by
  rw [get?_insert, if_pos rfl]

theorem get?_insert_of_ne {d : Dict α} {k key : String} {v : α} (h : k ≠ key) :
    get? (insert d k v) key = get? d key := by
  rw [get?_insert, if_neg h]

theorem get?_append (d e : Dict α) (key : String) :
    get? (d ++ e) key = (get? d key).or (get? e key) := by
  induction d with
  | nil => simp
  | cons entry rest ih =>
    obtain ⟨k, v⟩ := entry
    rw [List.cons_append, get?_cons, get?_cons, ih]
    split <;> simp

theorem keys_append (d e : Dict α) : keys (d ++ e) = keys d ++ keys e := List.map_append

theorem insertAll_nil (d : Dict α) : insertAll d [] = d := rfl

theorem insertAll_cons (d rest : Dict α) (entry : String × α) :
    insertAll d (entry :: rest) = insertAll (insert d entry.1 entry.2) rest := rfl

theorem insertAll_append (d e f : Dict α) :
    insertAll d (e ++ f) = insertAll (insertAll d e) f := by
  simp [insertAll, List.foldl_append]

/-- Keys that are not set keep what they had. -/
theorem get?_insertAll_of_notMem {d new : Dict α} {key : String} (h : key ∉ keys new) :
    get? (insertAll d new) key = get? d key := by
  induction new generalizing d with
  | nil => rfl
  | cons entry rest ih =>
    have hk : key ≠ entry.1 ∧ key ∉ keys rest := by simpa [keys] using h
    rw [insertAll_cons, ih hk.2, get?_insert_of_ne (Ne.symm hk.1)]

/-- Of distinct keys that are set, each has the value it was set to. -/
theorem get?_insertAll {d new : Dict α} (hn : (keys new).Nodup) (key : String) :
    get? (insertAll d new) key = (get? new key).or (get? d key) := by
  induction new generalizing d with
  | nil => rfl
  | cons entry rest ih =>
    obtain ⟨k, v⟩ := entry
    have hk : k ∉ keys rest ∧ (keys rest).Nodup := by simpa [keys] using hn
    rw [insertAll_cons, ih hk.2, get?_insert, get?_cons]
    by_cases h : k = key
    · subst h; simp [get?_eq_none_iff.2 hk.1]
    · simp [h]

theorem insert_of_notMem {d : Dict α} {key : String} (h : key ∉ keys d) (v : α) :
    insert d key v = d ++ [(key, v)] := by
  induction d with
  | nil => rfl
  | cons entry rest ih =>
    have hk : key ≠ entry.1 ∧ key ∉ keys rest := by simpa [keys] using h
    rw [insert, if_neg (Ne.symm hk.1), ih hk.2, List.cons_append]

/-- Setting new and distinct keys appends them. -/
theorem insertAll_of_disjoint {d new : Dict α} (hn : (keys new).Nodup)
    (h : ∀ key ∈ keys new, key ∉ keys d) : insertAll d new = d ++ new := by
  induction new generalizing d with
  | nil => simp [insertAll_nil]
  | cons entry rest ih =>
    have hk : entry.1 ∉ keys rest ∧ (keys rest).Nodup := by simpa [keys] using hn
    have hd : entry.1 ∉ keys d := h entry.1 (by simp [keys])
    rw [insertAll_cons, insert_of_notMem hd, ih hk.2]
    · simp
    · intro key hmem
      have hne : key ≠ entry.1 := fun e ↦ hk.1 (e ▸ hmem)
      have hold : key ∉ keys d := h key (by simpa [keys] using Or.inr hmem)
      simpa [keys] using ⟨by simpa [keys] using hold, hne⟩

/-- Entries whose keys are distinct are read as they are. -/
theorem ofEntries_eq_self {d : Dict α} (hd : (keys d).Nodup) : ofEntries d = d := by
  rw [ofEntries, insertAll_of_disjoint hd (by simp [keys]), List.nil_append]

theorem mem_of_mem_insert {d : Dict α} {k : String} {v : α} {entry : String × α}
    (h : entry ∈ insert d k v) : entry ∈ d ∨ entry = (k, v) := by
  induction d with
  | nil => exact .inr (List.mem_singleton.1 h)
  | cons first rest ih =>
    rw [insert] at h
    split at h
    · next hk =>
      subst hk
      exact (List.mem_cons.1 h).elim .inr fun h ↦ .inl (List.mem_cons_of_mem _ h)
    · rcases List.mem_cons.1 h with rfl | h
      · exact .inl (List.mem_cons_self ..)
      · exact (ih h).imp_left (List.mem_cons_of_mem _)

/-- Setting keys brings in no other entries. -/
theorem mem_of_mem_insertAll {d new : Dict α} {entry : String × α}
    (h : entry ∈ insertAll d new) : entry ∈ d ∨ entry ∈ new := by
  induction new generalizing d with
  | nil => exact .inl h
  | cons first rest ih =>
    rcases ih h with h | h
    · rcases mem_of_mem_insert h with h | rfl
      · exact .inl h
      · exact .inr (List.mem_cons_self ..)
    · exact .inr (List.mem_cons_of_mem _ h)

/-- Entries may be left out by their keys. -/
theorem get?_filter (d : Dict α) (p : String → Bool) (key : String) :
    get? (d.filter fun entry ↦ p entry.1) key = if p key then get? d key else none := by
  induction d with
  | nil => simp
  | cons entry rest ih =>
    obtain ⟨k, v⟩ := entry
    rw [List.filter_cons]
    by_cases hk : k = key
    · subst hk
      cases hp : p k <;> simp [hp, ih, get?_cons]
    · cases hp : p k <;> simp [ih, get?_cons, hk]

/-- Setting a key that is left out anyway changes nothing. -/
theorem filter_insert {p : String → Bool} {key : String} (hp : p key = false) (d : Dict α)
    (v : α) :
    ((insert d key v).filter fun entry ↦ p entry.1) = d.filter fun entry ↦ p entry.1 := by
  induction d with
  | nil => simp [insert, hp]
  | cons entry rest ih =>
    obtain ⟨k, w⟩ := entry
    rw [insert]
    split
    · next hk => simp [hk, hp]
    · rw [List.filter_cons, List.filter_cons, ih]

/-! ## Functions of the values -/

@[simp] theorem keys_mapValues (f : α → β) (d : Dict α) : keys (mapValues f d) = keys d := by
  simp [keys, mapValues]

theorem get?_mapValues (f : α → β) (d : Dict α) (key : String) :
    get? (mapValues f d) key = (get? d key).map f := by
  induction d with
  | nil => rfl
  | cons entry rest ih =>
    obtain ⟨k, v⟩ := entry
    have ih' : get? (List.map (fun e ↦ (e.1, f e.2)) rest) key = (get? rest key).map f := ih
    rw [mapValues, List.map_cons, get?_cons, get?_cons, ih']
    split <;> rfl

theorem mapValues_insert (f : α → β) (d : Dict α) (key : String) (v : α) :
    mapValues f (insert d key v) = insert (mapValues f d) key (f v) := by
  induction d with
  | nil => rfl
  | cons entry rest ih =>
    obtain ⟨k, w⟩ := entry
    simp only [mapValues] at ih
    by_cases h : k = key <;> simp [mapValues, insert, h, ih]

theorem mapValues_insertAll (f : α → β) (d new : Dict α) :
    mapValues f (insertAll d new) = insertAll (mapValues f d) (mapValues f new) := by
  induction new generalizing d with
  | nil => rfl
  | cons entry rest ih =>
    rw [insertAll_cons, ih, mapValues_insert]
    rfl

theorem mapValues_append (f : α → β) (d e : Dict α) :
    mapValues f (d ++ e) = mapValues f d ++ mapValues f e := by
  simp [mapValues]

/-! ## The order of the entries -/

/-- When keys are distinct, the value under a key does not depend on the order of the entries. -/
theorem get?_perm {d e : Dict α} (hd : (keys d).Nodup) (h : d.Perm e) (key : String) :
    get? d key = get? e key := by
  have he : (keys e).Nodup := (h.map Prod.fst).nodup_iff.1 hd
  refine Option.ext fun v ↦ ?_
  rw [get?_eq_some_iff hd, get?_eq_some_iff he, h.mem_iff]

theorem nodup_of_nodup_keys {d : Dict α} (hd : (keys d).Nodup) : d.Nodup :=
  List.Nodup.of_map _ hd

/-- Dictionaries with distinct keys and the same view are rearrangements of each other. -/
theorem perm_of_get? {d e : Dict α} (hd : (keys d).Nodup) (he : (keys e).Nodup)
    (h : ∀ key, get? d key = get? e key) : d.Perm e := by
  rw [List.perm_ext_iff_of_nodup (nodup_of_nodup_keys hd) (nodup_of_nodup_keys he)]
  rintro ⟨key, v⟩
  rw [← get?_eq_some_iff hd, ← get?_eq_some_iff he, h key]

/-- Dictionaries with the same distinct keys and the same view are the same. -/
theorem eq_of_keys_of_get? {d e : Dict α} (hd : (keys d).Nodup) (hkeys : keys d = keys e)
    (h : ∀ key ∈ keys d, get? d key = get? e key) : d = e := by
  induction d generalizing e with
  | nil =>
    cases e with
    | nil => rfl
    | cons entry rest => cases hkeys
  | cons entry rest ih =>
    obtain ⟨k, v⟩ := entry
    cases e with
    | nil => cases hkeys
    | cons entry' rest' =>
      obtain ⟨k', v'⟩ := entry'
      have hk : k = k' ∧ keys rest = keys rest' := by simpa [keys] using hkeys
      have hnodup : k ∉ keys rest ∧ (keys rest).Nodup := by simpa [keys] using hd
      obtain ⟨rfl, hrest⟩ := hk
      have hv : v = v' := by simpa [get?_cons] using h k (by simp [keys])
      rw [hv, ih hnodup.2 hrest fun key hkey ↦ ?_]
      have hne : k ≠ key := fun e ↦ hnodup.1 (e ▸ hkey)
      simpa [get?_cons, hne] using h key (List.mem_cons_of_mem _ hkey)

/-- A key can be set before or after others. -/
theorem insertAll_insert_perm {d new : Dict α} {k : String} (v : α) (hd : (keys d).Nodup)
    (hn : (keys new).Nodup) (hk : k ∉ keys new) :
    (insertAll (insert d k v) new).Perm (insert (insertAll d new) k v) := by
  refine perm_of_get? (nodup_keys_insertAll new (nodup_keys_insert k v hd))
    (nodup_keys_insert k v (nodup_keys_insertAll new hd)) fun key ↦ ?_
  rw [get?_insertAll hn, get?_insert, get?_insert, get?_insertAll hn]
  by_cases hkey : k = key
  · rw [if_pos hkey, if_pos hkey, ← hkey, get?_eq_none_iff.2 hk, Option.none_or]
  · rw [if_neg hkey, if_neg hkey]

/-! ## Related values -/

/-- Under this key there is nothing in either, or there are related values. -/
def RelatedAt (R : α → β → Prop) (d : Dict α) (e : Dict β) (key : String) : Prop :=
  (get? d key = none ∧ get? e key = none) ∨
    ∃ a b, get? d key = some a ∧ get? e key = some b ∧ R a b

/-- Under every key there is nothing in either, or there are related values. -/
def Related (R : α → β → Prop) (d : Dict α) (e : Dict β) : Prop := ∀ key, RelatedAt R d e key

theorem relatedAt_of_rel {R : α → β → Prop} {d : Dict α} {e : Dict β} {key : String}
    (h : Option.Rel R (get? d key) (get? e key)) : RelatedAt R d e key := by
  generalize hd : get? d key = a at h
  generalize he : get? e key = b at h
  cases h with
  | none => exact .inl ⟨hd, he⟩
  | some hab => exact .inr ⟨_, _, hd, he, hab⟩

theorem RelatedAt.cons {R : α → β → Prop} {d : Dict α} {e : Dict β} {key : String}
    (h : RelatedAt R d e key) (k : String) {a : α} {b : β} (hab : R a b) :
    RelatedAt R ((k, a) :: d) ((k, b) :: e) key := by
  rw [RelatedAt, get?_cons, get?_cons]
  split
  · exact .inr ⟨a, b, rfl, rfl, hab⟩
  · exact h

theorem Related.cons {R : α → β → Prop} {d : Dict α} {e : Dict β} (k : String) {a : α} {b : β}
    (hab : R a b) (h : Related R d e) : Related R ((k, a) :: d) ((k, b) :: e) :=
  fun key ↦ (h key).cons k hab

/-- Being related does not depend on the order of the entries. -/
theorem Related.of_perm {R : α → β → Prop} {d : Dict α} {e e' : Dict β} (he : (keys e).Nodup)
    (h : Related R d e) (hperm : e.Perm e') : Related R d e' := by
  intro key
  rw [RelatedAt, ← get?_perm he hperm]
  exact h key

/-- Entries with one key that no later entry has can be left off. -/
theorem Related.tail {R : α → β → Prop} {d : Dict α} {e : Dict β} {key : String} {a : α} {b : β}
    (hd : key ∉ keys d) (he : key ∉ keys e) (h : Related R ((key, a) :: d) ((key, b) :: e)) :
    Related R d e := by
  intro k
  by_cases hk : key = k
  · subst hk
    exact .inl ⟨get?_eq_none_iff.2 hd, get?_eq_none_iff.2 he⟩
  · simpa only [RelatedAt, get?_cons, if_neg hk] using h k

/-- Dictionaries that are related to related ones are related. -/
theorem Related.square {R : α → β → Prop} {S : α → α' → Prop} {T : β → β' → Prop}
    {Q : α' → β' → Prop} {d : Dict α} {e : Dict β} {d' : Dict α'} {e' : Dict β'}
    (h : Related R d e) (hd : Related S d d') (he : Related T e e')
    (hQ : ∀ {a b a' b'}, R a b → S a a' → T b b' → Q a' b') : Related Q d' e' := by
  intro key
  rcases h key with ⟨hdk, hek⟩ | ⟨a, b, hdk, hek, hab⟩
  · rcases hd key with ⟨-, hdk'⟩ | ⟨a, _, ha, -⟩
    · rcases he key with ⟨-, hek'⟩ | ⟨b, _, hb, -⟩
      · exact .inl ⟨hdk', hek'⟩
      · cases hek.symm.trans hb
    · cases hdk.symm.trans ha
  · rcases hd key with ⟨ha, -⟩ | ⟨a₁, a', ha, ha', haa⟩
    · cases hdk.symm.trans ha
    · rcases he key with ⟨hb, -⟩ | ⟨b₁, b', hb, hb', hbb⟩
      · cases hek.symm.trans hb
      · cases hdk.symm.trans ha
        cases hek.symm.trans hb
        exact .inr ⟨a', b', ha', hb', hQ hab haa hbb⟩

theorem Related.mem_keys_iff {R : α → β → Prop} {d : Dict α} {e : Dict β} (h : Related R d e)
    (key : String) : key ∈ keys d ↔ key ∈ keys e := by
  rw [← not_iff_not, ← get?_eq_none_iff, ← get?_eq_none_iff]
  rcases h key with ⟨hd, he⟩ | ⟨a, b, hd, he, -⟩ <;> simp [hd, he]

theorem Related.perm {d e : Dict α} (hd : (keys d).Nodup) (he : (keys e).Nodup)
    (h : Related Eq d e) : d.Perm e := by
  refine perm_of_get? hd he fun key ↦ ?_
  rcases h key with ⟨hdk, hek⟩ | ⟨a, b, hdk, hek, hab⟩
  · rw [hdk, hek]
  · rw [hdk, hek, hab]

/-! ## Sorting -/

theorem perm_insertSorted (entry : String × α) (d : Dict α) :
    (insertSorted entry d).Perm (entry :: d) := by
  induction d with
  | nil => exact List.Perm.refl _
  | cons other rest ih =>
    rw [insertSorted]
    split
    · exact List.Perm.refl _
    · exact (ih.cons other).trans (List.Perm.swap entry other rest)

theorem perm_sortKeys (d : Dict α) : (sortKeys d).Perm d := by
  induction d with
  | nil => exact List.Perm.refl _
  | cons entry rest ih => exact (perm_insertSorted entry (sortKeys rest)).trans (ih.cons entry)

/-- The keys ascend. -/
def Ascending (d : Dict α) : Prop := d.Pairwise fun a b ↦ a.1 ≤ b.1

theorem ascending_insertSorted {entry : String × α} {d : Dict α} (h : Ascending d) :
    Ascending (insertSorted entry d) := by
  induction d with
  | nil => simp [Ascending, insertSorted]
  | cons other rest ih =>
    obtain ⟨hother, hrest⟩ := List.pairwise_cons.1 h
    rw [insertSorted]
    split
    · next hle =>
      refine List.pairwise_cons.2 ⟨fun b hb ↦ ?_, h⟩
      rcases List.mem_cons.1 hb with rfl | hb
      · exact hle
      · exact String.le_trans hle (hother b hb)
    · next hle =>
      refine List.pairwise_cons.2 ⟨fun b hb ↦ ?_, ih hrest⟩
      rcases List.mem_cons.1 ((perm_insertSorted entry rest).mem_iff.1 hb) with rfl | hb
      · exact (String.le_total other.1 b.1).resolve_right hle
      · exact hother b hb

theorem ascending_sortKeys (d : Dict α) : Ascending (sortKeys d) := by
  induction d with
  | nil => exact List.Pairwise.nil
  | cons entry rest ih => exact ascending_insertSorted ih

/-- An ascending rearrangement of distinct keys is unique. -/
theorem Ascending.eq_of_perm {d e : Dict α} (hd : Ascending d) (he : Ascending e)
    (hk : (keys d).Nodup) (h : d.Perm e) : d = e := by
  refine h.eq_of_pairwise (fun a b ha hb hab hba ↦ ?_) hd he
  have hkey : a.1 = b.1 := String.le_antisymm hab hba
  have hva : get? d a.1 = some a.2 := get?_of_mem hk ha
  have hvb : get? d b.1 = some b.2 := get?_of_mem hk (h.mem_iff.2 hb)
  rw [hkey, hvb] at hva
  exact Prod.ext hkey (Option.some.inj hva).symm

theorem nodup_keys_sortKeys {d : Dict α} (hd : (keys d).Nodup) : (keys (sortKeys d)).Nodup :=
  ((perm_sortKeys d).map Prod.fst).nodup_iff.2 hd

/-- **Sorting forgets the order of the entries and nothing else.** -/
theorem sortKeys_eq_iff_perm {d e : Dict α} (hd : (keys d).Nodup) :
    sortKeys d = sortKeys e ↔ d.Perm e := by
  constructor
  · intro h
    exact (perm_sortKeys d).symm.trans (h ▸ perm_sortKeys e)
  · intro h
    exact (ascending_sortKeys d).eq_of_perm (ascending_sortKeys e) (nodup_keys_sortKeys hd)
      ((perm_sortKeys d).trans (h.trans (perm_sortKeys e).symm))

theorem get?_sortKeys {d : Dict α} (hd : (keys d).Nodup) (key : String) :
    get? (sortKeys d) key = get? d key :=
  get?_perm (nodup_keys_sortKeys hd) (perm_sortKeys d) key

end ChartFeed.Dict
