/-!
# Ordered dictionaries

A dictionary keeps its entries in the order in which their keys first appeared.  Entries are a
plain list of pairs, so every law about lists applies; the operations below are the ones that
keep the keys distinct.

* `Dict.get?`, `Dict.insert`, `Dict.erase` look up, set and remove one key;
* `Dict.ofEntries` reads a sequence of entries in which keys may repeat: a repeated key keeps its
  first position and its last value;
* `OrderedMap` is a dictionary together with the fact that its keys are distinct.
-/

set_option autoImplicit false

namespace ChartFeed

/-- Entries of a dictionary in the order of their keys' first appearance. -/
abbrev Dict (α : Type) := List (String × α)

namespace Dict

variable {α β : Type}

/-- The value under the first entry with this key. -/
def get? (d : Dict α) (key : String) : Option α :=
  match d with
  | [] => none
  | (k, v) :: rest => if k = key then some v else get? rest key

/-- Whether some entry has this key. -/
def contains (d : Dict α) (key : String) : Bool := (get? d key).isSome

/-- Replaces the value where the key stands, or appends a new entry. -/
def insert (d : Dict α) (key : String) (value : α) : Dict α :=
  match d with
  | [] => [(key, value)]
  | (k, v) :: rest => if k = key then (k, value) :: rest else (k, v) :: insert rest key value

/-- Removes the first entry with this key; the others keep their order. -/
def erase (d : Dict α) (key : String) : Dict α :=
  match d with
  | [] => []
  | (k, v) :: rest => if k = key then rest else (k, v) :: erase rest key

/-- The keys in order. -/
def keys (d : Dict α) : List String := d.map Prod.fst

/-- Inserts the entries of `new` one after the other. -/
def insertAll (d new : Dict α) : Dict α :=
  new.foldl (fun acc entry ↦ insert acc entry.1 entry.2) d

/-- A repeated key keeps its first position and its last value. -/
def ofEntries (entries : List (String × α)) : Dict α := insertAll [] entries

/-- Applies a function to every value. -/
def mapValues (f : α → β) (d : Dict α) : Dict β := d.map fun entry ↦ (entry.1, f entry.2)

theorem keys_insert (d : Dict α) (key : String) (value : α) :
    keys (insert d key value) = if key ∈ keys d then keys d else keys d ++ [key] := by
  induction d with
  | nil => simp [insert, keys]
  | cons entry rest ih =>
    obtain ⟨k, v⟩ := entry
    simp only [keys] at ih
    by_cases h : k = key
    · simp [insert, keys, h]
    · have h' : key ≠ k := fun e ↦ h e.symm
      by_cases hm : key ∈ List.map Prod.fst rest
      · simp [insert, keys, h, h', hm, ih]
      · simp [insert, keys, h, h', hm, ih]

theorem nodup_keys_insert {d : Dict α} (key : String) (value : α) (h : (keys d).Nodup) :
    (keys (insert d key value)).Nodup := by
  rw [keys_insert]
  split
  · exact h
  · next hm =>
    rw [List.nodup_append]
    refine ⟨h, by simp, ?_⟩
    intro a ha b hb e
    rw [List.mem_singleton] at hb
    exact hm (hb ▸ e ▸ ha)

theorem nodup_keys_insertAll {d : Dict α} (new : Dict α) (h : (keys d).Nodup) :
    (keys (insertAll d new)).Nodup := by
  induction new generalizing d with
  | nil => exact h
  | cons entry rest ih => exact ih (nodup_keys_insert entry.1 entry.2 h)

theorem nodup_keys_ofEntries (entries : List (String × α)) : (keys (ofEntries entries)).Nodup :=
  nodup_keys_insertAll entries (by simp [keys])

end Dict

/-- A dictionary whose keys are distinct. -/
structure OrderedMap (α : Type) where
  /-- Entries in the order of their keys. -/
  entries : Dict α
  /-- No key repeats. -/
  nodup : (Dict.keys entries).Nodup

namespace OrderedMap

variable {α : Type}

/-- The map with no entries. -/
def empty : OrderedMap α := ⟨[], by simp [Dict.keys]⟩

/-- Reads entries one after the other: the first position and the last value of a key count. -/
def ofEntries (entries : List (String × α)) : OrderedMap α :=
  ⟨Dict.ofEntries entries, Dict.nodup_keys_ofEntries entries⟩

/-- The keys in order. -/
def keys (m : OrderedMap α) : List String := Dict.keys m.entries

/-- The number of entries. -/
def size (m : OrderedMap α) : Nat := m.entries.length

/-- Whether there is no entry. -/
def isEmpty (m : OrderedMap α) : Bool := m.entries.isEmpty

instance : Inhabited (OrderedMap α) := ⟨empty⟩

instance [DecidableEq α] : DecidableEq (OrderedMap α) := fun a b ↦
  if h : a.entries = b.entries then
    .isTrue (by cases a; cases b; cases h; rfl)
  else .isFalse fun e ↦ h (e ▸ rfl)

end OrderedMap

end ChartFeed
